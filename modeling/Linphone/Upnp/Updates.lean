import Linphone.Upnp.Bindings

/-!
# Who asks for port bindings

The callers of the requests in `coreapi/upnp.c`: the ports of the core and of the calls
(`linphone_upnp_update_port_binding`), the device that comes back (`linphone_upnp_update`), the end
of a call's session and the end of the context. The hook of the core and the update of a call are
sequences of the updates of single ports; the state of the context does not change between them.
-/

namespace Linphone

/-- `UPNP_CORE_RETRY_DELAY` -/
def upnpCoreRetryDelay : Int := 10

/-- `UPNP_CALL_RETRY_DELAY` -/
def upnpCallRetryDelay : Int := 3

/-- What the clock and the library say. -/
structure UpnpNow where
  now : Int
  localAddr : Option String
  externalAddr : Option String

/-- What the library says about a device. -/
structure IgdDevice where
  deviceId : Option (List Char)
  externalIpaddress : Option String
  connectionStatus : Option (List Char)
  natEnabled : Bool
  blacklisted : Bool

/-- The state that the device gives to the context. -/
def IgdDevice.state (d : IgdDevice) : LinphoneUpnpState :=
  match d.externalIpaddress, d.connectionStatus with
  | some _, some status =>
      if status.map Char.toLower ≠ "connected".toList ∨ ¬d.natEnabled then .notAvailable
      else if d.blacklisted then .blacklisted
      else .ok
  | _, _ => .pending

/-- The streams of a call. -/
def sessionOwners (call : Nat) : List UpnpOwner :=
  [.audioRtp call, .audioRtcp call, .videoRtp call, .videoRtcp call]

namespace UpnpContext

variable (igd : Igd) (env : UpnpNow) (lupnp : UpnpContext) (b : BindingId) (owner : UpnpOwner)

/-! ## Owners -/

def slot : Option BindingId := (lupnp.owned.find? (·.1 = owner)).map Prod.snd

def setSlot : UpnpContext := { lupnp with owned := lupnp.owned ++ [(owner, b)] }

def clearSlot : UpnpContext := { lupnp with owned := lupnp.owned.eraseP (·.1 = owner) }

/-- A new binding. -/
def create (port : UpnpPortBinding) : UpnpContext :=
  { lupnp.put lupnp.created port with created := lupnp.created + 1 }

/-- `linphone_upnp_port_binding_new_or_collect`, for the pending bindings. -/
def newOrCollect (protocol : UpnpIgdIpProtocol) (localPort externalPort : Int) :
    BindingId × UpnpContext :=
  let endBinding : UpnpPortBinding := { protocol := protocol, localPort := localPort }
  match lupnp.pendingBindings.find? fun b => endBinding.equal (lupnp.binding b) with
  | some b =>
      -- must be not attached to any struct
      if (lupnp.binding b).ref = 1 then (b, lupnp.retain b)
      else (lupnp.created, lupnp.create { endBinding with externalPort := externalPort })
  | none => (lupnp.created, lupnp.create { endBinding with externalPort := externalPort })

/-! ## Updates of a port -/

/-- An owner whose binding is removed. -/
def withdraw : UpnpContext :=
  match lupnp.slot owner with
  | some b => (lupnp.send igd b .remove false).clearSlot owner
  | none => lupnp

/-- A binding of another port is replaced. -/
def replace (port : Int) : UpnpContext :=
  match lupnp.slot owner with
  | some b => if port ≠ (lupnp.binding b).localPort then lupnp.withdraw igd owner else lupnp
  | none => lupnp

/-- The binding of an owner, which may have to be made. -/
def hold (protocol : UpnpIgdIpProtocol) (port : Int) : BindingId × UpnpContext :=
  match lupnp.slot owner with
  | some b => (b, lupnp)
  | none =>
      let (b, lupnp) := lupnp.newOrCollect protocol port port
      (b, lupnp.setSlot b owner)

/-- The addresses of a binding; a local address that has changed removes it. -/
def setAddresses : UpnpContext :=
  let lupnp :=
    match env.localAddr with
    | some addr =>
        if (lupnp.binding b).localAddr ≠ addr then
          (lupnp.send igd b .remove false).modify b fun port => { port with localAddr := addr }
        else lupnp
    | none => lupnp
  match env.externalAddr with
  | some addr => lupnp.modify b fun port => { port with externalAddr := addr }
  | none => lupnp

/-- The binding is added, if this was not done recently. -/
def addAgain (retryDelay : Int) : UpnpContext :=
  if env.now - (lupnp.binding b).lastUpdate ≥ retryDelay then
    (lupnp.modify b fun port => { port with lastUpdate := env.now }).send igd b .add false
  else lupnp

/-- `linphone_upnp_update_port_binding` -/
def updatePortBinding (protocol : UpnpIgdIpProtocol) (port retryDelay : Int) : UpnpContext :=
  if port ≠ 0 then
    let (b, lupnp) := (lupnp.replace igd owner port).hold owner protocol port
    (lupnp.setAddresses igd env b).addAgain igd env b retryDelay
  else lupnp.withdraw igd owner

/-! ## Devices -/

/-- The bindings of the core and of its calls. -/
def globalList (calls : List Nat) : List BindingId :=
  ([UpnpOwner.sipUdp, .sipTcp, .sipTls] ++ calls.flatMap sessionOwners).filterMap lupnp.slot

/-- The bindings that the configuration lists, as new ones. -/
def createAll (ports : List UpnpPortBinding) : List BindingId × UpnpContext :=
  ports.foldl (fun (list, lupnp) port => (list ++ [lupnp.created], lupnp.create port)) ([], lupnp)

/-- A binding of the configuration is removed unless there is an equivalent one, which is then
taken to be added. -/
def updateListed (globals : List BindingId) : UpnpContext :=
  match globals.find? fun b' => (lupnp.binding b).equal (lupnp.binding b') with
  | some b' =>
      if (lupnp.binding b').state = .idle then
        lupnp.modify b' fun port => { port with state := .ok }
      else lupnp
  | none => lupnp.send igd b .remove true

/-- `linphone_upnp_update` -/
def update (calls : List Nat) : UpnpContext :=
  let globals := lupnp.globalList calls
  let (list, lupnp) :=
    lupnp.createAll ((lupnp.deviceId.map (listedOn lupnp.configs.keys)).getD [])
  let lupnp := list.foldl (fun lupnp b => lupnp.updateListed igd b globals) lupnp
  let lupnp := list.foldl release lupnp
  globals.foldl (fun lupnp b => (lupnp.send igd b .remove true).send igd b .add true) lupnp

/-- The events of a device in `linphone_upnp_igd_callback`. -/
def deviceChanged (d : IgdDevice) (calls : List Nat) : UpnpContext :=
  let oldState := lupnp.state
  let lupnp := { lupnp with state := d.state, deviceId := d.deviceId.bind formatDeviceId }
  if d.state = .ok ∧ oldState ≠ .ok then lupnp.update igd calls else lupnp

/-! ## Ends -/

/-- The removals that are requested at an end. -/
def removeSlots (owners : List UpnpOwner) : UpnpContext :=
  (owners.filterMap lupnp.slot).foldl (fun lupnp b => lupnp.send igd b .remove true) lupnp

/-- The reference of an owner is given up. -/
def releaseSlot : UpnpContext :=
  match lupnp.slot owner with
  | some b => (lupnp.release b).clearSlot owner
  | none => lupnp

/-- `linphone_upnp_session_destroy` -/
def sessionDestroy (call : Nat) : UpnpContext :=
  (sessionOwners call).foldl releaseSlot (lupnp.removeSlots igd (sessionOwners call))

end UpnpContext

/-! ## Runs -/

/-- A context, with whether its end waits for `empty_cond`. -/
structure UpnpSystem where
  lupnp : UpnpContext := {}
  waiting : Bool := false

inductive UpnpEvent
  /-- One port of the hook of the core, or of the update of a call. -/
  | update (env : UpnpNow) (owner : UpnpOwner) (protocol : UpnpIgdIpProtocol)
      (port retryDelay : Int)
  /-- `linphone_upnp_update_config` -/
  | flush
  | device (d : IgdDevice) (calls : List Nat)
  | answer (r : IgdRequest) (success : Bool)
  | sessionDestroy (call : Nat)
  /-- `linphone_upnp_context_destroy`, until it waits. -/
  | destroy (networkReachable : Bool)

namespace UpnpEvent

open UpnpContext

variable (igd : Igd) (s : UpnpSystem)

/-- The core is in the wait, and only callbacks come. -/
def Enabled : UpnpEvent → Prop
  | answer r _ => r ∈ s.lupnp.inFlight
  | device _ _ => True
  | update .. => s.waiting = false ∧ s.lupnp.state = .ok
  | flush | sessionDestroy _ | destroy _ => s.waiting = false

/-- The wait ends with a callback that finds no pending binding. -/
def signal (s : UpnpSystem) : UpnpSystem :=
  if s.lupnp.pendingBindings = [] then { s with waiting := false } else s

def after : UpnpEvent → UpnpSystem
  | update env owner protocol port retryDelay =>
      { s with lupnp := s.lupnp.updatePortBinding igd env owner protocol port retryDelay }
  | flush => { s with lupnp := { s.lupnp with configs := s.lupnp.configs.updateConfig } }
  | device d calls => signal { s with lupnp := s.lupnp.deviceChanged igd d calls }
  | answer r success => signal { s with lupnp := s.lupnp.igdAnswer igd r success }
  | sessionDestroy call => { s with lupnp := s.lupnp.sessionDestroy igd call }
  | destroy networkReachable =>
      let lupnp :=
        if networkReachable then s.lupnp.removeSlots igd [.sipUdp, .sipTcp, .sipTls] else s.lupnp
      { lupnp := lupnp, waiting := lupnp.pendingBindings ≠ [] }

end UpnpEvent

/-- A run, each event of which satisfies a condition on the state before it. -/
inductive UpnpRun (igd : Igd) (cond : UpnpSystem → UpnpEvent → Prop) : UpnpSystem → Prop
  | start : UpnpRun igd cond {}
  | step {s : UpnpSystem} (e : UpnpEvent) : UpnpRun igd cond s → e.Enabled s → cond s e →
      UpnpRun igd cond (e.after igd s)

end Linphone
