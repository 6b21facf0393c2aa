import Linphone.Upnp.Config
import Mathlib.Logic.Function.Basic

/-!
# Port bindings of a router

`coreapi/upnp.c`: the bindings of local ports to ports of an IGD router, the requests that add and
remove them, and the callback that receives the answers of the router. The context is locked by its
mutex in all of them, so each is one step. A binding is the number under which it was created.

The library that talks to the router is given by what it answers: whether a request could be sent,
random ports, and later, for a request that was sent, success or failure. Next to the fields of the
source: the requests at the router, and how many were made.
-/

namespace Linphone

/-! ## Data -/

/-- `UPNP_ADD_MAX_RETRY` -/
def upnpAddMaxRetry : Nat := 4

/-- `UPNP_REMOVE_MAX_RETRY` -/
def upnpRemoveMaxRetry : Nat := 4

abbrev BindingId : Type := Nat

inductive IgdAction
  | add | remove
deriving DecidableEq

/-- A request at the router, with the binding as its cookie. -/
structure IgdRequest where
  action : IgdAction
  binding : BindingId
  remotePort : Int
deriving DecidableEq

/-- Who holds a reference on a binding: the three SIP ports of the context, and the streams of the
calls with a session. -/
inductive UpnpOwner
  | sipUdp | sipTcp | sipTls
  | audioRtp (call : Nat) | audioRtcp (call : Nat) | videoRtp (call : Nat) | videoRtcp (call : Nat)
deriving DecidableEq

structure UpnpContext where
  state : LinphoneUpnpState := .idle
  /-- The id of the device, formatted. -/
  deviceId : Option (List Char) := none
  binding : BindingId → UpnpPortBinding := fun _ => {}
  created : Nat := 0
  /-- The pointers that are not `NULL`. -/
  owned : List (UpnpOwner × BindingId) := []
  pendingBindings : List BindingId := []
  configs : UpnpConfigs := {}
  inFlight : List IgdRequest := []
  requests : Nat := 0

/-- The library: the results of `upnp_igd_add_port_mapping` and `upnp_igd_delete_port_mapping`, and
`rand`, for each request. -/
structure Igd where
  result : Nat → Int
  random : Nat → Nat

namespace UpnpContext

variable (igd : Igd) (lupnp : UpnpContext) (b : BindingId)

def modify (f : UpnpPortBinding → UpnpPortBinding) : UpnpContext :=
  { lupnp with binding := Function.update lupnp.binding b (f (lupnp.binding b)) }

@[simp] theorem modify_self (f : UpnpPortBinding → UpnpPortBinding) :
    (lupnp.modify b f).binding b = f (lupnp.binding b) := by
  simp [modify]

@[simp] theorem modify_ne {b' : BindingId} (f : UpnpPortBinding → UpnpPortBinding) (h : b' ≠ b) :
    (lupnp.modify b f).binding b' = lupnp.binding b' := by
  simp [modify, h]

theorem modify_modify (f g : UpnpPortBinding → UpnpPortBinding) :
    (lupnp.modify b f).modify b g = lupnp.modify b fun port => g (f port) := by
  simp [modify]

/-- `linphone_upnp_port_binding_retain` -/
def retain : UpnpContext := lupnp.modify b fun port => { port with ref := port.ref + 1 }

/-- `linphone_upnp_port_binding_release` -/
def release : UpnpContext := lupnp.modify b fun port => { port with ref := port.ref - 1 }

def configAdd : UpnpContext :=
  { lupnp with configs := lupnp.configs.addPortBinding (lupnp.binding b) }

def configRemove : UpnpContext :=
  { lupnp with configs := lupnp.configs.removePortBinding (lupnp.binding b) }

/-! ## Requests -/

/-- What an add request finds: the binding, and whether to go on. -/
def addingState (port : UpnpPortBinding) : UpnpPortBinding × Bool :=
  if port.state = .adding then (port, true)
  else
    let port := { port with toRemove := false }
    match port.state with
    | .ko | .idle => ({ port with retry := 0, state := .adding }, true)
    | .removing => ({ port with toAdd := true }, false)
    | _ => (port, false)

/-- What a remove request finds. -/
def removingState (port : UpnpPortBinding) : UpnpPortBinding × Bool :=
  if port.state = .removing then (port, true)
  else
    let port := { port with toAdd := false }
    match port.state with
    | .ok => ({ port with retry := 0, state := .removing }, true)
    | .adding => ({ port with toRemove := true }, false)
    | _ => (port, false)

/-- The pending entry of a request, which is made before it is sent. -/
def prepare (action : IgdAction) : UpnpContext :=
  { (lupnp.retain b).modify b fun port =>
      { port with
        deviceId := lupnp.deviceId
        externalPort :=
          if action = .add ∧ port.externalPort = -1 then
            (igd.random lupnp.requests % (0xffff - 1024) + 1024 : Nat)
          else port.externalPort
        retry := port.retry + 1 } with
    pendingBindings := lupnp.pendingBindings ++ [b] }

/-- `upnp_igd_add_port_mapping` or `upnp_igd_delete_port_mapping`, with what follows its result. -/
def request (action : IgdAction) : Int × UpnpContext :=
  let result := igd.result lupnp.requests
  let lupnp := { lupnp with requests := lupnp.requests + 1 }
  if result = 0 then
    (0, { lupnp with
      inFlight := lupnp.inFlight ++ [⟨action, b, (lupnp.binding b).externalPort⟩] })
  else (result, lupnp.modify b fun port => { port with state := .ko })

/-- `linphone_upnp_context_send_add_port_binding` -/
def sendAddPortBinding (retry : Bool) : Int × UpnpContext :=
  if lupnp.state ≠ .ok then (-2, lupnp)
  else
    let (port, goes) := addingState (lupnp.binding b)
    let lupnp := lupnp.modify b fun _ => port
    if ¬goes then (0, lupnp)
    else if port.retry ≠ 0 ∧ ¬retry then (-1, lupnp)
    else if upnpAddMaxRetry ≤ port.retry then
      (-1, lupnp.modify b fun port => { port with state := .ko })
    else (lupnp.prepare igd b .add).request igd b .add

/-- `linphone_upnp_context_send_remove_port_binding` -/
def sendRemovePortBinding (retry : Bool) : Int × UpnpContext :=
  if lupnp.state ≠ .ok then (-2, lupnp)
  else
    let (port, goes) := removingState (lupnp.binding b)
    let lupnp := lupnp.modify b fun _ => port
    if ¬goes then (0, lupnp)
    else if port.retry ≠ 0 ∧ ¬retry then (1, lupnp)
    else if upnpRemoveMaxRetry ≤ port.retry then
      (-1, lupnp.modify b fun port => { port with state := .ko })
    else (lupnp.prepare igd b .remove).request igd b .remove

/-! ## Answers -/

/-- The events of a port mapping in `linphone_upnp_igd_callback`. -/
def mappingAnswered (r : IgdRequest) (success : Bool) : UpnpContext :=
  match r.action, success with
  | .add, true =>
      (lupnp.modify r.binding fun port =>
        { port with externalPort := r.remotePort, state := .ok }).configAdd r.binding
  | .add, false =>
      -- force random external port
      ((lupnp.modify r.binding fun port => { port with externalPort := -1 }).sendAddPortBinding igd
        r.binding true).2
  | .remove, true =>
      (lupnp.modify r.binding fun port => { port with state := .idle }).configRemove r.binding
  | .remove, false =>
      let (ret, lupnp) := lupnp.sendRemovePortBinding igd r.binding true
      if ret ≠ 0 then lupnp.configRemove r.binding else lupnp

/-- The delayed removal of the callback. -/
def delayedRemove : UpnpContext :=
  let port := lupnp.binding b
  if port.toRemove ∧ port.state = .ok then
    ((lupnp.modify b fun port => { port with toRemove := false }).sendRemovePortBinding
      igd b false).2
  else if port.toRemove ∧ port.state = .ko then
    lupnp.modify b fun port => { port with toRemove := false }
  else lupnp

/-- The delayed addition of the callback. -/
def delayedAdd : UpnpContext :=
  let port := lupnp.binding b
  if port.toAdd ∧ (port.state = .idle ∨ port.state = .ko) then
    ((lupnp.modify b fun port => { port with toAdd := false }).sendAddPortBinding igd b false).2
  else lupnp

/-- The end of the callback. -/
def answerDone : UpnpContext :=
  { lupnp with pendingBindings := lupnp.pendingBindings.erase b }.release b

@[simp] theorem answerDone_self : (lupnp.answerDone b).binding b =
    { lupnp.binding b with ref := (lupnp.binding b).ref - 1 } := by
  simp [answerDone, release, UpnpContext.modify]

@[simp] theorem answerDone_ne {b' : BindingId} (h : b' ≠ b) :
    (lupnp.answerDone b).binding b' = lupnp.binding b' := by
  simp [answerDone, release, UpnpContext.modify, h]

/-- `linphone_upnp_igd_callback`, for the answer to a request at the router. -/
def igdAnswer (r : IgdRequest) (success : Bool) : UpnpContext :=
  let lupnp := { lupnp with inFlight := lupnp.inFlight.erase r }
  let lupnp := lupnp.mappingAnswered igd r success
  ((lupnp.delayedRemove igd r.binding).delayedAdd igd r.binding).answerDone r.binding

/-! ## What a request can do -/

/-- A request, of either kind. -/
def send (action : IgdAction) (retry : Bool) : UpnpContext :=
  match action with
  | .add => (lupnp.sendAddPortBinding igd b retry).2
  | .remove => (lupnp.sendRemovePortBinding igd b retry).2

/-- The requests at the router for a binding. -/
def flight : List IgdRequest := lupnp.inFlight.filter (·.binding = b)

def put (port : UpnpPortBinding) : UpnpContext := lupnp.modify b fun _ => port

/-- A request that went out, with the binding after it. -/
def sent (action : IgdAction) (port : UpnpPortBinding) : UpnpContext :=
  { lupnp.put b port with
    pendingBindings := lupnp.pendingBindings ++ [b]
    inFlight := lupnp.inFlight ++ [⟨action, b, port.externalPort⟩]
    requests := lupnp.requests + 1 }

@[simp] theorem put_binding (port : UpnpPortBinding) : (lupnp.put b port).binding b = port :=
  lupnp.modify_self b _

@[simp] theorem sent_binding (action : IgdAction) (port : UpnpPortBinding) :
    (lupnp.sent b action port).binding b = port := lupnp.put_binding b port

@[simp] theorem sent_flight (action : IgdAction) (port : UpnpPortBinding) :
    (lupnp.sent b action port).flight b =
      lupnp.flight b ++ [⟨action, b, port.externalPort⟩] := by
  simp [sent, flight]

/-- Nothing has happened to other bindings, nor to the state of the context. -/
structure OnlyAt (b : BindingId) (lupnp lupnp' : UpnpContext) : Prop where
  state : lupnp'.state = lupnp.state
  binding : ∀ b' ≠ b, lupnp'.binding b' = lupnp.binding b'
  flight : ∀ b' ≠ b, lupnp'.flight b' = lupnp.flight b'

theorem OnlyAt.refl (b : BindingId) (lupnp : UpnpContext) : OnlyAt b lupnp lupnp :=
  ⟨rfl, fun _ _ => rfl, fun _ _ => rfl⟩

theorem OnlyAt.trans {b : BindingId} {l l' l'' : UpnpContext} (h : OnlyAt b l l')
    (h' : OnlyAt b l' l'') : OnlyAt b l l'' :=
  ⟨h'.state.trans h.state, fun b' hb => (h'.binding b' hb).trans (h.binding b' hb),
    fun b' hb => (h'.flight b' hb).trans (h.flight b' hb)⟩

theorem onlyAt_modify (f : UpnpPortBinding → UpnpPortBinding) : OnlyAt b lupnp (lupnp.modify b f) :=
  ⟨rfl, fun _ h => lupnp.modify_ne b f h, fun _ _ => rfl⟩

theorem onlyAt_sent (action : IgdAction) (port : UpnpPortBinding) :
    OnlyAt b lupnp (lupnp.sent b action port) := by
  refine ⟨rfl, fun b' h => lupnp.modify_ne b (fun _ => port) h, fun b' h => ?_⟩
  simp [sent, flight, h.symm, put, UpnpContext.modify]

theorem flight_erase (r : IgdRequest) :
    ({ lupnp with inFlight := lupnp.inFlight.erase r } : UpnpContext).flight r.binding =
      (lupnp.flight r.binding).erase r :=
  List.erase_filter.symm

theorem flight_erase_ne {lupnp : UpnpContext} {b : BindingId} {r : IgdRequest}
    (hb : b ≠ r.binding) :
    ({ lupnp with inFlight := lupnp.inFlight.erase r } : UpnpContext).flight b =
      lupnp.flight b := by
  unfold UpnpContext.flight
  rw [← List.erase_filter]
  refine List.erase_of_not_mem fun h => ?_
  have hr := (List.mem_filter.mp h).2
  exact hb (by simpa using hr : r.binding = b).symm

end UpnpContext

namespace IgdAction

/-- The state in which such a request is at the router. -/
def busy : IgdAction → LinphoneUpnpState
  | add => .adding
  | remove => .removing

def opposite : IgdAction → IgdAction
  | add => remove
  | remove => add

/-- The states from which a request goes out. -/
def starts : IgdAction → LinphoneUpnpState → Bool
  | add, state => state = .idle || state = .ko
  | remove, state => state = .ok

/-- The state an action leads to. -/
def settled : IgdAction → LinphoneUpnpState
  | add => .ok
  | remove => .idle

end IgdAction

theorem busy_inj {x y : IgdAction} (h : x.busy = y.busy) : x = y := by
  cases x <;> cases y <;> first | rfl | exact LinphoneUpnpState.noConfusion h

theorem settled_ne_busy (x y : IgdAction) : x.settled ≠ y.busy := by
  cases x <;> cases y <;> decide

theorem ko_ne_busy (x : IgdAction) : LinphoneUpnpState.ko ≠ x.busy := by
  cases x <;> decide

theorem opposite_busy_ne (x : IgdAction) : x.opposite.busy ≠ x.busy := by
  cases x <;> decide

namespace UpnpPortBinding

/-- The flag of a request that is deferred. -/
def deferred (port : UpnpPortBinding) : IgdAction → Bool
  | .add => port.toAdd
  | .remove => port.toRemove

def setDeferred (port : UpnpPortBinding) (action : IgdAction) (flag : Bool) : UpnpPortBinding :=
  match action with
  | .add => { port with toAdd := flag }
  | .remove => { port with toRemove := flag }

variable (port : UpnpPortBinding) (action : IgdAction) (flag : Bool)

@[simp] theorem setDeferred_state : (port.setDeferred action flag).state = port.state := by
  cases action <;> rfl

@[simp] theorem setDeferred_ref : (port.setDeferred action flag).ref = port.ref := by
  cases action <;> rfl

@[simp] theorem setDeferred_retry : (port.setDeferred action flag).retry = port.retry := by
  cases action <;> rfl

@[simp] theorem setDeferred_self : (port.setDeferred action flag).deferred action = flag := by
  cases action <;> rfl

@[simp] theorem setDeferred_opposite' :
    (port.setDeferred action.opposite flag).deferred action = port.deferred action := by
  cases action <;> rfl

end UpnpPortBinding

/-- What a request does to a binding while the context is Ok and requests can be sent. -/
inductive Sent (lupnp : UpnpContext) (b : BindingId) (action : IgdAction) (retry : Bool) :
    UpnpContext → Prop
  /-- The same request is at the router. -/
  | busy : (lupnp.binding b).state = action.busy → retry = false →
      Sent lupnp b action retry lupnp
  /-- The opposite request is. -/
  | deferred : (lupnp.binding b).state = action.opposite.busy →
      Sent lupnp b action retry (lupnp.put b
        (((lupnp.binding b).setDeferred action.opposite false).setDeferred action true))
  | nothing : (lupnp.binding b).state ≠ action.busy →
      (lupnp.binding b).state ≠ action.opposite.busy →
        action.starts (lupnp.binding b).state = false →
      Sent lupnp b action retry (lupnp.put b
        ((lupnp.binding b).setDeferred action.opposite false))
  | exhausted : (lupnp.binding b).state = action.busy → retry = true →
      Sent lupnp b action retry (lupnp.put b { lupnp.binding b with state := .ko })
  | out (port : UpnpPortBinding) :
      (lupnp.binding b).state = action.busy ∧ (retry = true ∨ (lupnp.binding b).retry = 0) ∨
        action.starts (lupnp.binding b).state = true →
      port.state = action.busy → port.ref = (lupnp.binding b).ref + 1 → port.retry ≠ 0 →
      port.deferred action = (lupnp.binding b).deferred action →
      port.deferred action.opposite = (if (lupnp.binding b).state = action.busy then
        (lupnp.binding b).deferred action.opposite else false) →
      Sent lupnp b action retry (lupnp.sent b action port)

section sent

variable {igd : Igd} {lupnp : UpnpContext} {b : BindingId}

open UpnpContext

theorem Sent.onlyAt {action : IgdAction} {retry : Bool} {lupnp' : UpnpContext}
    (h : Sent lupnp b action retry lupnp') : OnlyAt b lupnp lupnp' := by
  cases h with
  | busy => exact OnlyAt.refl b lupnp
  | deferred | nothing | exhausted => exact lupnp.onlyAt_modify b _
  | out port => exact lupnp.onlyAt_sent b action port

theorem put_self : lupnp.put b (lupnp.binding b) = lupnp := by
  simp [put, UpnpContext.modify]

/-- A request that is prepared goes out. -/
theorem request_out (hsends : ∀ n, igd.result n = 0) (action : IgdAction) (port : UpnpPortBinding) :
    ∃ port', (((lupnp.put b port).prepare igd b action).request igd b action).2 =
        lupnp.sent b action port' ∧ port'.state = port.state ∧ port'.ref = port.ref + 1 ∧
      port'.retry = port.retry + 1 ∧ port'.toAdd = port.toAdd ∧ port'.toRemove = port.toRemove := by
  refine ⟨{ port with
    ref := port.ref + 1
    deviceId := lupnp.deviceId
    externalPort :=
      if action = .add ∧ port.externalPort = -1 then
        (igd.random lupnp.requests % (0xffff - 1024) + 1024 : Nat)
      else port.externalPort
    retry := port.retry + 1 }, ?_, rfl, rfl, rfl, rfl, rfl⟩
  unfold request prepare retain sent put
  rw [modify_modify, modify_modify]
  simp only [hsends, if_true, modify_self]
  rfl

/-- The rest of a request that goes on, for a binding that was busy with it. -/
theorem send_busy (hsends : ∀ n, igd.result n = 0) (action : IgdAction) (retry : Bool) (max : Nat)
    (refused : Int) (hmax : 0 < max) (hbusy : (lupnp.binding b).state = action.busy) :
    Sent lupnp b action retry
      (if (lupnp.binding b).retry ≠ 0 ∧ ¬retry then (refused, lupnp.put b (lupnp.binding b))
        else if max ≤ (lupnp.binding b).retry then
          (-1, (lupnp.put b (lupnp.binding b)).modify b fun port => { port with state := .ko })
        else ((lupnp.put b (lupnp.binding b)).prepare igd b action).request igd b action).2 := by
  by_cases hretry : (lupnp.binding b).retry ≠ 0 ∧ ¬retry = true
  · rw [if_pos hretry, put_self]
    exact .busy hbusy (by simpa using hretry.2)
  · have hagain : retry = true ∨ (lupnp.binding b).retry = 0 := by
      by_cases hr : retry = true
      · exact .inl hr
      · exact .inr (by simpa [hr] using hretry)
    rw [if_neg hretry]
    split
    · rename_i hle
      rw [put_self]
      exact .exhausted hbusy (hagain.resolve_right (by omega))
    · obtain ⟨port, hout, hst, href, hre, hadd, hremove⟩ :=
        request_out hsends action (lupnp.binding b)
      rw [hout]
      refine .out port (.inl ⟨hbusy, hagain⟩) (hst.trans hbusy) href (by omega) ?_ ?_
      · cases action with
        | add => exact hadd
        | remove => exact hremove
      · rw [if_pos hbusy]
        cases action with
        | add => exact hremove
        | remove => exact hadd

/-- The rest of a request that goes on, for a binding that starts with it. -/
theorem send_start (hsends : ∀ n, igd.result n = 0) (action : IgdAction) (retry : Bool) (max : Nat)
    (refused : Int) (hmax : 0 < max) (hne : (lupnp.binding b).state ≠ action.busy)
    (hstarts : action.starts (lupnp.binding b).state = true) {port : UpnpPortBinding}
    (hport : port = { (lupnp.binding b).setDeferred action.opposite false with
      retry := 0, state := action.busy }) :
    Sent lupnp b action retry
      (if port.retry ≠ 0 ∧ ¬retry then (refused, lupnp.put b port)
        else if max ≤ port.retry then
          (-1, (lupnp.put b port).modify b fun port => { port with state := .ko })
        else ((lupnp.put b port).prepare igd b action).request igd b action).2 := by
  have hzero : port.retry = 0 := by rw [hport]
  rw [if_neg (fun h => h.1 hzero), if_neg (by omega)]
  obtain ⟨port', hout, hst, href, hre, hadd, hremove⟩ := request_out hsends action port
  rw [hout]
  subst hport
  refine .out port' (.inr hstarts) hst ?_ (by omega) ?_ ?_
  · rw [href]
    simp
  · cases action with
    | add => exact hadd
    | remove => exact hremove
  · rw [if_neg hne]
    cases action with
    | add => exact hremove
    | remove => exact hadd

/-- The state a request computes, for either kind. -/
def startingState (action : IgdAction) (port : UpnpPortBinding) : UpnpPortBinding × Bool :=
  match action with
  | .add => addingState port
  | .remove => removingState port

theorem startingState_busy {action : IgdAction} {port : UpnpPortBinding}
    (h : port.state = action.busy) : startingState action port = (port, true) := by
  cases action with
  | add => exact if_pos h
  | remove => exact if_pos h

theorem startingState_opposite {action : IgdAction} {port : UpnpPortBinding}
    (h : port.state = action.opposite.busy) : startingState action port =
      ((port.setDeferred action.opposite false).setDeferred action true, false) := by
  cases action with
  | add =>
      have hst : port.state = .removing := h
      simp [startingState, addingState, UpnpPortBinding.setDeferred, IgdAction.opposite, hst]
  | remove =>
      have hst : port.state = .adding := h
      simp [startingState, removingState, UpnpPortBinding.setDeferred, IgdAction.opposite, hst]

theorem startingState_starts {action : IgdAction} {port : UpnpPortBinding}
    (h : action.starts port.state = true) : startingState action port =
      ({ port.setDeferred action.opposite false with retry := 0, state := action.busy }, true) := by
  cases action with
  | add =>
      rcases (by simpa [IgdAction.starts] using h : port.state = .idle ∨ port.state = .ko)
        with hst | hst
      · simp [startingState, addingState, UpnpPortBinding.setDeferred, IgdAction.opposite,
          IgdAction.busy, hst]
      · simp [startingState, addingState, UpnpPortBinding.setDeferred, IgdAction.opposite,
          IgdAction.busy, hst]
  | remove =>
      have hst : port.state = .ok := by simpa [IgdAction.starts] using h
      simp [startingState, removingState, UpnpPortBinding.setDeferred, IgdAction.opposite,
        IgdAction.busy, hst]

theorem startingState_nothing {action : IgdAction} {port : UpnpPortBinding}
    (hbusy : port.state ≠ action.busy) (hopposite : port.state ≠ action.opposite.busy)
    (hstarts : action.starts port.state = false) : startingState action port =
      (port.setDeferred action.opposite false, false) := by
  cases action with
  | add =>
      cases hst : port.state with
      | adding => exact absurd hst hbusy
      | removing => exact absurd hst hopposite
      | idle | ko => exact absurd hstarts (by rw [hst]; decide)
      | pending | notAvailable | ok | blacklisted =>
          simp [startingState, addingState, UpnpPortBinding.setDeferred, IgdAction.opposite, hst]
  | remove =>
      cases hst : port.state with
      | adding => exact absurd hst hopposite
      | removing => exact absurd hst hbusy
      | ok => exact absurd hstarts (by rw [hst]; decide)
      | pending | notAvailable | idle | ko | blacklisted =>
          simp [startingState, removingState, UpnpPortBinding.setDeferred, IgdAction.opposite, hst]

/-- `UPNP_ADD_MAX_RETRY`, `UPNP_REMOVE_MAX_RETRY` -/
def IgdAction.maxRetry : IgdAction → Nat
  | add => upnpAddMaxRetry
  | remove => upnpRemoveMaxRetry

/-- The result for a request that was already made. -/
def IgdAction.refused : IgdAction → Int
  | add => -1
  | remove => 1

theorem send_eq (hok : lupnp.state = .ok) (action : IgdAction) (retry : Bool)
    {port : UpnpPortBinding} {goes : Bool}
    (h : startingState action (lupnp.binding b) = (port, goes)) :
    lupnp.send igd b action retry =
      (if ¬goes then (0, lupnp.put b port)
        else if port.retry ≠ 0 ∧ ¬retry then (action.refused, lupnp.put b port)
        else if action.maxRetry ≤ port.retry then
          (-1, (lupnp.put b port).modify b fun port => { port with state := .ko })
        else ((lupnp.put b port).prepare igd b action).request igd b action).2 := by
  cases action with
  | add =>
      have h' : addingState (lupnp.binding b) = (port, goes) := h
      unfold send sendAddPortBinding
      rw [if_neg (not_not_intro hok), h']
      rfl
  | remove =>
      have h' : removingState (lupnp.binding b) = (port, goes) := h
      unfold send sendRemovePortBinding
      rw [if_neg (not_not_intro hok), h']
      rfl

/-- **`linphone_upnp_context_send_add_port_binding`** and
**`linphone_upnp_context_send_remove_port_binding`** -/
theorem send_cases (hsends : ∀ n, igd.result n = 0) (hok : lupnp.state = .ok) (action : IgdAction)
    (retry : Bool) : Sent lupnp b action retry (lupnp.send igd b action retry) := by
  have hmax : 0 < action.maxRetry := by cases action <;> decide
  by_cases hbusy : (lupnp.binding b).state = action.busy
  · rw [send_eq hok action retry (startingState_busy hbusy), if_neg (by decide)]
    exact send_busy hsends action retry action.maxRetry action.refused hmax hbusy
  · by_cases hopposite : (lupnp.binding b).state = action.opposite.busy
    · rw [send_eq hok action retry (startingState_opposite hopposite), if_pos (by decide)]
      exact .deferred hopposite
    · cases hstarts : action.starts (lupnp.binding b).state with
      | true =>
          rw [send_eq hok action retry (startingState_starts hstarts), if_neg (by decide)]
          exact send_start hsends action retry action.maxRetry action.refused hmax hbusy hstarts rfl
      | false =>
          rw [send_eq hok action retry (startingState_nothing hbusy hopposite hstarts),
            if_pos (by decide)]
          exact .nothing hbusy hopposite hstarts

theorem send_of_not_ok (h : lupnp.state ≠ .ok) (action : IgdAction) (retry : Bool) :
    lupnp.send igd b action retry = lupnp := by
  cases action with
  | add =>
      unfold send sendAddPortBinding
      rw [if_pos h]
  | remove =>
      unfold send sendRemovePortBinding
      rw [if_pos h]

end sent

end Linphone
