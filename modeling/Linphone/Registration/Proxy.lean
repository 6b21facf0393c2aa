import Linphone.Call.Core
import Linphone.Sal.Privacy

/-!
# Registrations

The registration of a proxy config (`coreapi/proxy.c`, `register_success` and `register_failure` of
`coreapi/callbacks.c`, `bellesip_sal/sal_op_registration.c`): `linphone_proxy_config_edit` and
`_done`, the periodic update, the refreshes and the removal, with every REGISTER operation the proxy
config has had and what became of its registration at the server.

`NoneLeft` is what is expected of the registrations, `Settles` the condition under which each event
keeps it. `OwnPointer.run`: the operation of the proxy config is the one with its user pointer.
-/

namespace Linphone

/-! ## Addresses -/

/-- `SalTransport` -/
inductive SalTransport
  | udp | tcp | tls | dtls
deriving DecidableEq

/-- `sal_transport_parse` -/
def salTransportParse (param : String) : SalTransport :=
  if strcasecmp "udp" param then .udp
  else if strcasecmp "tcp" param then .tcp
  else if strcasecmp "tls" param then .tls
  else if strcasecmp "dtls" param then .dtls
  else .udp

namespace SalAddress

variable (addr : SalAddress)

/-- `sal_address_get_transport_name` -/
def transportName : Option String :=
  match addr.uri with
  | .sip uri => (uri.params.lookup "transport").join
  | .absolute _ => none

/-- `linphone_address_get_transport` -/
def transport : SalTransport :=
  match addr.transportName with
  | some name => salTransportParse name
  | none => .udp

end SalAddress

/-- `LinphoneProxyConfigAddressComparisonResult` -/
inductive AddressComparisonResult
  | different | equal | weakEqual
deriving DecidableEq

/-- `linphone_proxy_config_address_equal`. Two addresses have one text when they are the same in all
their parts. -/
def addressEqual : Option SalAddress → Option SalAddress → AddressComparisonResult
  | none, none => .equal
  | some a, some b =>
      if a = b then .equal
      else if a.toLinphoneAddress.WeakEqual b.toLinphoneAddress then
        if a.isSips = b.isSips ∧ a.transport = b.transport then .weakEqual else .different
      else .different
  | _, _ => .different

/-- The identity and the proxy, as they are registered or as they were saved. -/
structure ServerConfig where
  identity : Option SalAddress
  proxy : Option SalAddress
deriving DecidableEq

/-- `linphone_proxy_config_is_server_config_changed` -/
def isServerConfigChanged (saved current : ServerConfig) : AddressComparisonResult :=
  let resultIdentity := addressEqual saved.identity current.identity
  if resultIdentity = .different then .different
  else
    let result := addressEqual saved.proxy current.proxy
    if result = .different then .different
    else if result = .equal then resultIdentity
    else result

/-! ## Operations -/

/-- `LinphoneRegistrationState` -/
inductive LinphoneRegistrationState
  | none | progress | ok | cleared | failed
deriving DecidableEq

/-- `belle_sip_refresher_t`: the expiration that was asked for, whether it goes on by itself, and
whether its last request is unanswered. -/
structure Refresher where
  expires : Nat
  started : Bool := true
  pending : Bool := true
deriving DecidableEq

/-- A `SalOp` of type `SalOpRegister`. -/
structure RegisterOp where
  /-- where it registers -/
  server : ServerConfig
  /-- whether its user pointer is the proxy config -/
  userPointer : Bool := true
  terminated : Bool := false
  refresher : Option Refresher := none
  /-- whether it is among `pending_auths` -/
  hasAuthPending : Bool := false
  /-- the server accepted its last registration -/
  registered : Bool := false
  /-- an unregistration was sent to its server since its last registration was -/
  unregistered : Bool := false
deriving DecidableEq

/-- The fields of `LinphoneProxyConfig` that the registration depends on. -/
structure LinphoneProxyConfig where
  /-- `reg_identity` and `reg_proxy` -/
  reg : ServerConfig
  /-- `saved_identity` and `saved_proxy` -/
  saved : ServerConfig
  regSendregister : Bool
  expires : Nat
  commit : Bool
  state : LinphoneRegistrationState
  op : Option Nat
deriving DecidableEq

/-- A proxy config with the operations it has made, in the order it made them. -/
structure Registration where
  cfg : LinphoneProxyConfig
  ops : List RegisterOp := []
  /-- whether the application has begun an edit which it has not committed -/
  editing : Bool := false
  /-- whether it is in `deleted_proxies` -/
  removed : Bool := false
deriving DecidableEq

/-! ## REGISTER requests -/

/-- Two configurations that name one identity at one server. -/
def ServerConfig.Same (a b : ServerConfig) : Prop := isServerConfigChanged a b ≠ .different

instance (a b : ServerConfig) : Decidable (a.Same b) := inferInstanceAs (Decidable (¬ _))

namespace RegisterOp

variable (op : RegisterOp)

/-- `sal_op_stop_refreshing` -/
def stopRefreshing : RegisterOp :=
  { op with refresher := op.refresher.map fun r => { r with started := false } }

/-- `sal_op_unref` of the last reference: the refresher and the pending authentication go. -/
def unref : RegisterOp := { op.stopRefreshing with hasAuthPending := false }

/-- `sal_op_release` -/
def release : RegisterOp := { op.unref with terminated := true, userPointer := false }

/-- What a request on the operation makes of it. -/
def requested (expires : Nat) : RegisterOp :=
  { op with refresher := some { expires := expires }, unregistered := decide (expires = 0) }

/-- What a request to a server makes of the operation: a REGISTER that expires at once is an
unregistration, and ends whatever was registered there. -/
def marked (server : ServerConfig) (expires : Nat) : RegisterOp :=
  if expires = 0 ∧ op.server.Same server then { op with unregistered := true } else op

end RegisterOp

/-- What `register_refresher_listener` is called for. A registration is granted unless the server
gives it no time; a failure may ask for an authentication, or be one which belle-sip retries. -/
inductive RegisterAnswer
  | success (granted : Bool)
  | failure (reason : SalReason) (authRequested retried : Bool)
  | other

/-- The operation after `register_refresher_listener`. -/
def RegisterOp.answered (op : RegisterOp) (r : Refresher) : RegisterAnswer → RegisterOp
  | .success granted =>
      let registered := granted && decide (0 < r.expires)
      { op with
        refresher := some { r with pending := false, started := r.started && registered }
        hasAuthPending := false
        registered := registered }
  | .failure _ authRequested retried =>
      { op with
        refresher := some { r with pending := false, started := r.started && retried }
        hasAuthPending := op.hasAuthPending || (authRequested && !op.terminated) }
  | .other => { op with refresher := some { r with pending := false } }

namespace Registration

variable (s : Registration)

def setState (state : LinphoneRegistrationState) : Registration :=
  { s with cfg := { s.cfg with state := state } }

def modifyOp (i : Nat) (f : RegisterOp → RegisterOp) : Registration :=
  { s with ops := s.ops.modify i f }

/-- A REGISTER request is sent on an operation. -/
def send (i expires : Nat) : Registration :=
  match s.ops[i]? with
  | some op =>
      { s with
        ops := (s.ops.map (·.marked op.server expires)).modify i (·.requested expires) }
  | none => s

/-- `sal_register_refresh`: nothing when it returns -1. The expiration is the one before when none
is given; `sent` tells whether belle-sip sends the request. -/
def salRegisterRefresh (i : Nat) (expires : Option Nat) (sent : Bool) : Option Registration :=
  match s.ops[i]?.bind (·.refresher) with
  | some r => if sent then some (s.send i (expires.getD r.expires)) else none
  | none => none

/-- `_linphone_proxy_config_unregister` -/
def unregister (sent : Bool) : Registration :=
  match s.cfg.op with
  | some i =>
      if s.cfg.state = .ok then (s.salRegisterRefresh i (some 0) sent).getD s else s
  | none => s

/-- A new operation, and `sal_register` on it. -/
def salRegister (sent : Bool) : Registration :=
  let new : Registration :=
    { s with
      cfg := { s.cfg with op := some s.ops.length }
      ops := s.ops ++ [{ server := s.cfg.reg }] }
  if sent then (new.send s.ops.length s.cfg.expires).setState .progress
  else new.setState .failed

/-- `sal_op_release` of the operation the proxy config has. -/
def releaseOp : Registration :=
  match s.cfg.op with
  | some i => s.modifyOp i (·.release)
  | none => s

/-- `linphone_proxy_config_register` -/
def register (sent : Bool) : Registration :=
  if s.cfg.regSendregister then s.releaseOp.salRegister sent
  else (if s.cfg.state = .progress then s.setState .cleared else s).unregister sent

/-- `linphone_proxy_config_refresh_register` -/
def refreshRegister (sent : Bool) : Registration :=
  match s.cfg.op with
  | some i =>
      if s.cfg.regSendregister ∧ s.cfg.state ≠ .progress then
        match s.salRegisterRefresh i (some s.cfg.expires) sent with
        | some s' => s'.setState .progress
        | none => s
      else s
  | none => s

/-! ## The proxy config -/

/-- `linphone_proxy_config_edit` -/
def edit : Registration :=
  let s := { s with cfg := { s.cfg with saved := s.cfg.reg }, editing := true }
  match s.cfg.op with
  | some i => s.modifyOp i (·.stopRefreshing)
  | none => s

/-- `linphone_proxy_config_check` -/
def check : Bool := s.cfg.reg.proxy.isSome && s.cfg.reg.identity.isSome

/-- What `linphone_proxy_config_done` does with the operation of another server. -/
def leaveServer (sent : Bool) : Registration :=
  let res := isServerConfigChanged s.cfg.saved s.cfg.reg
  if res = .equal then s
  else
    match s.cfg.op with
    | some i =>
        let s := if res = .different then s.unregister sent else s
        let s := s.modifyOp i fun op => { op.unref with userPointer := false }
        { s with cfg := { s.cfg with op := none } }
    | none => s

/-- `linphone_proxy_config_done` -/
def done (sent : Bool) : Registration :=
  if s.check then
    let s := s.leaveServer sent
    { s with cfg := { s.cfg with commit := true }, editing := false }
  else s

/-- `linphone_proxy_config_update` -/
def update (sent : Bool) : Registration :=
  if s.cfg.commit then
    let s := s.register sent
    { s with cfg := { s.cfg with commit := false } }
  else s

/-- `linphone_proxy_config_enable_register` -/
def enableRegister (val : Bool) : Registration :=
  { s with cfg := { s.cfg with regSendregister := val } }

/-- `linphone_core_remove_proxy_config` -/
def remove (sent : Bool) : Registration :=
  let s := { s with removed := true }
  if s.cfg.state = .ok then ((s.edit.enableRegister false).done sent).update sent else s

/-- `_linphone_proxy_config_release_ops`, some time after the removal. -/
def releaseOps : Registration :=
  let s := s.releaseOp
  { s with cfg := { s.cfg with op := none } }

/-- `register_success` -/
def registerSuccess (registered : Bool) : Registration :=
  s.setState (if registered then .ok else .cleared)

/-- `register_failure` -/
def registerFailure (reason : SalReason) : Registration :=
  if (reason = .serviceUnavailable ∨ reason = .ioError) ∧ s.cfg.state = .ok then
    s.setState .progress
  else s.setState .failed

/-- `register_refresher_listener` -/
def response (i : Nat) (answer : RegisterAnswer) : Registration :=
  match s.ops[i]? with
  | some op =>
      match op.refresher with
      | some r =>
          if r.pending then
            let s := s.modifyOp i fun op => op.answered r answer
            if op.userPointer then
              match answer with
              | .success granted => s.registerSuccess (granted && decide (0 < r.expires))
              | .failure reason _ _ => s.registerFailure reason
              | .other => s
            else s
          else s
      | none => s
  | none => s

/-- The refresher of the operation registers again, at its time. Only the operation the proxy config
has is there still: one which it let go was freed. -/
def refresherFires : Registration :=
  match s.cfg.op with
  | some i =>
      match s.ops[i]?.bind (·.refresher) with
      | some r => if r.started then s.send i r.expires else s
      | none => s
  | none => s

/-- `linphone_core_add_auth_info` for the operation, when it is among `pending_auths`. -/
def authenticate (sent : Bool) : Registration :=
  match s.cfg.op with
  | some i =>
      match s.ops[i]? with
      | some op =>
          if op.hasAuthPending then
            let s := if s.removed then s else s.setState .progress
            (s.salRegisterRefresh i none sent).getD s
          else s
      | none => s
  | none => s

end Registration

/-! ## Runs -/

inductive ProxyEvent
  | edit
  | setServerAddr (proxy : Option SalAddress)
  | setIdentity (identity : SalAddress)
  | enableRegister (val : Bool)
  | setExpires (expires : Nat)
  | done (sent : Bool)
  | update (sent : Bool)
  | refreshRegister (sent : Bool)
  | remove (sent : Bool)
  | releaseOps
  | refresherFires
  | authenticate (sent : Bool)
  | response (i : Nat) (answer : RegisterAnswer)

namespace Registration

variable (s : Registration)

def step : ProxyEvent → Registration
  | .edit => s.edit
  | .setServerAddr proxy =>
      { s with cfg := { s.cfg with reg := { s.cfg.reg with proxy := proxy } } }
  | .setIdentity identity =>
      { s with cfg := { s.cfg with reg := { s.cfg.reg with identity := some identity } } }
  | .enableRegister val => s.enableRegister val
  | .setExpires expires => { s with cfg := { s.cfg with expires := expires } }
  | .done sent => s.done sent
  | .update sent => s.update sent
  | .refreshRegister sent => s.refreshRegister sent
  | .remove sent => s.remove sent
  | .releaseOps => s.releaseOps
  | .refresherFires => s.refresherFires
  | .authenticate sent => s.authenticate sent
  | .response i answer => s.response i answer

/-- The application edits before it sets, and gives up a proxy config which it removes. -/
def Allowed : ProxyEvent → Prop
  | .edit | .done _ | .update _ | .refreshRegister _ | .remove _ => s.removed = false
  | .setServerAddr _ | .setIdentity _ | .enableRegister _ | .setExpires _ =>
      s.editing = true ∧ s.removed = false
  | .releaseOps => s.removed = true
  | .refresherFires | .authenticate _ | .response _ _ => True

def run (events : List ProxyEvent) : Registration := events.foldl step s

/-- Each event of a run meets a condition, in the state it finds. -/
def Along (p : Registration → ProxyEvent → Prop) : Registration → List ProxyEvent → Prop
  | _, [] => True
  | s, event :: events => p s event ∧ Along p (s.step event) events

end Registration

/-- `linphone_core_add_proxy_config` -/
def linphoneCoreAddProxyConfig (reg saved : ServerConfig) (sendregister : Bool) (expires : Nat) :
    Registration where
  cfg :=
    { reg := reg
      saved := saved
      regSendregister := sendregister
      expires := expires
      commit := true
      state := .none
      op := none }

/-! ## What is promised -/

/-- The operation is registered at its server, or may come to be: a request is unanswered, or may
follow. -/
def RegisterOp.Outstanding (op : RegisterOp) : Prop :=
  op.unregistered = false ∧
    (op.registered = true ∨ op.hasAuthPending = true ∨
      ∃ r, op.refresher = some r ∧ (r.started = true ∨ r.pending = true))

namespace Registration

variable (s : Registration)

/-- At most one operation has the proxy config as its user pointer. -/
def OnePointer : Prop :=
  ∀ (i j : Nat) (op op' : RegisterOp), s.ops[i]? = some op → s.ops[j]? = some op' →
    op.userPointer = true → op'.userPointer = true → i = j

/-- What is registered and was not unregistered is so at the server of the proxy config, once an
edit is committed, and for a registration which is enabled, once the commit is acted on. -/
def NoneLeft : Prop :=
  ∀ op ∈ s.ops, op.registered = true → op.unregistered = false →
    s.removed = false ∧
      (s.editing = false →
        op.server.Same s.cfg.reg ∧ (s.cfg.commit = false → s.cfg.regSendregister = true))

/-- The proxy config is registered at a server by the operation it has, and the unregistration is
sent. -/
def Unregisters (server : ServerConfig) (sent : Bool) : Prop :=
  s.cfg.state = .ok ∧ sent = true ∧
    ∃ i op r, s.cfg.op = some i ∧ s.ops[i]? = some op ∧ op.refresher = some r ∧
      op.server.Same server

/-- What is outstanding at another server than the one committed, or of a proxy config that is
disabled or removed, can be unregistered there and then; and no refresh goes to another server. -/
def Settles : ProxyEvent → Prop
  | .done sent =>
      s.check = true → ∀ op ∈ s.ops, op.Outstanding → op.server.Same s.cfg.reg ∨
        isServerConfigChanged s.cfg.saved s.cfg.reg = .different ∧ s.Unregisters op.server sent
  | .update sent =>
      s.cfg.commit = true → s.editing = false → s.cfg.regSendregister = false →
        ∀ op ∈ s.ops, op.Outstanding → s.Unregisters op.server sent
  | .remove sent =>
      ∀ op ∈ s.ops, op.Outstanding → s.check = true ∧ s.Unregisters op.server sent
  | .refreshRegister _ =>
      s.editing = false → ∀ i op, s.cfg.op = some i → s.ops[i]? = some op →
        op.server.Same s.cfg.reg
  | _ => True

end Registration

/-! ## Same servers -/

/-- What `linphone_proxy_config_address_equal` tells apart. -/
def SalAddress.place (addr : SalAddress) :
    Option String × Option String × Int × Bool × SalTransport :=
  (addr.username, addr.domain, addr.port, addr.isSips, addr.transport)

theorem addressEqual_ne_different_iff (a b : Option SalAddress) :
    addressEqual a b ≠ .different ↔ a.map (·.place) = b.map (·.place) := by
  cases a with
  | none => cases b with
    | none => simp [addressEqual]
    | some b => simp [addressEqual]
  | some a => cases b with
    | none => simp [addressEqual]
    | some b =>
        by_cases heq : a = b
        · simp [addressEqual, heq]
        · by_cases hweak : a.toLinphoneAddress.WeakEqual b.toLinphoneAddress
          · obtain ⟨huser, hdomain, hport⟩ := hweak
            by_cases hrest : a.isSips = b.isSips ∧ a.transport = b.transport
            · simp [addressEqual, heq, LinphoneAddress.WeakEqual, huser, hdomain, hport, hrest,
                SalAddress.place]
            · simp [addressEqual, heq, LinphoneAddress.WeakEqual, huser, hdomain, hport, hrest,
                SalAddress.place]
          · have hplace : a.place ≠ b.place := by
              intro hsame
              simp only [SalAddress.place, Prod.mk.injEq] at hsame
              exact hweak ⟨hsame.1, hsame.2.1, hsame.2.2.1⟩
            simp [addressEqual, heq, hweak, hplace]

namespace ServerConfig

variable {a b c : ServerConfig}

theorem same_iff (a b : ServerConfig) :
    a.Same b ↔ a.identity.map (·.place) = b.identity.map (·.place) ∧
      a.proxy.map (·.place) = b.proxy.map (·.place) := by
  rw [← addressEqual_ne_different_iff, ← addressEqual_ne_different_iff]
  unfold Same isServerConfigChanged
  by_cases hidentity : addressEqual a.identity b.identity = .different
  · simp [hidentity]
  · by_cases hproxy : addressEqual a.proxy b.proxy = .different
    · simp [hproxy]
    · by_cases hequal : addressEqual a.proxy b.proxy = .equal
      · simp [hidentity, hequal]
      · simp [hidentity, hproxy, hequal]

theorem Same.refl (a : ServerConfig) : a.Same a := (same_iff a a).mpr ⟨rfl, rfl⟩

theorem Same.symm (h : a.Same b) : b.Same a := by
  obtain ⟨hidentity, hproxy⟩ := (same_iff a b).mp h
  exact (same_iff b a).mpr ⟨hidentity.symm, hproxy.symm⟩

end ServerConfig

/-! ## Operations one by one -/

theorem getElem?_modify_some {α : Type} {l : List α} {i j : Nat} {f : α → α} {b : α}
    (h : (l.modify i f)[j]? = some b) : ∃ a, l[j]? = some a ∧ b = if i = j then f a else a := by
  rw [List.getElem?_modify] at h
  obtain ⟨a, ha, heq⟩ := Option.map_eq_some_iff.mp h
  exact ⟨a, ha, heq.symm⟩

namespace RegisterOp

variable {op : RegisterOp}

theorem Outstanding.of_stopRefreshing (h : op.stopRefreshing.Outstanding) : op.Outstanding := by
  obtain ⟨hunregistered, hregistered | hauth | ⟨r, hr, hgoes⟩⟩ := h
  · exact ⟨hunregistered, Or.inl hregistered⟩
  · exact ⟨hunregistered, Or.inr (Or.inl hauth)⟩
  · obtain ⟨r', hr', rfl⟩ := Option.map_eq_some_iff.mp hr
    refine ⟨hunregistered, Or.inr (Or.inr ⟨r', hr', Or.inr ?_⟩)⟩
    simpa using hgoes

theorem Outstanding.of_unref (h : op.unref.Outstanding) : op.Outstanding := by
  refine Outstanding.of_stopRefreshing ⟨h.1, ?_⟩
  rcases h.2 with hregistered | hauth | hgoes
  · exact Or.inl hregistered
  · exact absurd hauth Bool.false_ne_true
  · exact Or.inr (Or.inr hgoes)

theorem Outstanding.of_answered {r : Refresher} (hr : op.refresher = some r)
    (hpending : r.pending = true) {answer : RegisterAnswer}
    (h : (op.answered r answer).Outstanding) : op.Outstanding := by
  refine ⟨?_, Or.inr (Or.inr ⟨r, hr, Or.inr hpending⟩)⟩
  cases answer with
  | success granted => exact h.1
  | failure reason authRequested retried => exact h.1
  | other => exact h.1

@[simp] theorem server_answered (r : Refresher) (answer : RegisterAnswer) :
    (op.answered r answer).server = op.server := by
  cases answer with
  | success granted => rfl
  | failure reason authRequested retried => rfl
  | other => rfl

@[simp] theorem userPointer_answered (r : Refresher) (answer : RegisterAnswer) :
    (op.answered r answer).userPointer = op.userPointer := by
  cases answer with
  | success granted => rfl
  | failure reason authRequested retried => rfl
  | other => rfl

@[simp] theorem server_marked (server : ServerConfig) (expires : Nat) :
    (op.marked server expires).server = op.server := by
  unfold marked
  split <;> rfl

@[simp] theorem userPointer_marked (server : ServerConfig) (expires : Nat) :
    (op.marked server expires).userPointer = op.userPointer := by
  unfold marked
  split <;> rfl

theorem Outstanding.of_marked {server : ServerConfig} {expires : Nat}
    (h : (op.marked server expires).Outstanding) :
    op.Outstanding ∧ (expires = 0 → ¬ op.server.Same server) := by
  unfold marked at h
  split at h
  · exact absurd h.1 (by simp)
  · rename_i hmarked
    exact ⟨h, fun hzero hsame => hmarked ⟨hzero, hsame⟩⟩

theorem not_outstanding_requested : ¬ (op.requested 0).Outstanding := by
  intro h
  exact absurd h.1 (by simp [requested])

end RegisterOp

/-! ## Responses -/

namespace Registration

/-- **A response**: the operation is answered, and with the pointer the state may change. -/
theorem response_cases (s : Registration) (i : Nat) (answer : RegisterAnswer) :
    s.response i answer = s ∨ ∃ op r state, s.ops[i]? = some op ∧ op.refresher = some r ∧
      r.pending = true ∧
      s.response i answer = (s.modifyOp i fun op => op.answered r answer).setState state ∧
      (op.userPointer = false → state = s.cfg.state) := by
  unfold response
  cases hi : s.ops[i]? with
  | none => exact Or.inl rfl
  | some op =>
      cases hr : op.refresher with
      | none => exact Or.inl (by simp only [hr])
      | some r =>
          cases hpending : r.pending with
          | false => exact Or.inl (by simp [hr, hpending])
          | true =>
              refine Or.inr ⟨op, r, ?_⟩
              simp only [hr, hpending, if_true, true_and]
              cases hpointer : op.userPointer with
              | false => exact ⟨s.cfg.state, rfl, fun _ => rfl⟩
              | true =>
                  cases answer with
                  | success granted => exact ⟨_, rfl, fun h => absurd h (by simp)⟩
                  | failure reason authRequested retried =>
                      simp only [if_true, registerFailure]
                      split
                      · exact ⟨_, rfl, fun h => absurd h (by simp)⟩
                      · exact ⟨_, rfl, fun h => absurd h (by simp)⟩
                  | other => exact ⟨s.cfg.state, rfl, fun h => absurd h (by simp)⟩

/-! ## Requests -/

theorem cfg_send (s : Registration) (i expires : Nat) : (s.send i expires).cfg = s.cfg := by
  unfold Registration.send
  cases s.ops[i]? with
  | none => rfl
  | some op => rfl

/-- A refresh repeats or changes what was requested on an operation. -/
theorem salRegisterRefresh_some {s : Registration} {i : Nat} {expires : Option Nat} {sent : Bool}
    {s' : Registration}
    (hs' : s.salRegisterRefresh i expires sent = some s') :
    ∃ op r, s.ops[i]? = some op ∧ op.refresher = some r ∧
      s' = s.send i (expires.getD r.expires) := by
  unfold salRegisterRefresh at hs'
  cases hr : s.ops[i]?.bind (·.refresher) with
  | none => simp [hr] at hs'
  | some r =>
      obtain ⟨op, hop, hrefresher⟩ := Option.bind_eq_some_iff.mp hr
      cases sent with
      | false => simp [hr] at hs'
      | true =>
          simp only [hr, if_true, Option.some.injEq] at hs'
          exact ⟨op, r, hop, hrefresher, hs'.symm⟩

/-- **An unregistration**: a request of the own operation, when it was registered. -/
theorem unregister_cases (s : Registration) (sent : Bool) :
    (s.unregister sent = s ∧ ∀ i own r, s.cfg.state = .ok → sent = true → s.cfg.op = some i →
      s.ops[i]? = some own → own.refresher ≠ some r) ∨
    ∃ i own r, s.cfg.op = some i ∧ s.ops[i]? = some own ∧ own.refresher = some r ∧
      s.unregister sent = s.send i 0 := by
  unfold unregister
  cases hop : s.cfg.op with
  | none => exact Or.inl ⟨rfl, fun i own r _ _ hown => by cases hown⟩
  | some i =>
      by_cases hok : s.cfg.state = .ok
      · simp only [hok, if_true]
        cases hs' : s.salRegisterRefresh i (some 0) sent with
        | none =>
            refine Or.inl ⟨rfl, fun j own r _ hsent hown hj hr => ?_⟩
            obtain rfl : i = j := Option.some.inj hown
            simp [salRegisterRefresh, hj, hr, hsent] at hs'
        | some s' =>
            obtain ⟨own, r, hown, hr, rfl⟩ := salRegisterRefresh_some hs'
            exact Or.inr ⟨i, own, r, rfl, hown, hr, rfl⟩
      · exact Or.inl ⟨if_neg hok, fun _ _ _ h => absurd h hok⟩

/-- **A registration** is one on a new operation, or an unregistration. -/
theorem register_cases (s : Registration) (sent : Bool) :
    (s.cfg.regSendregister = true ∧ s.register sent = s.releaseOp.salRegister sent) ∨
    s.cfg.regSendregister = false ∧ ∃ state, s.register sent = (s.setState state).unregister sent ∧
      (state = s.cfg.state ∨ s.cfg.state = .progress) := by
  unfold register
  cases hsend : s.cfg.regSendregister with
  | true => exact Or.inl ⟨rfl, rfl⟩
  | false =>
      refine Or.inr ⟨rfl, ?_⟩
      by_cases hprogress : s.cfg.state = .progress
      · exact ⟨.cleared, by simp [hprogress], Or.inr hprogress⟩
      · exact ⟨s.cfg.state, by simp only [Bool.false_eq_true, if_false, hprogress]; rfl, Or.inl rfl⟩

/-- **A refresh**: a request of the own operation. -/
theorem refreshRegister_cases (s : Registration) (sent : Bool) :
    s.refreshRegister sent = s ∨ ∃ i own r, s.cfg.op = some i ∧ s.ops[i]? = some own ∧
      own.refresher = some r ∧ s.cfg.regSendregister = true ∧
      s.refreshRegister sent = (s.send i s.cfg.expires).setState .progress := by
  unfold refreshRegister
  cases hop : s.cfg.op with
  | none => exact Or.inl rfl
  | some i =>
      by_cases hsend : s.cfg.regSendregister = true ∧ s.cfg.state ≠ .progress
      · simp only [if_pos hsend]
        cases hs' : s.salRegisterRefresh i (some s.cfg.expires) sent with
        | none => exact Or.inl rfl
        | some s' =>
            obtain ⟨own, r, hown, hr, rfl⟩ := salRegisterRefresh_some hs'
            exact Or.inr ⟨i, own, r, rfl, hown, hr, hsend.1, rfl⟩
      · exact Or.inl (if_neg hsend)

/-- **The server is left**: the own operation is let go of, after an unregistration for another
server. -/
theorem leaveServer_cases (s : Registration) (sent : Bool) :
    (s.leaveServer sent = s ∧
      (isServerConfigChanged s.cfg.saved s.cfg.reg = .different → s.cfg.op = none)) ∨
    ∃ i s', s.cfg.op = some i ∧
      (s' = s.unregister sent ∨
        isServerConfigChanged s.cfg.saved s.cfg.reg ≠ .different ∧ s' = s) ∧
      s.leaveServer sent = { s'.modifyOp i fun op => { op.unref with userPointer := false } with
        cfg := { s'.cfg with op := none } } := by
  unfold leaveServer
  by_cases hequal : isServerConfigChanged s.cfg.saved s.cfg.reg = .equal
  · exact Or.inl ⟨if_pos hequal, fun h => by simp [hequal] at h⟩
  · simp only [hequal, if_false]
    cases hop : s.cfg.op with
    | none => exact Or.inl ⟨rfl, fun _ => rfl⟩
    | some i =>
        by_cases hdifferent : isServerConfigChanged s.cfg.saved s.cfg.reg = .different
        · simp only [hdifferent, if_true]
          exact Or.inr ⟨i, _, rfl, Or.inl rfl, rfl⟩
        · simp only [hdifferent, if_false]
          exact Or.inr ⟨i, s, rfl, Or.inr ⟨hdifferent, rfl⟩, rfl⟩

/-- The refresher of the own operation repeats its request. -/
theorem refresherFires_cases (s : Registration) :
    s.refresherFires = s ∨ ∃ i own r, s.cfg.op = some i ∧ s.ops[i]? = some own ∧
      own.refresher = some r ∧ r.started = true ∧ s.refresherFires = s.send i r.expires := by
  unfold refresherFires
  cases hop : s.cfg.op with
  | none => exact Or.inl rfl
  | some i =>
      cases hr : s.ops[i]?.bind (·.refresher) with
      | none => exact Or.inl (by simp only [hr])
      | some r =>
          obtain ⟨own, hown, hrefresher⟩ := Option.bind_eq_some_iff.mp hr
          by_cases hstarted : r.started = true
          · exact Or.inr ⟨i, own, r, rfl, hown, hrefresher, hstarted, by simp only [hr, hstarted,
              if_true]⟩
          · exact Or.inl (by simp [hr, hstarted])

/-- The own operation is authenticated: its last request is repeated. -/
theorem authenticate_cases (s : Registration) (sent : Bool) :
    ∃ state, s.authenticate sent = s.setState state ∨ ∃ i own r, s.cfg.op = some i ∧
      s.ops[i]? = some own ∧ own.refresher = some r ∧ own.hasAuthPending = true ∧
      s.authenticate sent = (s.setState state).send i r.expires := by
  unfold authenticate
  cases hop : s.cfg.op with
  | none => exact ⟨s.cfg.state, Or.inl rfl⟩
  | some i =>
      cases hown : s.ops[i]? with
      | none => exact ⟨s.cfg.state, Or.inl (by simp only [hown]; rfl)⟩
      | some own =>
          by_cases hauth : own.hasAuthPending = true
          · have hstate : ∃ state, (if s.removed = true then s else s.setState .progress) =
                s.setState state := by
              split
              · exact ⟨s.cfg.state, rfl⟩
              · exact ⟨.progress, rfl⟩
            obtain ⟨state, hstate⟩ := hstate
            refine ⟨state, ?_⟩
            simp only [hown, hauth, if_true, hstate]
            cases hs' : (s.setState state).salRegisterRefresh i none sent with
            | none => exact Or.inl rfl
            | some s' =>
                obtain ⟨own', r, hown', hr, rfl⟩ := salRegisterRefresh_some hs'
                obtain rfl : own = own' := Option.some.inj (hown.symm.trans hown')
                exact Or.inr ⟨i, own, r, rfl, hown, hr, hauth, rfl⟩
          · refine ⟨s.cfg.state, Or.inl ?_⟩
            simp only [hown, hauth]
            rfl

end Registration

/-! ## The pointers of the operations -/

namespace Registration

variable {s : Registration}

/-- The operation the proxy config has is the one with its pointer. -/
def OwnPointer (s : Registration) : Prop :=
  ∀ (i : Nat) (op : RegisterOp), s.ops[i]? = some op → (op.userPointer = true ↔ s.cfg.op = some i)

theorem OwnPointer.onePointer (h : s.OwnPointer) : s.OnePointer := by
  intro i j op op' hi hj hop hop'
  have hsame : some i = some j := ((h i op hi).mp hop).symm.trans ((h j op' hj).mp hop')
  exact Option.some.inj hsame

theorem OwnPointer.congr {s' : Registration} (h : s.OwnPointer) (hop : s'.cfg.op = s.cfg.op)
    (hops : ∀ (i : Nat) (op' : RegisterOp), s'.ops[i]? = some op' →
      ∃ op, s.ops[i]? = some op ∧ op'.userPointer = op.userPointer) : s'.OwnPointer := by
  intro i op' hi
  obtain ⟨op, hi', heq⟩ := hops i op' hi
  rw [heq, hop]
  exact h i op hi'

theorem OwnPointer.modifyOp (h : s.OwnPointer) {f : RegisterOp → RegisterOp} (i : Nat)
    (hf : ∀ op, (f op).userPointer = op.userPointer) : (s.modifyOp i f).OwnPointer := by
  refine h.congr rfl fun j op' hj => ?_
  obtain ⟨op, hj', rfl⟩ := getElem?_modify_some hj
  refine ⟨op, hj', ?_⟩
  split
  · exact hf op
  · rfl

theorem OwnPointer.send (h : s.OwnPointer) (i expires : Nat) : (s.send i expires).OwnPointer := by
  unfold Registration.send
  cases hi : s.ops[i]? with
  | none => exact h
  | some op =>
      refine h.congr rfl fun j op' hj => ?_
      obtain ⟨marked, hj', rfl⟩ := getElem?_modify_some hj
      rw [List.getElem?_map] at hj'
      obtain ⟨op', hop', rfl⟩ := Option.map_eq_some_iff.mp hj'
      refine ⟨op', hop', ?_⟩
      split
      · exact RegisterOp.userPointer_marked _ _
      · exact RegisterOp.userPointer_marked _ _

theorem OwnPointer.unregister (h : s.OwnPointer) (sent : Bool) :
    (s.unregister sent).OwnPointer := by
  rcases unregister_cases s sent with ⟨heq, -⟩ | ⟨i, _, _, _, _, _, heq⟩
  · rw [heq]
    exact h
  · rw [heq]
    exact h.send i 0

theorem cfg_unregister (s : Registration) (sent : Bool) : (s.unregister sent).cfg = s.cfg := by
  rcases unregister_cases s sent with ⟨heq, -⟩ | ⟨i, _, _, _, _, _, heq⟩
  · rw [heq]
  · rw [heq, cfg_send]

/-- No operation has the pointer once the proxy config has let its operation go. -/
theorem OwnPointer.letGo (h : s.OwnPointer) {i : Nat} (hop : s.cfg.op = some i)
    {f : RegisterOp → RegisterOp} (hf : ∀ op, (f op).userPointer = false) :
    ∀ op ∈ (s.modifyOp i f).ops, op.userPointer = false := by
  intro op' hmem
  obtain ⟨j, hj⟩ := List.mem_iff_getElem?.mp hmem
  obtain ⟨op, hj', rfl⟩ := getElem?_modify_some hj
  by_cases hij : i = j
  · rw [if_pos hij]
    exact hf op
  · rw [if_neg hij, Bool.eq_false_iff]
    intro hpointer
    have hown := (h j op hj').mp hpointer
    rw [hop] at hown
    exact hij (Option.some.inj hown)

theorem OwnPointer.noPointer (h : s.OwnPointer) (hop : s.cfg.op = none) :
    ∀ op ∈ s.ops, op.userPointer = false := by
  intro op hmem
  obtain ⟨j, hj⟩ := List.mem_iff_getElem?.mp hmem
  rw [Bool.eq_false_iff]
  intro hpointer
  have hown := (h j op hj).mp hpointer
  rw [hop] at hown
  cases hown

theorem OwnPointer.releaseOp (h : s.OwnPointer) :
    ∀ op ∈ s.releaseOp.ops, op.userPointer = false := by
  unfold Registration.releaseOp
  cases hop : s.cfg.op with
  | none => exact h.noPointer hop
  | some i => exact h.letGo hop fun _ => rfl

theorem ownPointer_of_none (hop : s.cfg.op = none) (h : ∀ op ∈ s.ops, op.userPointer = false) :
    s.OwnPointer := by
  intro i op hi
  rw [h op (List.mem_of_getElem? hi), hop]
  simp

theorem OwnPointer.salRegister (h : ∀ op ∈ s.ops, op.userPointer = false) (sent : Bool) :
    (s.salRegister sent).OwnPointer := by
  have hnew : ({ s with
      cfg := { s.cfg with op := some s.ops.length }
      ops := s.ops ++ [{ server := s.cfg.reg }] } : Registration).OwnPointer := by
    intro i op hi
    show op.userPointer = true ↔ some s.ops.length = some i
    rcases Nat.lt_trichotomy i s.ops.length with hlt | heq | hgt
    · have hold : op ∈ s.ops := by
        rw [List.getElem?_append_left hlt] at hi
        exact List.mem_of_getElem? hi
      rw [h op hold, Option.some.injEq]
      exact iff_of_false Bool.false_ne_true (by omega)
    · subst heq
      rw [List.getElem?_append_right (Nat.le_refl _), Nat.sub_self] at hi
      rw [← Option.some.inj hi]
      simp
    · rw [List.getElem?_append_right (Nat.le_of_lt hgt)] at hi
      simp [Nat.sub_ne_zero_of_lt hgt] at hi
  unfold Registration.salRegister
  cases sent with
  | false => exact hnew
  | true => exact hnew.send _ _

theorem OwnPointer.register (h : s.OwnPointer) (sent : Bool) : (s.register sent).OwnPointer := by
  rcases register_cases s sent with ⟨-, heq⟩ | ⟨-, state, heq, -⟩
  · rw [heq]
    exact OwnPointer.salRegister h.releaseOp sent
  · rw [heq]
    exact OwnPointer.unregister (s := s.setState state) h sent

theorem OwnPointer.update (h : s.OwnPointer) (sent : Bool) : (s.update sent).OwnPointer := by
  unfold Registration.update
  by_cases hcommit : s.cfg.commit = true
  · rw [if_pos hcommit]
    exact h.register sent
  · rw [if_neg hcommit]
    exact h

theorem OwnPointer.edit (h : s.OwnPointer) : s.edit.OwnPointer := by
  have hstored : ({ s with
      cfg := { s.cfg with saved := s.cfg.reg }, editing := true } : Registration).OwnPointer := h
  unfold Registration.edit
  dsimp only
  split
  · exact hstored.modifyOp _ fun _ => rfl
  · exact hstored

theorem OwnPointer.leaveServer (h : s.OwnPointer) (sent : Bool) :
    (s.leaveServer sent).OwnPointer := by
  rcases leaveServer_cases s sent with ⟨heq, -⟩ | ⟨i, s', hop, hs', heq⟩
  · rw [heq]
    exact h
  · rw [heq]
    rcases hs' with rfl | ⟨-, rfl⟩
    · have hop' : (s.unregister sent).cfg.op = some i := by rw [cfg_unregister, hop]
      exact ownPointer_of_none rfl ((h.unregister sent).letGo hop' fun _ => rfl)
    · exact ownPointer_of_none rfl (h.letGo hop fun _ => rfl)

theorem OwnPointer.done (h : s.OwnPointer) (sent : Bool) : (s.done sent).OwnPointer := by
  unfold Registration.done
  by_cases hcheck : s.check = true
  · rw [if_pos hcheck]
    exact h.leaveServer sent
  · rw [if_neg hcheck]
    exact h

theorem OwnPointer.remove (h : s.OwnPointer) (sent : Bool) : (s.remove sent).OwnPointer := by
  unfold Registration.remove
  by_cases hok : s.cfg.state = .ok
  · simp only [hok, if_true]
    have hedit : ({ s with removed := true } : Registration).edit.OwnPointer :=
      OwnPointer.edit (s := { s with removed := true }) h
    have hdisabled :
        (({ s with removed := true } : Registration).edit.enableRegister false).OwnPointer := hedit
    exact (hdisabled.done sent).update sent
  · simp only [hok, if_false]
    exact h

theorem OwnPointer.refreshRegister (h : s.OwnPointer) (sent : Bool) :
    (s.refreshRegister sent).OwnPointer := by
  rcases refreshRegister_cases s sent with heq | ⟨i, _, _, _, _, _, _, heq⟩
  · rw [heq]
    exact h
  · rw [heq]
    exact h.send i s.cfg.expires

theorem OwnPointer.refresherFires (h : s.OwnPointer) : s.refresherFires.OwnPointer := by
  rcases refresherFires_cases s with heq | ⟨i, _, r, _, _, _, _, heq⟩
  · rw [heq]
    exact h
  · rw [heq]
    exact h.send i r.expires

theorem OwnPointer.authenticate (h : s.OwnPointer) (sent : Bool) :
    (s.authenticate sent).OwnPointer := by
  obtain ⟨state, heq | ⟨i, _, r, _, _, _, _, heq⟩⟩ := authenticate_cases s sent
  · rw [heq]
    exact h
  · rw [heq]
    exact OwnPointer.send (s := s.setState state) h i r.expires

theorem OwnPointer.response (h : s.OwnPointer) (i : Nat) (answer : RegisterAnswer) :
    (s.response i answer).OwnPointer := by
  rcases response_cases s i answer with heq | ⟨op, r, state, _, _, _, heq, _⟩
  · rw [heq]
    exact h
  · rw [heq]
    exact OwnPointer.modifyOp h i fun _ => RegisterOp.userPointer_answered r answer

/-- **The pointers are kept by each event.** -/
theorem OwnPointer.step (h : s.OwnPointer) (event : ProxyEvent) : (s.step event).OwnPointer := by
  cases event with
  | edit => exact h.edit
  | setServerAddr proxy => exact h
  | setIdentity identity => exact h
  | enableRegister val => exact h
  | setExpires expires => exact h
  | done sent => exact h.done sent
  | update sent => exact h.update sent
  | refreshRegister sent => exact h.refreshRegister sent
  | remove sent => exact h.remove sent
  | releaseOps => exact ownPointer_of_none rfl h.releaseOp
  | refresherFires => exact h.refresherFires
  | authenticate sent => exact h.authenticate sent
  | response i answer => exact h.response i answer

theorem OwnPointer.run (h : s.OwnPointer) (events : List ProxyEvent) :
    (s.run events).OwnPointer := by
  induction events generalizing s with
  | nil => exact h
  | cons event events ih => exact ih (h.step event)

/-- **A response to another operation than the one the proxy config has changes nothing of it.** -/
theorem OwnPointer.cfg_response (h : s.OwnPointer) {i : Nat} (hother : s.cfg.op ≠ some i)
    (answer : RegisterAnswer) : (s.response i answer).cfg = s.cfg := by
  rcases response_cases s i answer with heq | ⟨op, r, state, hi, _, _, heq, hstate⟩
  · rw [heq]
  · have hpointer : op.userPointer = false :=
      Bool.eq_false_iff.mpr fun hpointer => hother ((h i op hi).mp hpointer)
    rw [heq, hstate hpointer]
    rfl

end Registration

end Linphone
