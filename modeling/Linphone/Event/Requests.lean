import Linphone.Chat.Incoming
import Linphone.Chat.Rooms
import Linphone.Event.Event
import Linphone.Sal.CallOp

/-!
# Incoming SUBSCRIBE and NOTIFY

The requests of the presence, generic event and refer packages: `presence_process_request_event`
(`bellesip_sal/sal_op_presence.c`) with `linphone_subscription_new` (`coreapi/presence.c`),
`subscribe_process_request_event` (`bellesip_sal/sal_op_events.c`) with the answer that an
application gives through the event (`coreapi/event.c`), and `sal_op_call_process_notify`
(`bellesip_sal/sal_op_call_transfer.c`), as `process_request_event` of `bellesip_sal/sal_impl.c` and
of `bellesip_sal/sal_op_call.c` get to them.

`subscribe_answered_iff`: a request has one final response, and leaves no earlier one unanswered,
when it is `Answerable`.
-/

namespace Linphone

/-! ## Requests -/

inductive SubscribeMethod
  | subscribe | notify
deriving DecidableEq

/-- A SUBSCRIBE or a NOTIFY, with any of its headers. -/
structure SubscribeRequest where
  method : SubscribeMethod
  event : Option (List Char) := none
  expires : Option Int := none
  subscriptionState : Option String := none
  contentType : Option ContentType := none
  contentLength : Option Nat := none
  body : Option String := none

/-- What is taken from belle-sip and libxml2. -/
structure SubscribeLib where
  /-- `belle_sip_message_add_header` goes on when it is given no header. -/
  addsNullHeader : Bool
  /-- The status code of the response in a body: `belle_sip_message_parse`. -/
  parseSipfrag : String → Option Nat
  /-- A body is a presence document: `process_pidf_xml_presence_notification`. -/
  parsePidf : String → Bool

/-- `LinphoneSubscribePolicy` -/
inductive LinphoneSubscribePolicy
  | wait | deny | accept
deriving DecidableEq

structure LinphoneFriend where
  uri : LinphoneAddress
  pol : LinphoneSubscribePolicy := .accept
  incSubscribePending : Bool := false

/-- The lists of the core. -/
structure FriendCore where
  friends : List LinphoneFriend := []
  subscribers : List LinphoneFriend := []

/-- An operation of one of the packages. -/
structure SubscribeOp where
  dialog : Option DialogState := none
  /-- The state of the event that the operation points to. -/
  lev : Option LinphoneSubscriptionState := none
  /-- The final responses to the pending server transaction. -/
  responses : List Nat := []

namespace SubscribeOp

variable (op : SubscribeOp)

/-- A new pending server transaction. -/
def received : SubscribeOp := { op with responses := [] }

/-- `belle_sip_server_transaction_send_response` -/
def respond (code : Nat) : SubscribeOp := { op with responses := op.responses ++ [code] }

end SubscribeOp

section

variable (lib : SubscribeLib) (req : SubscribeRequest)

/-- `sal_subscribe_accept`: the header Expires of the request is added to the response, there or
not. -/
def salSubscribeAccept (op : SubscribeOp) : Option SubscribeOp :=
  if req.expires.isSome || lib.addsNullHeader then some (op.respond 200) else none

/-- `sal_subscribe_decline` -/
def salSubscribeDecline (reason : SalReason) (op : SubscribeOp) : SubscribeOp :=
  op.respond reason.toSipCode

/-! ## Presence -/

/-- `linphone_find_friend_by_address` -/
def findFriendByAddress (fl : List LinphoneFriend) (addr : LinphoneAddress) :
    Option LinphoneFriend :=
  fl.find? fun lf => lf.uri.WeakEqual addr

/-- `linphone_core_add_subscriber` -/
def addSubscriber (subscriber : LinphoneAddress) (core : FriendCore) : FriendCore :=
  { core with
    subscribers := core.subscribers ++
      [{ uri := subscriber, pol := .accept, incSubscribePending := true }] }

/-- The friend with this address has subscribed. -/
def subscriptionPending (addr : LinphoneAddress) (core : FriendCore) : FriendCore :=
  { core with
    friends := core.friends.map fun lf =>
      if lf.uri.WeakEqual addr then { lf with incSubscribePending := true } else lf }

/-- `linphone_subscription_new` -/
def subscriptionNew (peer : LinphoneAddress) (core : FriendCore) (op : SubscribeOp) :
    Option (FriendCore × SubscribeOp) :=
  let uri := peer.clean
  match findFriendByAddress core.friends uri with
  | some _ => (salSubscribeAccept lib req op).map fun op => (subscriptionPending uri core, op)
  | none =>
      match findFriendByAddress core.subscribers uri with
      | some lf =>
          if lf.pol = .deny then some (core, salSubscribeDecline .declined op) else some (core, op)
      | none => (salSubscribeAccept lib req op).map fun op => (addSubscriber uri core, op)

/-- `linphone_notify_parse_presence` -/
def notifyParsePresence (contentType : ContentType) (body : String) : Bool :=
  contentType.type = "application" && contentType.subtype = "pidf+xml" && lib.parsePidf body

/-- `process_presence_notification`: there is a model. -/
def processPresenceNotification : Bool :=
  match req.contentType, req.contentLength, req.body with
  | some contentType, some length, some body =>
      length ≠ 0 && notifyParsePresence lib contentType body
  | _, _, _ => false

/-- `handle_notify` of the presence package -/
def handlePresenceNotify (op : SubscribeOp) : SubscribeOp :=
  if processPresenceNotification lib req || req.body.isNone then op.respond 200
  else op.respond 488

/-- `presence_process_request_event` -/
def presenceProcessRequestEvent (peer : LinphoneAddress) (core : FriendCore) (op : SubscribeOp) :
    Option (FriendCore × SubscribeOp) :=
  let op := op.received
  let inDialog (state : DialogState) (op : SubscribeOp) : Option (FriendCore × SubscribeOp) :=
    match state with
    | .null => subscriptionNew lib req peer core op
    | .early => some (core, op)
    | .confirmed =>
        match req.method with
        | .notify => some (core, handlePresenceNotify lib req op)
        | .subscribe =>
            -- either a refresh or an unsubscribe
            match req.expires with
            | some expires =>
                if expires > 0 then subscriptionNew lib req peer core op
                else some (core, op.respond 200)
            | none => some (core, op)
    | .terminated => some (core, op)
  match op.dialog with
  | some state => inDialog state op
  | none =>
      match req.method with
      | .subscribe => inDialog .null { op with dialog := some .null }
      | .notify => some (core, handlePresenceNotify lib req op)

/-! ## Generic events -/

/-- `get_subscription_state` is not used here: anything but `terminated` is active. -/
def notifyStatus : LinphoneSubscriptionState :=
  match req.subscriptionState with
  | some state => if state.toLower = "terminated" then .terminated else .active
  | none => .terminated

/-- `handle_notify` of the generic package, with `notify` -/
def handleEventNotify (op : SubscribeOp) : SubscribeOp :=
  { op with lev := some (notifyStatus req) }.respond 200

/-- `subscribe_received` -/
def subscribeReceivedUpcall (op : SubscribeOp) : SubscribeOp :=
  match op.lev with
  | none => { op with lev := some .incomingReceived }
  | some _ => op

/-- `subscribe_closed` -/
def subscribeClosedUpcall (op : SubscribeOp) : Option SubscribeOp :=
  match op.lev with
  | none => none
  | some _ => some { op with lev := some .terminated }

/-- `subscribe_process_request_event` -/
def subscribeProcessRequestEvent (op : SubscribeOp) : Option SubscribeOp :=
  let op := op.received
  let inDialog (state : DialogState) (op : SubscribeOp) : Option SubscribeOp :=
    match state with
    | .null => some (subscribeReceivedUpcall op)
    | .early => some op
    | .confirmed =>
        match req.method with
        | .notify => some (handleEventNotify req op)
        | .subscribe =>
            -- either a refresh or an unsubscribe
            match req.expires with
            | some expires =>
                if expires > 0 then some (op.respond 200)
                else subscribeClosedUpcall (op.respond 200)
            | none => some op
    | .terminated => some op
  match req.event with
  | none => some (op.respond 400)
  | some _ =>
      match op.dialog with
      | some state => inDialog state op
      | none =>
          match req.method with
          | .subscribe => inDialog .null { op with dialog := some .null }
          | .notify => some (handleEventNotify req op)

/-- What an application does with an event. -/
inductive EventCall
  /-- `linphone_event_accept_subscription` -/
  | accept
  /-- `linphone_event_deny_subscription` -/
  | deny (reason : LinphoneReason)
  /-- `linphone_event_terminate` -/
  | terminate
deriving DecidableEq

def applyEventCall (op : SubscribeOp) : EventCall → Option SubscribeOp
  | .accept =>
      if op.lev ≠ some .incomingReceived then some op
      else (salSubscribeAccept lib req op).map fun op => { op with lev := some .active }
  | .deny reason =>
      if op.lev ≠ some .incomingReceived then some op
      else some { salSubscribeDecline reason.toSal op with lev := some .terminated }
  | .terminate =>
      if op.lev = none ∨ op.lev = some .none then some op
      else some { op with lev := some .terminated }

/-- The calls that follow a request. -/
def applyEventCalls (op : SubscribeOp) (calls : List EventCall) : Option SubscribeOp :=
  calls.foldlM (fun op call => applyEventCall lib req op call) op

/-! ## Transfers -/

/-- A NOTIFY of the refer package with a sipfrag. -/
def SubscribeRequest.isReferSipfrag : Bool :=
  match req.event, req.contentType with
  | some event, some contentType =>
      (event.take 5).map Char.toLower = "refer".toList && contentType.type = "message" &&
        contentType.subtype = "sipfrag"
  | _, _ => false

/-- `sal_op_call_process_notify` -/
def callProcessNotify (op : SubscribeOp) : SubscribeOp :=
  match req.body with
  | some body =>
      if req.isReferSipfrag then
        match lib.parseSipfrag body with
        | some _ => op.respond 200
        | none => op
      else op.respond 501
  | none => op.respond 501

/-- `process_request_event` of a call -/
def callProcessRequestEvent (state : DialogState) (op : SubscribeOp) : SubscribeOp :=
  let op := op.received
  match state with
  | .null | .early => op.respond 501
  | .confirmed =>
      match req.method with
      | .notify => callProcessNotify lib req op
      | .subscribe => op.respond 501
  | .terminated => op

/-! ## Dispatch -/

/-- Where a request goes: to a new operation when it is out of dialog, or to the one of its dialog.
-/
inductive RequestTarget
  | outOfDialog
  /-- The dialog has no operation, or one that was terminated. -/
  | terminatedOp
  | presence (op : SubscribeOp)
  | event (op : SubscribeOp)
  | call (state : DialogState)

/-- A request and its surroundings: where it goes, the peer of the operation, the lists of the core
and what the application will do with the event. -/
structure SubscribeArrival where
  target : RequestTarget
  peer : LinphoneAddress
  core : FriendCore := {}
  calls : List EventCall := []

/-- The package of an event. -/
def isPresence (event : List Char) : Bool := "presence".toList.isPrefixOf event

/-- The final responses when the calls of the application were made. -/
def finalResponses (calls : List EventCall) (op : Option SubscribeOp) : Option (List Nat) :=
  (op.bind fun op => applyEventCalls lib req op calls).map fun op => op.responses

/-- The final responses of a generic request: those of its handler, and the one that the application
gives. -/
def eventResponses (arrival : SubscribeArrival) (op : SubscribeOp) : Option (List Nat) :=
  finalResponses lib req arrival.calls (subscribeProcessRequestEvent req op)

def presenceResponses (arrival : SubscribeArrival) (op : SubscribeOp) : Option (List Nat) :=
  (presenceProcessRequestEvent lib req arrival.peer arrival.core op).map fun r => r.2.responses

/-- `process_request_event` of the stack: the final responses of a request, unless the run is
undefined. -/
def processSubscribeRequest (arrival : SubscribeArrival) : Option (List Nat) :=
  match arrival.target with
  | .terminatedOp => some []
  | .outOfDialog =>
      match req.event with
      | some event =>
          if isPresence event then presenceResponses lib req arrival {}
          else eventResponses lib req arrival {}
      | none => some [405]
  | .presence op => presenceResponses lib req arrival op
  | .event op => eventResponses lib req arrival op
  | .call state => some (callProcessRequestEvent lib req state {}).responses

end

/-! ## Answered requests -/

/-- A subscription still waits for the answer of the application. Its server transaction is lost
with the next request. -/
def RequestTarget.Awaits : RequestTarget → Prop
  | .event op => op.lev = some .incomingReceived
  | _ => False

/-- One response, which is final. -/
def AnsweredOnce (responses : Option (List Nat)) : Prop :=
  ∃ code, responses = some [code] ∧ 200 ≤ code

/-- A request has exactly one final response, and no earlier one is left without. -/
def RequestAnswered (target : RequestTarget) (responses : Option (List Nat)) : Prop :=
  AnsweredOnce responses ∧ ¬ target.Awaits

section

variable (lib : SubscribeLib) (req : SubscribeRequest)

/-- An accepted request has Expires, which is copied. -/
def AcceptsRequest : Prop := req.expires.isSome ∨ lib.addsNullHeader = true

/-- The policy for a subscriber decides: it is a friend or unknown, and accepted, or it was
rejected before. -/
def PolicyDecides (peer : LinphoneAddress) (core : FriendCore) : Prop :=
  match findFriendByAddress core.friends peer.clean,
    findFriendByAddress core.subscribers peer.clean with
  | none, some lf => lf.pol = .deny
  | _, _ => AcceptsRequest lib req

/-- The first thing that an application does with the event is to answer. -/
def ApplicationDecides (calls : List EventCall) : Prop :=
  match calls.head? with
  | some .accept => AcceptsRequest lib req
  | some (.deny _) => True
  | _ => False

/-- A request of the presence package is answered: in a confirmed dialog every NOTIFY and every
unsubscription, and a subscription where the policy decides. -/
def PresenceAnswerable (arrival : SubscribeArrival) (op : SubscribeOp) : Prop :=
  match op.dialog, req.method with
  | none, .notify => True
  | none, .subscribe | some .null, _ => PolicyDecides lib req arrival.peer arrival.core
  | some .confirmed, .notify => True
  | some .confirmed, .subscribe =>
      ∃ expires, req.expires = some expires ∧
        (0 < expires → PolicyDecides lib req arrival.peer arrival.core)
  | some .early, _ | some .terminated, _ => False

/-- A generic request is answered: without Event always, in a confirmed dialog every NOTIFY and
every subscription with Expires, and a new subscription when the application decides. -/
def EventAnswerable (arrival : SubscribeArrival) (op : SubscribeOp) : Prop :=
  op.lev ≠ some .incomingReceived ∧
    (req.event.isSome →
      match op.dialog, req.method with
      | none, .notify => True
      | none, .subscribe | some .null, _ =>
          op.lev = none ∧ ApplicationDecides lib req arrival.calls
      | some .confirmed, .notify => True
      | some .confirmed, .subscribe =>
          ∃ expires, req.expires = some expires ∧ (expires ≤ 0 → op.lev.isSome)
      | some .early, _ | some .terminated, _ => False)

/-- A request in the dialog of a call is answered, unless that dialog has ended, or a sipfrag cannot
be parsed. -/
def CallAnswerable (state : DialogState) : Prop :=
  state ≠ .terminated ∧
    (state = .confirmed → req.method = .notify → req.isReferSipfrag = true →
      ∀ body, req.body = some body → (lib.parseSipfrag body).isSome)

/-- The requests that are answered. -/
def Answerable (arrival : SubscribeArrival) : Prop :=
  match arrival.target with
  | .terminatedOp => False
  | .outOfDialog =>
      ∀ event, req.event = some event →
        if isPresence event then PresenceAnswerable lib req arrival {}
        else EventAnswerable lib req arrival {}
  | .presence op => PresenceAnswerable lib req arrival op
  | .event op => EventAnswerable lib req arrival op
  | .call state => CallAnswerable lib req state

/-! ## The packages -/

variable {lib req}

theorem answeredOnce_one {code : Nat} (hfinal : 200 ≤ code) : AnsweredOnce (some [code]) :=
  ⟨code, rfl, hfinal⟩

theorem not_answeredOnce_nil : ¬ AnsweredOnce (some []) := by
  rintro ⟨code, hcode, _⟩
  simp at hcode

theorem not_answeredOnce_none : ¬ AnsweredOnce none := by
  rintro ⟨code, hcode, _⟩
  simp at hcode

variable (lib req) in
theorem salSubscribeAccept_cases (op : SubscribeOp) :
    AcceptsRequest lib req ∧ salSubscribeAccept lib req op = some (op.respond 200) ∨
      ¬ AcceptsRequest lib req ∧ salSubscribeAccept lib req op = none := by
  unfold AcceptsRequest salSubscribeAccept
  rw [← Bool.or_eq_true]
  by_cases haccepts : (req.expires.isSome || lib.addsNullHeader) = true
  · exact Or.inl ⟨haccepts, if_pos haccepts⟩
  · exact Or.inr ⟨haccepts, if_neg haccepts⟩

/-- An acceptance is the answer when there was none before. -/
theorem acceptance_answered_iff {op : SubscribeOp} (hnew : op.responses = []) {α : Type}
    (f : SubscribeOp → α) (responses : α → List Nat)
    (hresponses : ∀ op, responses (f op) = op.responses) :
    AnsweredOnce (((salSubscribeAccept lib req op).map f).map responses) ↔
      AcceptsRequest lib req := by
  rcases salSubscribeAccept_cases lib req op with ⟨haccepts, heq⟩ | ⟨haccepts, heq⟩
  · rw [heq, Option.map_some, Option.map_some, hresponses, SubscribeOp.respond, hnew]
    exact ⟨fun _ => haccepts, fun _ => answeredOnce_one (Nat.le_refl 200)⟩
  · rw [heq]
    exact ⟨fun hanswered => absurd hanswered not_answeredOnce_none,
      fun haccepts' => absurd haccepts' haccepts⟩

theorem subscriptionNew_iff (peer : LinphoneAddress) (core : FriendCore) {op : SubscribeOp}
    (hnew : op.responses = []) :
    AnsweredOnce ((subscriptionNew lib req peer core op).map fun r => r.2.responses) ↔
      PolicyDecides lib req peer core := by
  unfold subscriptionNew PolicyDecides
  dsimp only
  cases findFriendByAddress core.friends peer.clean with
  | some lf => exact acceptance_answered_iff hnew _ _ fun _ => rfl
  | none =>
      cases findFriendByAddress core.subscribers peer.clean with
      | none => exact acceptance_answered_iff hnew _ _ fun _ => rfl
      | some lf =>
          by_cases hdeny : lf.pol = .deny
          · simp only [hdeny, if_true, Option.map_some, iff_true, salSubscribeDecline,
              SubscribeOp.respond, hnew, List.nil_append]
            exact answeredOnce_one (two_hundred_le_toSipCode _)
          · simp only [hdeny, if_false, Option.map_some, iff_false, hnew]
            exact not_answeredOnce_nil

theorem respond_answered {op : SubscribeOp} (hnew : op.responses = []) {code : Nat}
    (hfinal : 200 ≤ code) : AnsweredOnce (some (op.respond code).responses) := by
  rw [SubscribeOp.respond, hnew]
  exact answeredOnce_one hfinal

theorem not_answered {op : SubscribeOp} (hnew : op.responses = []) :
    ¬ AnsweredOnce (some op.responses) := by
  rw [hnew]
  exact not_answeredOnce_nil

theorem presenceNotify_answered {op : SubscribeOp} (hnew : op.responses = []) :
    AnsweredOnce (some (handlePresenceNotify lib req op).responses) := by
  unfold handlePresenceNotify
  split
  · exact respond_answered hnew (by decide)
  · exact respond_answered hnew (by decide)

theorem presence_answered_iff (arrival : SubscribeArrival) (op : SubscribeOp) :
    AnsweredOnce (presenceResponses lib req arrival op) ↔
      PresenceAnswerable lib req arrival op := by
  have hnew : op.received.responses = [] := rfl
  unfold presenceResponses presenceProcessRequestEvent PresenceAnswerable
  simp only [SubscribeOp.received]
  cases op.dialog with
  | none =>
      cases req.method with
      | notify => exact iff_of_true (presenceNotify_answered rfl) trivial
      | subscribe => exact subscriptionNew_iff _ _ rfl
  | some state =>
      cases state with
      | null => exact subscriptionNew_iff _ _ rfl
      | early => exact iff_of_false not_answeredOnce_nil id
      | terminated => exact iff_of_false not_answeredOnce_nil id
      | confirmed =>
          cases req.method with
          | notify => exact iff_of_true (presenceNotify_answered rfl) trivial
          | subscribe =>
              cases req.expires with
              | none => exact iff_of_false not_answeredOnce_nil (by simp)
              | some expires =>
                  by_cases hpositive : expires > 0
                  · simp only [hpositive, if_true]
                    rw [subscriptionNew_iff _ _ rfl]
                    exact ⟨fun hdecides => ⟨expires, rfl, fun _ => hdecides⟩,
                      fun ⟨_, heq, hdecides⟩ => hdecides (Option.some.inj heq ▸ hpositive)⟩
                  · simp only [hpositive, if_false]
                    exact iff_of_true (respond_answered rfl (by decide))
                      ⟨expires, rfl, fun hlt => absurd hlt hpositive⟩

/-- The application has no say once the subscription is not waiting. -/
theorem applyEventCalls_settled (calls : List EventCall) {op : SubscribeOp}
    (hsettled : op.lev ≠ some .incomingReceived) :
    (applyEventCalls lib req op calls).map (fun op => op.responses) = some op.responses := by
  induction calls generalizing op with
  | nil => rfl
  | cons call rest ih =>
      have hstep : ∃ op', applyEventCall lib req op call = some op' ∧
          op'.responses = op.responses ∧ op'.lev ≠ some .incomingReceived := by
        cases call with
        | accept => exact ⟨op, if_pos hsettled, rfl, hsettled⟩
        | deny reason => exact ⟨op, if_pos hsettled, rfl, hsettled⟩
        | terminate =>
            by_cases hunset : op.lev = none ∨ op.lev = some .none
            · exact ⟨op, if_pos hunset, rfl, hsettled⟩
            · exact ⟨_, if_neg hunset, rfl, by simp⟩
      obtain ⟨op', hcall, hresponses, hsettled'⟩ := hstep
      have hrest : applyEventCalls lib req op (call :: rest) =
        applyEventCalls lib req op' rest := by
        simp only [applyEventCalls, List.foldlM_cons, hcall, Option.bind_eq_bind, Option.bind_some]
      rw [hrest, ih hsettled', hresponses]

/-- The first call on a waiting subscription settles it. -/
theorem applyEventCalls_waiting_iff (calls : List EventCall) {op : SubscribeOp}
    (hnew : op.responses = []) (hwaiting : op.lev = some .incomingReceived) :
    AnsweredOnce ((applyEventCalls lib req op calls).map fun op => op.responses) ↔
      ApplicationDecides lib req calls := by
  unfold ApplicationDecides
  cases calls with
  | nil => exact iff_of_false (not_answered hnew) id
  | cons call rest =>
      have hrest : applyEventCalls lib req op (call :: rest) =
          (applyEventCall lib req op call).bind fun op => applyEventCalls lib req op rest := rfl
      rw [hrest]
      cases call with
      | accept =>
          simp only [applyEventCall, hwaiting, ne_eq, not_true_eq_false, if_false, List.head?_cons]
          rcases salSubscribeAccept_cases lib req op with
            ⟨haccepts, heq⟩ | ⟨haccepts, heq⟩
          · rw [heq, Option.map_some, Option.bind_some, applyEventCalls_settled rest (by simp)]
            exact iff_of_true (respond_answered hnew (Nat.le_refl 200)) haccepts
          · rw [heq]
            exact iff_of_false not_answeredOnce_none haccepts
      | deny reason =>
          simp only [applyEventCall, hwaiting, ne_eq, not_true_eq_false, if_false, List.head?_cons,
            Option.bind_some]
          rw [applyEventCalls_settled rest (by simp)]
          exact iff_of_true (respond_answered hnew (two_hundred_le_toSipCode _)) trivial
      | terminate =>
          have hcall : applyEventCall lib req op .terminate =
              some { op with lev := some .terminated } := by
            simp [applyEventCall, hwaiting]
          rw [hcall, Option.bind_some, applyEventCalls_settled rest (by simp)]
          exact iff_of_false (not_answered hnew) id

theorem finalResponses_settled (calls : List EventCall) {op : SubscribeOp}
    (hsettled : op.lev ≠ some .incomingReceived) :
    finalResponses lib req calls (some op) = some op.responses :=
  applyEventCalls_settled calls hsettled

/-- A subscription is handed to the application, unless there is an event already. -/
theorem subscription_answered_iff (calls : List EventCall) {op : SubscribeOp}
    (hnew : op.responses = []) (hsettled : op.lev ≠ some .incomingReceived) :
    AnsweredOnce (finalResponses lib req calls (some (subscribeReceivedUpcall op))) ↔
      op.lev = none ∧ ApplicationDecides lib req calls := by
  unfold subscribeReceivedUpcall
  cases hlev : op.lev with
  | none =>
      simp only [true_and]
      exact applyEventCalls_waiting_iff calls hnew rfl
  | some state =>
      dsimp only
      rw [finalResponses_settled calls hsettled]
      exact iff_of_false (not_answered hnew) (by simp)

theorem notifyStatus_settled : notifyStatus req ≠ .incomingReceived := by
  unfold notifyStatus
  cases req.subscriptionState with
  | none => simp
  | some state => dsimp only; split <;> simp

theorem event_answered_iff (arrival : SubscribeArrival) (op : SubscribeOp) :
    AnsweredOnce (eventResponses lib req arrival op) ∧ op.lev ≠ some .incomingReceived ↔
      EventAnswerable lib req arrival op := by
  unfold EventAnswerable
  rw [and_comm]
  refine and_congr_right fun hsettled => ?_
  have hanswer : ∀ (op' : SubscribeOp) (code : Nat), op'.responses = [] → 200 ≤ code →
      op'.lev ≠ some .incomingReceived →
      AnsweredOnce (finalResponses lib req arrival.calls (some (op'.respond code))) := by
    intro op' code hnew hfinal hsettled'
    have hresponses : finalResponses lib req arrival.calls (some (op'.respond code)) =
        some (op'.respond code).responses := finalResponses_settled arrival.calls hsettled'
    rw [hresponses]
    exact respond_answered hnew hfinal
  have hsilent : ∀ op' : SubscribeOp, op'.responses = [] → op'.lev ≠ some .incomingReceived →
      ¬ AnsweredOnce (finalResponses lib req arrival.calls (some op')) := by
    intro op' hnew hsettled'
    rw [finalResponses_settled arrival.calls hsettled']
    exact not_answered hnew
  unfold eventResponses subscribeProcessRequestEvent
  cases req.event with
  | none => exact iff_of_true (hanswer op.received 400 rfl (by decide) hsettled) (by simp)
  | some event =>
      simp only [SubscribeOp.received, Option.isSome_some, true_imp_iff]
      cases op.dialog with
      | none =>
          cases req.method with
          | notify =>
              exact iff_of_true (hanswer _ 200 rfl (by decide)
                (by simpa using notifyStatus_settled)) trivial
          | subscribe => exact subscription_answered_iff _ rfl hsettled
      | some state =>
          cases state with
          | null => exact subscription_answered_iff _ rfl hsettled
          | early => exact iff_of_false (hsilent _ rfl hsettled) id
          | terminated => exact iff_of_false (hsilent _ rfl hsettled) id
          | confirmed =>
              cases req.method with
              | notify =>
                  exact iff_of_true (hanswer _ 200 rfl (by decide)
                    (by simpa using notifyStatus_settled)) trivial
              | subscribe =>
                  cases req.expires with
                  | none => exact iff_of_false (hsilent _ rfl hsettled) (by simp)
                  | some expires =>
                      by_cases hpositive : expires > 0
                      · simp only [hpositive, if_true]
                        exact iff_of_true (hanswer _ 200 rfl (by decide) hsettled)
                          ⟨expires, rfl, fun hle => absurd hpositive (by omega)⟩
                      · simp only [hpositive, if_false, SubscribeOp.respond, subscribeClosedUpcall]
                        cases op.lev with
                        | none =>
                            refine iff_of_false not_answeredOnce_none ?_
                            rintro ⟨_, heq, hevent⟩
                            have hle : expires ≤ 0 := by omega
                            exact absurd (hevent (Option.some.inj heq ▸ hle)) (by simp)
                        | some state =>
                            dsimp only
                            rw [finalResponses_settled arrival.calls (by simp)]
                            exact iff_of_true (answeredOnce_one (Nat.le_refl 200))
                              ⟨expires, rfl, fun _ => rfl⟩

theorem call_answered_iff (state : DialogState) (op : SubscribeOp) :
    AnsweredOnce (some (callProcessRequestEvent lib req state op).responses) ↔
      CallAnswerable lib req state := by
  unfold callProcessRequestEvent CallAnswerable
  cases state with
  | null => exact iff_of_true (respond_answered rfl (by decide)) (by simp)
  | early => exact iff_of_true (respond_answered rfl (by decide)) (by simp)
  | terminated => exact iff_of_false (not_answered rfl) (by simp)
  | confirmed =>
      cases hmethod : req.method with
      | subscribe => exact iff_of_true (respond_answered rfl (by decide)) (by simp)
      | notify =>
          simp only [ne_eq, reduceCtorEq, not_false_eq_true, true_and, true_imp_iff]
          unfold callProcessNotify
          cases req.body with
          | none => exact iff_of_true (respond_answered rfl (by decide)) (by simp)
          | some body =>
              by_cases hsipfrag : req.isReferSipfrag = true
              · cases hparse : lib.parseSipfrag body with
                | some code =>
                    simp only [hsipfrag, if_true, hparse]
                    exact iff_of_true (respond_answered rfl (by decide)) (by simp [hparse])
                | none =>
                    simp only [hsipfrag, if_true, hparse]
                    exact iff_of_false (not_answered rfl) (by simp [hparse])
              · simp only [hsipfrag]
                exact iff_of_true (respond_answered rfl (by decide)) (by simp)

/-- **A request is answered exactly once, and leaves no earlier one unanswered, exactly when it is
answerable.** -/
theorem subscribe_answered_iff (lib : SubscribeLib) (req : SubscribeRequest)
    (arrival : SubscribeArrival) :
    RequestAnswered arrival.target (processSubscribeRequest lib req arrival) ↔
      Answerable lib req arrival := by
  unfold RequestAnswered processSubscribeRequest Answerable
  cases arrival.target with
  | terminatedOp => exact iff_of_false (fun h => not_answeredOnce_nil h.1) id
  | presence op => exact (and_iff_left id).trans (presence_answered_iff arrival op)
  | event op => exact event_answered_iff arrival op
  | call state => exact (and_iff_left id).trans (call_answered_iff state {})
  | outOfDialog =>
      refine (and_iff_left id).trans ?_
      cases req.event with
      | none => exact iff_of_true (answeredOnce_one (by decide)) (by simp)
      | some event =>
          by_cases hpresence : isPresence event = true
          · simp only [hpresence, if_true, Option.some.injEq, forall_eq']
            exact presence_answered_iff arrival {}
          · simp only [hpresence, Option.some.injEq, forall_eq']
            exact (and_iff_left (by simp)).symm.trans (event_answered_iff arrival {})

end

/-! ## A subscription that is refreshed -/

/-- The address of a peer who is no friend. -/
def subscriberAddress : LinphoneAddress where
  uri := .sip { user := some "bob", host := some "example.org" }

/-- A SUBSCRIBE of the presence package for an hour. -/
def presenceSubscribe : SubscribeRequest where
  method := .subscribe
  event := some "presence".toList
  expires := some 3600

/-- Nothing is parsed, and nothing is added that is not there. -/
def strictLib : SubscribeLib where
  addsNullHeader := false
  parseSipfrag := fun _ => none
  parsePidf := fun _ => false

/-- The peer subscribes, is accepted, and refreshes the subscription: he is found among the
subscribers then, and not answered. -/
theorem refresh_unanswered :
    ∃ core, presenceProcessRequestEvent strictLib presenceSubscribe subscriberAddress {} {} =
        some (core, { dialog := some .null, responses := [200] }) ∧
      ¬ RequestAnswered (.presence { dialog := some .confirmed, responses := [200] })
        (processSubscribeRequest strictLib presenceSubscribe
          { target := .presence { dialog := some .confirmed, responses := [200] }
            peer := subscriberAddress
            core := core }) := by
  refine ⟨addSubscriber subscriberAddress.clean {}, rfl, ?_⟩
  rintro ⟨hanswered, _⟩
  exact not_answeredOnce_nil hanswered

end Linphone
