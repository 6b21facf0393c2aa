import Mathlib.Tactic.Common

/-!
# Subscriptions and publications

A `LinphoneEvent` and the SIP operation that it is attached to (`coreapi/event.c` and the event
callbacks of `coreapi/callbacks.c`). The functions that change a state notify the application in
the middle, and the application may call any function of the event from there: what a function
still does after a notification is a frame of a stack, and the step `ret` is its end.

The operation outlives the event, with `NULL` as its user pointer then. Next to the fields of the
source: the references of the application, how often the core released its own, and whether the
subscription left the state Terminated.
-/

namespace Linphone

/-! ## Data -/

inductive LinphoneSubscriptionDir
  | incoming | outgoing | invalidDir
deriving DecidableEq

inductive LinphoneSubscriptionState
  | none | outgoingProgress | incomingReceived | pending | active | terminated | error | expiring
deriving DecidableEq

inductive LinphonePublishState
  | none | progress | ok | error | expiring | cleared
deriving DecidableEq

inductive SalSubscribeStatus
  | none | pending | active | terminated
deriving DecidableEq

/-- `linphone_subscription_state_from_sal` -/
def linphoneSubscriptionStateFromSal : SalSubscribeStatus → LinphoneSubscriptionState
  | .none => .none
  | .pending => .pending
  | .terminated => .terminated
  | .active => .active

structure LinphoneEvent where
  dir : LinphoneSubscriptionDir
  expires : Int := 0
  subscriptionState : LinphoneSubscriptionState := .none
  publishState : LinphonePublishState := .none
  refcnt : Int := 1
  terminating : Bool := false
  /-- The references of the application. -/
  appRefs : Nat := 0
  /-- How often the core released its own. -/
  released : Nat := 0
  /-- The subscription state was Terminated and then another. -/
  revived : Bool := false
deriving DecidableEq

/-- What a function still has to do. -/
inductive EventFrame
  | subscriptionStateChanged (state : LinphoneSubscriptionState)
  | publishStateChanged (state : LinphonePublishState)
  | notifyReceived (st : SalSubscribeStatus)
deriving DecidableEq

/-- An operation of one kind, with the event that it points to. -/
structure EventOp where
  publishes : Bool
  lev : Option LinphoneEvent := none
  stack : List EventFrame := []
  /-- The events that were destroyed. -/
  gone : List LinphoneEvent := []
  /-- An event was used that does not exist. -/
  fault : Bool := false

namespace EventOp

variable (s : EventOp) (lev : LinphoneEvent)

/-! ## References -/

/-- The count of references has changed. -/
def counted : EventOp :=
  if lev.refcnt = 0 then { s with lev := none, gone := lev :: s.gone }
  else { s with lev := some lev }

/-- `linphone_event_unref`, of the reference of the core. -/
def coreUnref : EventOp :=
  s.counted { lev with refcnt := lev.refcnt - 1, released := lev.released + 1 }

/-- `linphone_event_unref`, of a reference of the application. -/
def appUnref : EventOp :=
  s.counted { lev with refcnt := lev.refcnt - 1, appRefs := lev.appRefs - 1 }

/-! ## States -/

/-- `linphone_event_set_state`, until it has notified. -/
def setState (state : LinphoneSubscriptionState) : EventOp :=
  if lev.subscriptionState ≠ state then
    { s with
      lev := some { lev with
        subscriptionState := state
        revived := lev.revived || lev.subscriptionState = .terminated }
      stack := .subscriptionStateChanged state :: s.stack }
  else { s with lev := some lev }

/-- `linphone_event_set_publish_state`, until it has notified. -/
def setPublishState (state : LinphonePublishState) : EventOp :=
  if lev.publishState ≠ state then
    { s with
      lev := some { lev with publishState := state }
      stack := .publishStateChanged state :: s.stack }
  else { s with lev := some lev }

/-- A use of the event. -/
def withLev (f : LinphoneEvent → EventOp) : EventOp :=
  match s.lev with
  | some lev => f lev
  | none => { s with fault := true }

/-- What comes after a notification. -/
def finish : EventFrame → EventOp
  | .subscriptionStateChanged .terminated => s.withLev s.coreUnref
  | .subscriptionStateChanged _ => s
  | .publishStateChanged .cleared =>
      s.withLev fun lev => if lev.expires ≠ -1 then s.coreUnref lev else s
  | .publishStateChanged .ok | .publishStateChanged .error =>
      s.withLev fun lev => if lev.expires = -1 then s.coreUnref lev else s
  | .publishStateChanged _ => s
  | .notifyReceived st =>
      if st ≠ .none then s.withLev fun lev => s.setState lev (linphoneSubscriptionStateFromSal st)
      else s

/-- A notification returns. -/
def ret : EventOp :=
  match s.stack with
  | frame :: stack => { s with stack := stack }.finish frame
  | [] => s

/-! ## Calls of the application -/

/-- `linphone_event_send_subscribe`, with the result of `sal_subscribe`. -/
def sendSubscribe (err : Int) : EventOp :=
  if lev.dir ≠ .outgoing then s
  else match lev.subscriptionState with
    | .incomingReceived | .terminated | .outgoingProgress => s
    | .none => if err = 0 then s.setState lev .outgoingProgress else s
    | _ => s

/-- `linphone_event_accept_subscription`, with the result of `sal_subscribe_accept`. -/
def acceptSubscription (err : Int) : EventOp :=
  if lev.subscriptionState ≠ .incomingReceived then s
  else if err = 0 then s.setState lev .active
  else s

/-- `linphone_event_deny_subscription` -/
def denySubscription : EventOp :=
  if lev.subscriptionState ≠ .incomingReceived then s else s.setState lev .terminated

/-- `_linphone_event_send_publish`, with the result of `sal_publish`. -/
def sendPublish (err : Int) (notifyErr : Bool) : EventOp :=
  if lev.dir ≠ .invalidDir then s
  else if err = 0 then s.setPublishState lev .progress
  else if notifyErr then s.setPublishState lev .error
  else s

/-- `linphone_core_publish`, for an event that was just created. -/
def corePublish (err : Int) : EventOp :=
  if err = -1 then s.coreUnref lev else s.sendPublish lev err false

/-- `linphone_event_terminate` -/
def terminate : EventOp :=
  let lev := { lev with terminating := true }
  if lev.publishState ≠ .none then s.setPublishState lev .cleared
  else if lev.subscriptionState ≠ .none then s.setState lev .terminated
  else { s with lev := some lev }

/-! ## Callbacks -/

/-- `subscribe_response` -/
def subscribeResponse (status : SalSubscribeStatus) (ioError : Bool) : EventOp :=
  match status with
  | .active => s.setState lev .active
  | .pending => s.setState lev .pending
  | _ =>
      if lev.subscriptionState = .active ∧ ioError then s.setState lev .outgoingProgress
      else s.setState lev .error

/-- `notify`, until the application has received it. -/
def notify (st : SalSubscribeStatus) : EventOp :=
  { s with
    -- out of subscribe notify
    lev := some (s.lev.getD { dir := .outgoing })
    stack := .notifyReceived st :: s.stack }

/-- `subscribe_received`; a refresh is unhandled. -/
def subscribeReceived : EventOp :=
  match s.lev with
  | none => s.setState { dir := .incoming } .incomingReceived
  | some _ => s

/-- `on_publish_response` -/
def onPublishResponse (success : Bool) : EventOp :=
  if success then
    if ¬lev.terminating then s.setPublishState lev .ok else s.setPublishState lev .cleared
  else if lev.publishState = .ok then s.setPublishState lev .progress
  else s.setPublishState lev .error

/-- `on_expire` -/
def onExpire : EventOp :=
  if lev.publishState = .ok then s.setPublishState lev .expiring
  else if lev.subscriptionState = .active then s.setState lev .expiring
  else s

end EventOp

/-! ## Runs -/

inductive EventStep
  | sendSubscribe (err : Int)
  | acceptSubscription (err : Int)
  | denySubscription
  | sendPublish (err : Int)
  | corePublish (err : Int)
  | terminate
  | ref
  | unref
  /-- The application returns from a notification. -/
  | ret
  | subscribeResponse (status : SalSubscribeStatus) (ioError : Bool)
  | notify (st : SalSubscribeStatus)
  | subscribeReceived
  | subscribeClosed
  | publishResponse (success : Bool)
  | expire

namespace EventStep

variable (s : EventOp)

/-- The application calls functions of events that exist, at any time, and releases what it has
retained. Callbacks come when no function is running, from an operation of their kind; a
publication that does not expire is not refreshed. -/
def Enabled : EventStep → Prop
  | sendSubscribe _ | acceptSubscription _ | denySubscription | sendPublish _ | terminate | ref =>
      s.lev ≠ none
  | unref => ∃ lev ∈ s.lev, 0 < lev.appRefs
  | corePublish _ => s.stack = [] ∧
      ∃ lev ∈ s.lev, lev = { dir := .invalidDir, expires := lev.expires }
  | ret => s.stack ≠ []
  | subscribeResponse _ _ | notify _ | subscribeReceived | subscribeClosed =>
      s.stack = [] ∧ s.publishes = false
  | publishResponse _ => s.stack = [] ∧ s.publishes = true
  | expire => s.stack = [] ∧ (s.publishes = true → ∀ lev ∈ s.lev, lev.expires ≠ -1)

instance : (e : EventStep) → Decidable (e.Enabled s)
  | sendSubscribe _ | acceptSubscription _ | denySubscription | sendPublish _ | terminate | ref |
    ret => inferInstanceAs (Decidable (_ ≠ _))
  | unref => inferInstanceAs (Decidable (∃ lev ∈ s.lev, 0 < lev.appRefs))
  | corePublish _ => inferInstanceAs (Decidable (_ ∧ ∃ lev ∈ s.lev, lev = _))
  | subscribeResponse _ _ | notify _ | subscribeReceived | subscribeClosed | publishResponse _ =>
      inferInstanceAs (Decidable (_ ∧ _))
  | expire => inferInstanceAs (Decidable (_ ∧ (_ → ∀ lev ∈ s.lev, _)))

/-- A call on the event, if there is one. -/
def onLev (f : LinphoneEvent → EventOp) : EventOp := (s.lev.map f).getD s

def after : EventStep → EventOp
  | sendSubscribe err => onLev s fun lev => s.sendSubscribe lev err
  | acceptSubscription err => onLev s fun lev => s.acceptSubscription lev err
  | denySubscription => onLev s s.denySubscription
  | sendPublish err => onLev s fun lev => s.sendPublish lev err true
  | corePublish err => onLev s fun lev => s.corePublish lev err
  | terminate => onLev s s.terminate
  | ref => onLev s fun lev =>
      { s with lev := some { lev with refcnt := lev.refcnt + 1, appRefs := lev.appRefs + 1 } }
  | unref => onLev s s.appUnref
  | ret => s.ret
  | subscribeResponse status ioError => onLev s fun lev => s.subscribeResponse lev status ioError
  | notify st => s.notify st
  | subscribeReceived => s.subscribeReceived
  | subscribeClosed => s.withLev fun lev => s.setState lev .terminated
  | publishResponse success => onLev s fun lev => s.onPublishResponse lev success
  | expire => onLev s s.onExpire

end EventStep

/-- An event that was just created, or an operation that a request has made. -/
inductive EventOp.Starts : EventOp → Prop
  | createSubscribe (expires : Int) :
      Starts { publishes := false, lev := some { dir := .outgoing, expires := expires } }
  | createPublish (expires : Int) :
      Starts { publishes := true, lev := some { dir := .invalidDir, expires := expires } }
  | received : Starts { publishes := false }

/-- A run, each step of which satisfies a condition on the state before it. -/
inductive EventRun (cond : EventOp → EventStep → Prop) : EventOp → Prop
  | start {s : EventOp} : s.Starts → EventRun cond s
  | step {s : EventOp} (e : EventStep) : EventRun cond s → e.Enabled s → cond s e →
      EventRun cond (e.after s)

end Linphone
