import Linphone.Event.Event

/-!
# The reference of the core on an event

`kept_of_run`: as long as nothing moves an event that is over, a publication that does not expire
is not terminated before its answer, no subscription is closed without an event, and the
application holds a reference where it ends an event from inside a notification, the reference of
the core is released once and when the event is over, Terminated is never left, and no function
uses an event that does not exist. `closed_without_event`: a subscription that was terminated here
is closed by the other side.

The invariant is `EventOp.Inv`: what the core has released and what the frames still owe is one,
for an event that is over, or nothing.
-/

namespace Linphone

/-! ## What is claimed -/

/-- A state that an event ends in. -/
def LinphoneEvent.Over (lev : LinphoneEvent) : Prop :=
  lev.subscriptionState = .terminated ∨ lev.publishState = .cleared ∨
    lev.expires = -1 ∧ (lev.publishState = .ok ∨ lev.publishState = .error)

instance (lev : LinphoneEvent) : Decidable lev.Over := inferInstanceAs (Decidable (_ ∨ _))

structure EventOp.Kept (s : EventOp) : Prop where
  once : ∀ lev, s.lev = some lev ∨ lev ∈ s.gone → lev.released ≤ 1
  ended : s.stack = [] → ∀ lev, s.lev = some lev → lev.Over → lev.released = 1
  destroyed : ∀ lev ∈ s.gone, lev.released = 1
  terminated : ∀ lev, s.lev = some lev ∨ lev ∈ s.gone → lev.revived = false
  used : s.fault = false

/-! ## Steps that are careful -/

namespace EventFrame

/-- The function uses the event after the notification. -/
def uses : EventFrame → Bool
  | subscriptionStateChanged state => state = .terminated
  | publishStateChanged state => state = .cleared || state = .ok || state = .error
  | notifyReceived st => st ≠ .none

/-- The function releases the reference of the core. -/
def releases (expires : Int) : EventFrame → Bool
  | subscriptionStateChanged state => state = .terminated
  | publishStateChanged .cleared => expires ≠ -1
  | publishStateChanged .ok | publishStateChanged .error => expires = -1
  | publishStateChanged _ => false
  | notifyReceived _ => false

end EventFrame

namespace EventStep

/-- A reference that is dropped while a function will use the event is not the last one. -/
def Spares (frames : List EventFrame) (lev : LinphoneEvent) : Prop :=
  frames.any EventFrame.uses = true → 1 < lev.refcnt

/-- The notification is not about an event that was terminated meanwhile, and what is released
inside another function is not the last reference. -/
def RetCareful (lev : LinphoneEvent) : List EventFrame → Prop
  | .notifyReceived st :: _ =>
      lev.subscriptionState = .terminated → st = .none ∨ st = .terminated
  | frame :: frames => frame.releases lev.expires = true → Spares frames lev
  | [] => True

def Careful (s : EventOp) : EventStep → Prop
  | sendPublish _ => ∀ lev ∈ s.lev, lev.dir = .invalidDir → ¬lev.Over
  | terminate => ∀ lev ∈ s.lev, lev.dir = .invalidDir → lev.expires = -1 → lev.Over
  | unref => ∀ lev ∈ s.lev, Spares s.stack lev
  | ret => ∀ lev ∈ s.lev, RetCareful lev s.stack
  | subscribeResponse _ _ => ∀ lev ∈ s.lev, lev.subscriptionState ≠ .terminated
  | subscribeClosed => s.lev ≠ none
  | publishResponse success => ∀ lev ∈ s.lev, lev.Over →
      if success = true then lev.terminating = true ∨ lev.publishState = .ok
      else lev.publishState = .error
  | _ => True

instance (frames : List EventFrame) (lev : LinphoneEvent) : Decidable (Spares frames lev) :=
  inferInstanceAs (Decidable (_ → _))

instance (lev : LinphoneEvent) : (frames : List EventFrame) → Decidable (RetCareful lev frames)
  | .notifyReceived _ :: _ | .subscriptionStateChanged _ :: _ | .publishStateChanged _ :: _ =>
      inferInstanceAs (Decidable (_ → _))
  | [] => inferInstanceAs (Decidable True)

instance (s : EventOp) : (e : EventStep) → Decidable (e.Careful s)
  | sendPublish _ => inferInstanceAs (Decidable (∀ lev ∈ s.lev, _ → ¬lev.Over))
  | terminate => inferInstanceAs (Decidable (∀ lev ∈ s.lev, _ → _ → lev.Over))
  | unref => inferInstanceAs (Decidable (∀ lev ∈ s.lev, Spares s.stack lev))
  | ret => inferInstanceAs (Decidable (∀ lev ∈ s.lev, RetCareful lev s.stack))
  | subscribeResponse _ _ => inferInstanceAs (Decidable (∀ lev ∈ s.lev, _ ≠ _))
  | subscribeClosed => inferInstanceAs (Decidable (_ ≠ _))
  | publishResponse _ => inferInstanceAs (Decidable (∀ lev ∈ s.lev, lev.Over → _))
  | sendSubscribe _ | acceptSubscription _ | denySubscription | corePublish _ | ref | notify _ |
    subscribeReceived | expire => inferInstanceAs (Decidable True)

end EventStep

/-! ## The invariant -/

/-- The frames that release the reference of the core. -/
def owed (frames : List EventFrame) (expires : Int) : Nat :=
  frames.countP (·.releases expires)

structure LinphoneEvent.Inv (b : Bool) (frames : List EventFrame) (lev : LinphoneEvent) :
    Prop where
  refs : lev.refcnt = 1 - lev.released + lev.appRefs
  pos : 0 < lev.refcnt
  owes : lev.released + owed frames lev.expires = if lev.Over then 1 else 0
  revived : lev.revived = false
  subscription : b = false → lev.dir ≠ .invalidDir ∧ lev.publishState = .none
  publication : b = true → lev.dir = .invalidDir ∧ lev.subscriptionState = .none
  once : b = true → lev.expires = -1 → lev.terminating = true → lev.Over

/-- What does not depend on the event of the operation. -/
structure EventOp.Rest (s : EventOp) : Prop where
  notifies : ∀ st, .notifyReceived st ∈ s.stack → s.publishes = false
  gone : ∀ lev ∈ s.gone, lev.released = 1 ∧ lev.revived = false
  used : s.fault = false

structure EventOp.Inv (s : EventOp) : Prop extends EventOp.Rest s where
  lev : ∀ lev, s.lev = some lev → lev.Inv s.publishes s.stack
  unused : s.lev = none → ∀ frame ∈ s.stack, frame.uses = false

section inv

variable {s : EventOp} {lev : LinphoneEvent} {frames : List EventFrame} {b : Bool}

open EventOp

theorem EventOp.Inv.kept (h : s.Inv) : s.Kept where
  once := by
    rintro lev (hlev | hgone)
    · have howes := (h.lev lev hlev).owes
      split at howes <;> omega
    · exact Nat.le_of_eq (h.gone lev hgone).1
  ended := fun hstack lev hlev hover => by
    have howes := (h.lev lev hlev).owes
    rw [hstack, if_pos hover] at howes
    exact howes
  destroyed := fun lev hlev => (h.gone lev hlev).1
  terminated := by
    rintro lev (hlev | hgone)
    · exact (h.lev lev hlev).revived
    · exact (h.gone lev hgone).2
  used := h.used

theorem owed_cons (frame : EventFrame) (expires : Int) :
    owed (frame :: frames) expires =
      owed frames expires + if frame.releases expires then 1 else 0 := by
  unfold owed
  rw [List.countP_cons]

/-- A new event. -/
theorem inv_new (hkind : b = false ↔ lev.dir ≠ .invalidDir) (hrefs : lev.refcnt = 1)
    (happ : lev.appRefs = 0) (hreleased : lev.released = 0) (hrevived : lev.revived = false)
    (hst : lev.subscriptionState = .none) (hpub : lev.publishState = .none)
    (hterminating : lev.terminating = false) : lev.Inv b [] := by
  have hover : ¬lev.Over := by
    simp [LinphoneEvent.Over, hst, hpub]
  refine ⟨by omega, by omega, ?_, hrevived, fun hb => ⟨hkind.mp hb, hpub⟩, fun hb => ⟨?_, hst⟩,
    fun _ _ htrue => ?_⟩
  · rw [if_neg hover, hreleased]
    rfl
  · by_cases hdir : lev.dir = .invalidDir
    · exact hdir
    · exact absurd (hb.symm.trans (hkind.mpr hdir)) (by decide)
  · exact absurd (hterminating.symm.trans htrue) (by decide)

/-- The event of an operation has changed. -/
theorem EventOp.Rest.set (h : s.Rest) (hlev : lev.Inv s.publishes s.stack) :
    EventOp.Inv { s with lev := some lev } where
  toRest := ⟨h.notifies, h.gone, h.used⟩
  lev := fun _ heq => Option.some.inj heq ▸ hlev
  unused := fun hnone => nomatch hnone

/-- The event has changed, and a notification is sent. -/
theorem EventOp.Rest.push (h : s.Rest) {frame : EventFrame}
    (hlev : lev.Inv s.publishes (frame :: s.stack)) (hframe : ∀ st, frame ≠ .notifyReceived st) :
    EventOp.Inv { s with lev := some lev, stack := frame :: s.stack } where
  notifies := fun st hmem => by
    rcases List.mem_cons.mp hmem with heq | hmem
    · exact absurd heq.symm (hframe st)
    · exact h.notifies st hmem
  gone := h.gone
  used := h.used
  lev := fun _ heq => Option.some.inj heq ▸ hlev
  unused := fun hnone => nomatch hnone

/-! ## References -/

/-- A reference is dropped. -/
theorem inv_counted (h : s.Rest) {lev' : LinphoneEvent} (hrefs : lev'.refcnt = lev.refcnt - 1)
    (hpos : 0 < lev.refcnt) (hspares : EventStep.Spares s.stack lev)
    (halive : 0 < lev'.refcnt → lev'.Inv s.publishes s.stack)
    (hgone : lev'.refcnt = 0 → lev'.released = 1 ∧ lev'.revived = false) :
    (s.counted lev').Inv := by
  unfold counted
  split
  · rename_i hzero
    refine ⟨⟨h.notifies, fun lev'' hmem => ?_, h.used⟩, (fun _ hnone => nomatch hnone),
      fun _ frame hframe => ?_⟩
    · rcases List.mem_cons.mp hmem with rfl | hmem
      · exact hgone hzero
      · exact h.gone lev'' hmem
    · by_cases huses : frame.uses = true
      · have hany : s.stack.any EventFrame.uses = true :=
          List.any_eq_true.mpr ⟨frame, hframe, huses⟩
        have hlast := hspares hany
        omega
      · simpa using huses
  · rename_i hne
    exact h.set (halive (by omega))

/-- The core releases the reference that a frame owed. -/
theorem inv_coreUnref (h : s.Rest) (hrefs : lev.refcnt = 1 - lev.released + lev.appRefs)
    (hpos : 0 < lev.refcnt) (howes : lev.released + 1 + owed s.stack lev.expires =
      if lev.Over then 1 else 0) (hlev : lev.Inv s.publishes frames)
    (hspares : EventStep.Spares s.stack lev) : (s.coreUnref lev).Inv := by
  have hone : lev.released + 1 + owed s.stack lev.expires ≤ 1 := by
    split at howes <;> omega
  refine inv_counted h rfl hpos hspares (fun halive => ?_) fun hzero => ?_
  · refine ⟨?_, halive, howes, hlev.revived, hlev.subscription, hlev.publication, hlev.once⟩
    change lev.refcnt - 1 = 1 - ((lev.released + 1 : Nat) : Int) + lev.appRefs
    omega
  · change lev.released + 1 = 1 ∧ _
    exact ⟨by omega, hlev.revived⟩

/-! ## States -/

theorem inv_setState (h : s.Rest) (hlev : lev.Inv s.publishes s.stack)
    {state : LinphoneSubscriptionState} (hkind : s.publishes = false)
    (hstays : lev.subscriptionState = .terminated → state = .terminated) :
    (s.setState lev state).Inv := by
  have hpub := (hlev.subscription hkind).2
  unfold setState
  split
  · rename_i hne
    have hst : lev.subscriptionState ≠ .terminated := fun hst => hne (hst.trans (hstays hst).symm)
    have hnot : ¬lev.Over := by
      simp [LinphoneEvent.Over, hst, hpub]
    have howes := hlev.owes
    rw [if_neg hnot] at howes
    refine h.push ⟨hlev.refs, hlev.pos, ?_, ?_, hlev.subscription, fun hb => ?_, fun hb => ?_⟩
      fun st => EventFrame.noConfusion
    · rw [owed_cons, ← Nat.add_assoc]
      change lev.released + owed s.stack lev.expires + _ = _
      rw [howes]
      simp [LinphoneEvent.Over, EventFrame.releases, hpub]
    · simp [hlev.revived, hst]
    · exact absurd (hkind.symm.trans hb) (by decide)
    · exact absurd (hkind.symm.trans hb) (by decide)
  · exact h.set hlev

theorem inv_setPublishState (h : s.Rest) (hlev : lev.Inv s.publishes s.stack)
    {state : LinphonePublishState} (hkind : s.publishes = true)
    (hover : lev.Over → lev.publishState ≠ state → lev.expires = -1 ∧ state = .cleared)
    (hfirst : ¬lev.Over → state = .cleared → lev.expires ≠ -1) :
    (s.setPublishState lev state).Inv := by
  have hst := (hlev.publication hkind).2
  unfold setPublishState
  split
  · rename_i hne
    have howes := hlev.owes
    refine h.push ⟨hlev.refs, hlev.pos, ?_, hlev.revived, fun hb => ?_, hlev.publication,
      fun hb hexpires hterminating => ?_⟩ fun st => EventFrame.noConfusion
    · rw [owed_cons, ← Nat.add_assoc]
      change lev.released + owed s.stack lev.expires + _ = _
      rw [howes]
      by_cases hlevOver : lev.Over
      · obtain ⟨hexpires, rfl⟩ := hover hlevOver hne
        rw [if_pos hlevOver]
        simp [LinphoneEvent.Over, EventFrame.releases, hexpires]
      · have hnew := hfirst hlevOver
        rw [if_neg hlevOver]
        cases state with
        | cleared => simp [LinphoneEvent.Over, EventFrame.releases, hnew rfl]
        | ok | error => simp [LinphoneEvent.Over, EventFrame.releases, hst]
        | none | progress | expiring => simp [LinphoneEvent.Over, EventFrame.releases, hst]
    · exact absurd (hkind.symm.trans hb) (by decide)
    · have hdone := hlev.once hkind hexpires hterminating
      exact .inr (.inl (hover hdone hne).2)
  · exact h.set hlev

/-! ## Notifications that return -/

theorem finish_of_not_uses {frame : EventFrame} (h : frame.uses = false) : s.finish frame = s := by
  cases frame with
  | subscriptionStateChanged state =>
      cases state with
      | terminated => exact absurd h (by decide)
      | none | outgoingProgress | incomingReceived | pending | active | error | expiring => rfl
  | publishStateChanged state =>
      cases state with
      | cleared | ok | error => exact absurd h (by decide)
      | none | progress | expiring => rfl
  | notifyReceived st =>
      cases st with
      | none => rfl
      | pending | active | terminated => exact absurd h (by decide)

/-- A frame that does not come from `notify` releases the reference or does nothing. -/
theorem finish_eq (hlev : s.lev = some lev) {frame : EventFrame}
    (hframe : ∀ st, frame ≠ .notifyReceived st) :
    s.finish frame = if frame.releases lev.expires = true then s.coreUnref lev else s := by
  cases frame with
  | subscriptionStateChanged state =>
      cases state with
      | terminated => simp [finish, withLev, hlev, EventFrame.releases]
      | none | outgoingProgress | incomingReceived | pending | active | error | expiring => rfl
  | publishStateChanged state =>
      cases state with
      | cleared | ok | error => simp [finish, withLev, hlev, EventFrame.releases]
      | none | progress | expiring => rfl
  | notifyReceived st => exact absurd rfl (hframe st)

theorem stateFromSal_terminated {st : SalSubscribeStatus} (hne : st ≠ .none)
    (h : st = .none ∨ st = .terminated) : linphoneSubscriptionStateFromSal st = .terminated := by
  rw [h.resolve_left hne]
  rfl

theorem inv_of_cons {frame : EventFrame} (h : lev.Inv b (frame :: frames))
    (hkeeps : frame.releases lev.expires = false) : lev.Inv b frames := by
  have howes := h.owes
  rw [owed_cons, if_neg (by simp [hkeeps]), Nat.add_zero] at howes
  exact ⟨h.refs, h.pos, howes, h.revived, h.subscription, h.publication, h.once⟩

/-- The end of a frame that does not come from `notify`. -/
theorem inv_finish (h : s.Rest) (hlev : s.lev = some lev) {frame : EventFrame}
    (hinv : lev.Inv s.publishes (frame :: s.stack)) (hframe : ∀ st, frame ≠ .notifyReceived st)
    (hspares : frame.releases lev.expires = true → EventStep.Spares s.stack lev) :
    (s.finish frame).Inv := by
  rw [finish_eq hlev hframe]
  cases hreleases : frame.releases lev.expires with
  | true =>
      have howes := hinv.owes
      rw [owed_cons, if_pos hreleases] at howes
      rw [if_pos rfl]
      refine inv_coreUnref h hinv.refs hinv.pos ?_ hinv (hspares hreleases)
      rw [← howes]
      omega
  | false =>
      have hset := h.set (inv_of_cons hinv hreleases)
      rw [← hlev] at hset
      exact hset

/-- The end of `notify`. -/
theorem inv_finish_notify (h : s.Rest) (hlev : s.lev = some lev) {st : SalSubscribeStatus}
    (hkind : s.publishes = false) (hinv : lev.Inv s.publishes s.stack)
    (hstays : lev.subscriptionState = .terminated → st = .none ∨ st = .terminated) :
    (s.finish (.notifyReceived st)).Inv := by
  by_cases hst : st = .none
  · have hset := h.set hinv
    rw [← hlev] at hset
    rw [finish_of_not_uses (by simp [EventFrame.uses, hst])]
    exact hset
  · have hfinish : s.finish (.notifyReceived st) =
        s.setState lev (linphoneSubscriptionStateFromSal st) := by
      simp [finish, withLev, hst, hlev]
    rw [hfinish]
    exact inv_setState h hinv hkind fun hterminated =>
      stateFromSal_terminated hst (hstays hterminated)

theorem inv_ret (h : s.Inv) (hcareful : EventStep.ret.Careful s) : s.ret.Inv := by
  cases hstack : s.stack with
  | nil =>
      have hret : s.ret = s := by
        unfold EventOp.ret
        rw [hstack]
      rw [hret]
      exact h
  | cons frame stack =>
      have hret : s.ret = { s with stack := stack }.finish frame := by
        unfold EventOp.ret
        rw [hstack]
      have hrest : EventOp.Rest { s with stack := stack } := by
        refine ⟨fun st hmem => h.notifies st ?_, h.gone, h.used⟩
        rw [hstack]
        exact List.mem_cons_of_mem frame hmem
      rw [hret]
      cases hlev : s.lev with
      | none =>
          have hunused := h.unused hlev
          rw [hstack] at hunused
          rw [finish_of_not_uses (hunused frame (by simp))]
          refine ⟨⟨hrest.notifies, hrest.gone, hrest.used⟩, fun lev hsome => ?_, fun _ f hf =>
            hunused f (List.mem_cons_of_mem frame hf)⟩
          exact absurd hsome (by simp)
      | some lev =>
          have hinv := h.lev lev hlev
          have hspares := hcareful lev hlev
          rw [hstack] at hinv hspares
          rw [← hlev]
          cases frame with
          | subscriptionStateChanged state =>
              exact inv_finish hrest hlev hinv (fun st => EventFrame.noConfusion) hspares
          | publishStateChanged state =>
              exact inv_finish hrest hlev hinv (fun st => EventFrame.noConfusion) hspares
          | notifyReceived st =>
              have hkind : s.publishes = false := h.notifies st (by rw [hstack]; simp)
              exact inv_finish_notify hrest hlev hkind (inv_of_cons hinv rfl) hspares

/-! ## Calls and callbacks -/

theorem subscribes_of_state (h : lev.Inv b frames) (hst : lev.subscriptionState ≠ .none) :
    b = false := by
  cases b with
  | false => rfl
  | true => exact absurd (h.publication rfl).2 hst

theorem publishes_of_state (h : lev.Inv b frames) (hpub : lev.publishState ≠ .none) : b = true := by
  cases b with
  | true => rfl
  | false => exact absurd (h.subscription rfl).2 hpub

theorem inv_sendSubscribe (h : s.Inv) (hlev : s.lev = some lev) (err : Int) :
    (s.sendSubscribe lev err).Inv := by
  have hinv := h.lev lev hlev
  unfold sendSubscribe
  split
  · exact h
  · rename_i hdir
    have hkind : s.publishes = false := by
      cases hb : s.publishes with
      | false => rfl
      | true =>
          rw [(hinv.publication hb).1] at hdir
          exact absurd (fun heq => LinphoneSubscriptionDir.noConfusion heq) hdir
    split
    · exact h
    · exact h
    · exact h
    · rename_i hst
      split
      · exact inv_setState h.toRest hinv hkind fun hterminated =>
          LinphoneSubscriptionState.noConfusion (hst.symm.trans hterminated)
      · exact h
    · exact h

theorem inv_incoming (h : s.Inv) (hlev : s.lev = some lev)
    (hst : lev.subscriptionState = .incomingReceived) (state : LinphoneSubscriptionState) :
    (s.setState lev state).Inv := by
  have hinv := h.lev lev hlev
  have hkind := subscribes_of_state hinv (by rw [hst]; decide)
  exact inv_setState h.toRest hinv hkind fun hterminated =>
    LinphoneSubscriptionState.noConfusion (hst.symm.trans hterminated)

theorem inv_acceptSubscription (h : s.Inv) (hlev : s.lev = some lev) (err : Int) :
    (s.acceptSubscription lev err).Inv := by
  unfold acceptSubscription
  split
  · exact h
  · rename_i hst
    split
    · exact inv_incoming h hlev (Decidable.not_not.mp hst) .active
    · exact h

theorem inv_denySubscription (h : s.Inv) (hlev : s.lev = some lev) :
    (s.denySubscription lev).Inv := by
  unfold denySubscription
  split
  · exact h
  · rename_i hst
    exact inv_incoming h hlev (Decidable.not_not.mp hst) .terminated

theorem inv_sendPublish (h : s.Inv) (hlev : s.lev = some lev) (err : Int) (notifyErr : Bool)
    (hnot : lev.dir = .invalidDir → ¬lev.Over) : (s.sendPublish lev err notifyErr).Inv := by
  have hinv := h.lev lev hlev
  unfold sendPublish
  split
  · exact h
  · rename_i hdir
    have hdir' : lev.dir = .invalidDir := Decidable.not_not.mp hdir
    have hkind : s.publishes = true := by
      cases hb : s.publishes with
      | true => rfl
      | false => exact absurd hdir' (hinv.subscription hb).1
    split
    · exact inv_setPublishState h.toRest hinv hkind (fun hover => absurd hover (hnot hdir'))
        fun _ heq => LinphonePublishState.noConfusion heq
    · split
      · exact inv_setPublishState h.toRest hinv hkind (fun hover => absurd hover (hnot hdir'))
          fun _ heq => LinphonePublishState.noConfusion heq
      · exact h

theorem inv_corePublish (h : s.Inv) {expires : Int} (hstack : s.stack = [])
    (hlev : s.lev = some { dir := .invalidDir, expires := expires }) (err : Int) :
    (s.corePublish { dir := .invalidDir, expires := expires } err).Inv := by
  have hinv := h.lev _ hlev
  unfold corePublish
  split
  · refine inv_counted h.toRest rfl hinv.pos ?_ (fun halive => ?_) fun _ => ⟨rfl, rfl⟩
    · rw [EventStep.Spares, hstack]
      exact fun hany => absurd hany (by decide)
    · have hlt : (0 : Int) < 1 - 1 := halive
      exact absurd hlt (by decide)
  · refine inv_sendPublish h hlev err false fun _ hover => ?_
    simp [LinphoneEvent.Over] at hover

theorem inv_terminating (hinv : lev.Inv b frames) (honce : b = true → lev.expires = -1 → lev.Over) :
    LinphoneEvent.Inv b frames { lev with terminating := true } :=
  ⟨hinv.refs, hinv.pos, hinv.owes, hinv.revived, hinv.subscription, hinv.publication,
    fun hb hexpires _ => honce hb hexpires⟩

theorem inv_terminate (h : s.Inv) (hlev : s.lev = some lev)
    (hcareful : lev.dir = .invalidDir → lev.expires = -1 → lev.Over) : (s.terminate lev).Inv := by
  have hinv := h.lev lev hlev
  have honce : s.publishes = true → lev.expires = -1 → lev.Over := fun hb =>
    hcareful (hinv.publication hb).1
  have hterminating := inv_terminating hinv honce
  unfold terminate
  dsimp only
  split
  · rename_i hpub
    have hkind := publishes_of_state hinv hpub
    refine inv_setPublishState h.toRest hterminating hkind
      (fun hover hne => ?_) fun hnot _ hexpires =>
      hnot (honce hkind hexpires)
    rcases hover with hst | hcleared | ⟨hexpires, -⟩
    · exact absurd ((hinv.publication hkind).2.symm.trans hst) (by decide)
    · exact absurd hcleared hne
    · exact ⟨hexpires, rfl⟩
  · split
    · rename_i hst
      exact inv_setState h.toRest hterminating (subscribes_of_state hinv hst) fun _ => rfl
    · exact h.set hterminating

theorem inv_ref (h : s.Inv) (hlev : s.lev = some lev) : EventOp.Inv { s with
    lev := some { lev with refcnt := lev.refcnt + 1, appRefs := lev.appRefs + 1 } } := by
  have hinv := h.lev lev hlev
  refine h.set ⟨?_, ?_, hinv.owes, hinv.revived, hinv.subscription, hinv.publication, hinv.once⟩
  · have hrefs := hinv.refs
    change lev.refcnt + 1 = 1 - lev.released + ((lev.appRefs + 1 : Nat) : Int)
    omega
  · have hpos := hinv.pos
    change 0 < lev.refcnt + 1
    omega

theorem inv_unref (h : s.Inv) (hlev : s.lev = some lev) (happ : 0 < lev.appRefs)
    (hspares : EventStep.Spares s.stack lev) : (s.appUnref lev).Inv := by
  have hinv := h.lev lev hlev
  have hrefs := hinv.refs
  have hone : lev.released ≤ 1 := by
    have howes := hinv.owes
    split at howes <;> omega
  refine inv_counted h.toRest rfl hinv.pos hspares (fun halive => ?_) fun hzero => ?_
  · refine ⟨?_, halive, hinv.owes, hinv.revived, hinv.subscription, hinv.publication, hinv.once⟩
    change lev.refcnt - 1 = 1 - lev.released + ((lev.appRefs - 1 : Nat) : Int)
    omega
  · have hzero' : lev.refcnt - 1 = 0 := hzero
    change lev.released = 1 ∧ _
    exact ⟨by omega, hinv.revived⟩

theorem inv_subscribeResponse (h : s.Inv) (hlev : s.lev = some lev) (hkind : s.publishes = false)
    (hne : lev.subscriptionState ≠ .terminated) (status : SalSubscribeStatus) (ioError : Bool) :
    (s.subscribeResponse lev status ioError).Inv := by
  have hset : ∀ state, (s.setState lev state).Inv := fun state =>
    inv_setState h.toRest (h.lev lev hlev) hkind fun hterminated => absurd hterminated hne
  unfold subscribeResponse
  split
  · exact hset _
  · exact hset _
  · split
    · exact hset _
    · exact hset _

theorem inv_fresh (hkind : b = false) (dir : LinphoneSubscriptionDir) (hdir : dir ≠ .invalidDir) :
    LinphoneEvent.Inv b [] { dir := dir } :=
  inv_new ⟨fun _ => hdir, fun _ => hkind⟩ rfl rfl rfl rfl rfl rfl rfl

theorem inv_notify (h : s.Inv) (hstack : s.stack = []) (hkind : s.publishes = false)
    (st : SalSubscribeStatus) : (s.notify st).Inv := by
  have hinv : LinphoneEvent.Inv s.publishes s.stack (s.lev.getD { dir := .outgoing }) := by
    cases hlev : s.lev with
    | none =>
        rw [hstack]
        exact inv_fresh hkind .outgoing (by decide)
    | some lev => exact h.lev lev hlev
  have hpushed : LinphoneEvent.Inv s.publishes (.notifyReceived st :: s.stack)
      (s.lev.getD { dir := .outgoing }) := by
    refine ⟨hinv.refs, hinv.pos, ?_, hinv.revived, hinv.subscription, hinv.publication, hinv.once⟩
    rw [owed_cons]
    exact hinv.owes
  refine ⟨⟨fun st hmem => hkind, h.gone, h.used⟩, fun lev heq => ?_, fun hnone => nomatch hnone⟩
  exact Option.some.inj heq ▸ hpushed

theorem inv_subscribeReceived (h : s.Inv) (hstack : s.stack = []) (hkind : s.publishes = false) :
    s.subscribeReceived.Inv := by
  unfold subscribeReceived
  split
  · refine inv_setState h.toRest ?_ hkind fun hst => LinphoneSubscriptionState.noConfusion hst
    rw [hstack]
    exact inv_fresh hkind .incoming (by decide)
  · exact h

theorem inv_onPublishResponse (h : s.Inv) (hlev : s.lev = some lev) (hkind : s.publishes = true)
    {success : Bool} (hcareful : lev.Over → if success then
      lev.terminating = true ∨ lev.publishState = .ok else lev.publishState = .error) :
    (s.onPublishResponse lev success).Inv := by
  have hinv := h.lev lev hlev
  have hst := (hinv.publication hkind).2
  have hover : lev.Over → lev.publishState = .cleared ∨ lev.expires = -1 := by
    rintro (hterminated | hcleared | ⟨hexpires, -⟩)
    · exact absurd (hst.symm.trans hterminated) (by decide)
    · exact .inl hcleared
    · exact .inr hexpires
  unfold onPublishResponse
  cases success with
  | true =>
      rw [if_pos rfl]
      split
      · rename_i hterminating
        refine inv_setPublishState h.toRest hinv hkind (fun ho hne => ?_) fun _ heq =>
          LinphonePublishState.noConfusion heq
        rcases hcareful ho with htrue | hok
        · exact absurd htrue hterminating
        · exact absurd hok hne
      · rename_i hterminating
        have hterminating' : lev.terminating = true := Decidable.not_not.mp hterminating
        refine inv_setPublishState h.toRest hinv hkind (fun ho hne => ?_) fun hnot _ hexpires =>
          hnot (hinv.once hkind hexpires hterminating')
        exact ⟨(hover ho).resolve_left hne, rfl⟩
  | false =>
      rw [if_neg Bool.false_ne_true]
      split
      · rename_i hok
        refine inv_setPublishState h.toRest hinv hkind (fun ho _ => ?_) fun _ heq =>
          LinphonePublishState.noConfusion heq
        exact absurd (hok.symm.trans (hcareful ho)) (by decide)
      · refine inv_setPublishState h.toRest hinv hkind (fun ho hne => ?_) fun _ heq =>
          LinphonePublishState.noConfusion heq
        exact absurd (hcareful ho) hne

theorem inv_onExpire (h : s.Inv) (hlev : s.lev = some lev)
    (hshot : s.publishes = true → lev.expires ≠ -1) : (s.onExpire lev).Inv := by
  have hinv := h.lev lev hlev
  unfold onExpire
  split
  · rename_i hok
    have hkind := publishes_of_state hinv (by rw [hok]; decide)
    refine inv_setPublishState h.toRest hinv hkind (fun ho _ => ?_) fun _ heq =>
      LinphonePublishState.noConfusion heq
    rcases ho with hterminated | hcleared | ⟨hexpires, -⟩
    · exact absurd ((hinv.publication hkind).2.symm.trans hterminated) (by decide)
    · exact absurd (hok.symm.trans hcleared) (by decide)
    · exact absurd hexpires (hshot hkind)
  · split
    · rename_i hactive
      have hkind := subscribes_of_state hinv (by rw [hactive]; decide)
      exact inv_setState h.toRest hinv hkind fun hterminated =>
        LinphoneSubscriptionState.noConfusion (hactive.symm.trans hterminated)
    · exact h

/-! ## Runs -/

theorem inv_starts (h : s.Starts) : s.Inv := by
  have hone : ∀ (publishes : Bool) (lev : LinphoneEvent), lev.Inv publishes [] →
      EventOp.Inv { publishes := publishes, lev := some lev } := by
    intro publishes lev hlev
    refine ⟨⟨fun _ hmem => absurd hmem List.not_mem_nil, fun _ hmem => absurd hmem List.not_mem_nil,
      rfl⟩, fun lev' heq => ?_, fun _ _ hmem => absurd hmem List.not_mem_nil⟩
    exact Option.some.inj heq ▸ hlev
  cases h with
  | createSubscribe expires =>
      exact hone _ _ (inv_new ⟨fun _ => LinphoneSubscriptionDir.noConfusion, fun _ => rfl⟩ rfl rfl
        rfl rfl rfl rfl rfl)
  | createPublish expires =>
      refine hone _ _ (inv_new ⟨fun hb => ?_, fun hdir => ?_⟩ rfl rfl rfl rfl rfl rfl rfl)
      · exact absurd hb (by decide)
      · exact absurd rfl hdir
  | received =>
      exact ⟨⟨fun _ hmem => absurd hmem List.not_mem_nil, fun _ hmem =>
        absurd hmem List.not_mem_nil,
        rfl⟩, fun _ heq => absurd heq (by simp), fun _ _ hmem => absurd hmem List.not_mem_nil⟩

theorem inv_onLev (h : s.Inv) {f : LinphoneEvent → EventOp}
    (hf : ∀ lev, s.lev = some lev → (f lev).Inv) : (EventStep.onLev s f).Inv := by
  unfold EventStep.onLev
  cases hlev : s.lev with
  | none => exact h
  | some lev => exact hf lev hlev

theorem inv_after (h : s.Inv) {e : EventStep} (henabled : e.Enabled s) (hcareful : e.Careful s) :
    (e.after s).Inv := by
  cases e with
  | sendSubscribe err => exact inv_onLev h fun lev hlev => inv_sendSubscribe h hlev err
  | acceptSubscription err => exact inv_onLev h fun lev hlev => inv_acceptSubscription h hlev err
  | denySubscription => exact inv_onLev h fun lev hlev => inv_denySubscription h hlev
  | sendPublish err =>
      exact inv_onLev h fun lev hlev => inv_sendPublish h hlev err true (hcareful lev hlev)
  | corePublish err =>
      obtain ⟨hstack, lev', hlev, hnew⟩ := henabled
      refine inv_onLev h fun lev hsome => ?_
      obtain rfl := Option.some.inj (hlev.symm.trans hsome)
      rw [hnew] at hlev ⊢
      exact inv_corePublish h hstack hlev err
  | terminate => exact inv_onLev h fun lev hlev => inv_terminate h hlev (hcareful lev hlev)
  | ref => exact inv_onLev h fun lev hlev => inv_ref h hlev
  | unref =>
      obtain ⟨lev', hlev', happ⟩ := henabled
      refine inv_onLev h fun lev hlev => ?_
      obtain rfl := Option.some.inj (hlev'.symm.trans hlev)
      exact inv_unref h hlev happ (hcareful lev' hlev)
  | ret => exact inv_ret h hcareful
  | subscribeResponse status ioError =>
      exact inv_onLev h fun lev hlev =>
        inv_subscribeResponse h hlev henabled.2 (hcareful lev hlev) status ioError
  | notify st => exact inv_notify h henabled.1 henabled.2 st
  | subscribeReceived => exact inv_subscribeReceived h henabled.1 henabled.2
  | subscribeClosed =>
      obtain ⟨lev, hlev⟩ := Option.ne_none_iff_exists'.mp hcareful
      have hclosed : EventStep.subscribeClosed.after s = s.setState lev .terminated := by
        simp [EventStep.after, withLev, hlev]
      rw [hclosed]
      exact inv_setState h.toRest (h.lev lev hlev) henabled.2 fun _ => rfl
  | publishResponse success =>
      exact inv_onLev h fun lev hlev =>
        inv_onPublishResponse h hlev henabled.2 (hcareful lev hlev)
  | expire =>
      exact inv_onLev h fun lev hlev => inv_onExpire h hlev fun hb => henabled.2 hb lev hlev

/-- **The reference of the core is released once and when the event is over, Terminated is never
left, and only events that exist are used**, in every run whose steps are careful. -/
theorem kept_of_run (h : EventRun EventStep.Careful s) : s.Kept := by
  have hinv : s.Inv := by
    induction h with
    | start hstarts => exact inv_starts hstarts
    | step e _ henabled hcareful ih => exact inv_after ih henabled hcareful
  exact hinv.kept

end inv

/-- A run over a list of steps. -/
def EventOp.afterSteps (s : EventOp) (steps : List EventStep) : EventOp :=
  steps.foldl (fun s e => e.after s) s

/-- A subscription that is received, accepted and closed by the other side. -/
theorem kept_closed : EventOp.Kept (EventOp.afterSteps { publishes := false }
    [.subscribeReceived, .ret, .acceptSubscription 0, .ret, .subscribeClosed, .ret]) :=
  kept_of_run (.step .ret (.step .subscribeClosed (.step .ret (.step (.acceptSubscription 0)
    (.step .ret (.step .subscribeReceived (.start .received) (by decide) (by decide)) (by decide)
      (by decide)) (by decide) (by decide)) (by decide) (by decide)) (by decide) (by decide))
    (by decide) (by decide))

/-- A subscription that was terminated here is closed by the other side, and the callback uses the
event that was destroyed. -/
theorem closed_without_event : ¬∀ s : EventOp, EventRun (fun _ _ => True) s → s.Kept := by
  intro h
  have hkept := h _ (.step .subscribeClosed (.step .ret (.step .terminate (.step .ret
    (.step (.acceptSubscription 0) (.step .ret (.step .subscribeReceived (.start .received)
      (by decide) trivial) (by decide) trivial) (by decide) trivial) (by decide) trivial)
        (by decide)
      trivial) (by decide) trivial) (by decide) trivial)
  exact absurd hkept.used (by decide)

end Linphone
