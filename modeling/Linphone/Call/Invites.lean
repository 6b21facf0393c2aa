import Linphone.Call.Failure
import Mathlib.Data.Nat.Basic
import Mathlib.Order.Basic

/-!
# Answers to an INVITE

Every exit of `call_received`: the INVITE is declined or redirected, its call is added to
`lc->calls`, or the operation is released without a word. The exit is chosen in `receiveCall`,
which notifies nobody, from the presence model, the list of calls and the offer.

`answered_iff` is the exact condition on the presence model under which an INVITE is not dropped.
-/

namespace Linphone

open Reentrant

/-! ## What is recorded of responses -/

/-- A final response was sent for the INVITE, or its call was added to `lc->calls`. -/
def Answered (s s' : Core) : Prop :=
  s.refused < s'.refused ∨
    s.created < s'.created ∧
      (0 < (s'.call s.created).responses ∨ (s'.call s.created).added = true)

/-- Responses stay sent, and a call that was added to the list was added. -/
structure Core.Records (s s' : Core) : Prop where
  refused : s.refused ≤ s'.refused
  created : s.created ≤ s'.created
  responses : ∀ c, c < s.created → (s.call c).responses ≤ (s'.call c).responses
  added : ∀ c, c < s.created → (s.call c).added = true → (s'.call c).added = true

namespace Core.Records

theorem refl (s : Core) : s.Records s :=
  ⟨le_rfl, le_rfl, fun _ _ => le_rfl, fun _ _ h => h⟩

theorem trans {s s' s'' : Core} (h₁ : s.Records s') (h₂ : s'.Records s'') : s.Records s'' where
  refused := h₁.refused.trans h₂.refused
  created := h₁.created.trans h₂.created
  responses c hc := (h₁.responses c hc).trans (h₂.responses c (hc.trans_le h₁.created))
  added c hc h := h₂.added c (hc.trans_le h₁.created) (h₁.added c hc h)

theorem modify (s : Core) (c : CallId) {f : CallRec → CallRec}
    (hr : (s.call c).responses ≤ (f (s.call c)).responses)
    (ha : (s.call c).added = true → (f (s.call c)).added = true) : s.Records (s.modify c f) := by
  refine ⟨le_rfl, le_rfl, fun d _ => ?_, fun d _ => ?_⟩
  · by_cases h : d = c
    · rw [h, Core.modify_call_self]
      exact hr
    · rw [Core.modify_call_ne _ _ h]
  · by_cases h : d = c
    · rw [h, Core.modify_call_self]
      exact ha
    · rw [Core.modify_call_ne _ _ h]
      exact id

theorem apply (x : Action) (s : Core) : s.Records (x.apply s) := by
  cases x with
  | create data =>
      have hne : ∀ c, c < s.created → (Action.apply (.create data) s).call c = s.call c :=
        fun c hc => Function.update_of_ne (Nat.ne_of_lt hc) _ _
      refine ⟨le_rfl, Nat.le_succ _, fun c hc => ?_, fun c hc => ?_⟩
      · rw [hne c hc]
      · rw [hne c hc]
        exact id
  | addCall c =>
      have h := modify s c (f := fun r => { r with added := true }) le_rfl fun _ => rfl
      exact ⟨h.refused, h.created, h.responses, h.added⟩
  | logCompleted c =>
      have h := modify s c (f := fun r => { r with completed := r.completed + 1 }) le_rfl id
      exact ⟨h.refused, h.created, h.responses, h.added⟩
  | refuse => exact ⟨Nat.le_succ _, le_rfl, fun _ _ => le_rfl, fun _ _ h => h⟩
  | respond c =>
      exact modify s c (f := fun r => { r with responses := r.responses + 1 }) (Nat.le_succ _) id
  | assign c cstate => exact modify s c (f := (·.assign cstate)) le_rfl id
  | createOp c => exact modify s c (f := fun r => { r with op := true }) le_rfl id
  | releaseOp c => exact modify s c (f := fun r => { r with op := false }) le_rfl id
  | dropReference c => exact modify s c (f := fun r => { r with drops := r.drops + 1 }) le_rfl id
  | edit c f => exact modify s c (f := fun r => { r with data := f r.data }) le_rfl id
  | delCall c | makeCurrent site c | clearCurrent | editConference f | queueTask c
  | dequeueTask c => exact ⟨le_rfl, le_rfl, fun _ _ => le_rfl, fun _ _ h => h⟩

theorem of_play {α : Type} {answers : (q : Query) → q.Answer} {p : CoreProg α} {a : α}
    {s s' : Core} (h : quietly answers p s = some (a, s')) : s.Records s' :=
  Prog.rel_of_play_any (E := Records) refl trans (fun x s => apply x s) h

end Core.Records

/-- An INVITE that is answered remains answered. -/
theorem Answered.later {s s' s'' : Core} (h : Answered s s') (hr : s'.Records s'') :
    Answered s s'' := by
  rcases h with h | ⟨hc, h⟩
  · exact .inl (h.trans_le hr.refused)
  · refine .inr ⟨hc.trans_le hr.created, h.imp (fun h => ?_) fun h => hr.added _ hc h⟩
    exact h.trans_le (hr.responses _ hc)

/-! ## The condition on the presence model -/

/-- The activity `call_received` goes by: the one shown, or offline when there is none. -/
def activityShown (model : Option PresenceModel) : PresenceActivityType :=
  (model.bind PresenceModel.shownActivity).getD .offline

/-- Some service is open, or the activity is one that is declined, or permanent absence with a
contact to redirect to. -/
def Responds (model : Option PresenceModel) : Prop :=
  (∃ m, model = some m ∧ ∃ service ∈ m.services, service.status = .open) ∨
    activityShown model ∈
      [PresenceActivityType.busy, .appointment, .meeting, .offline, .worship] ∨
    activityShown model = .permanentAbsence ∧ ∃ m contact, model = some m ∧
      m.getContact = some contact

theorem presenceDeclines_iff (model : Option PresenceModel) :
    presenceDeclines model = true ↔
      activityShown model ∈
        [PresenceActivityType.busy, .appointment, .meeting, .offline, .worship] ∨
      activityShown model = .permanentAbsence ∧ ∃ m contact, model = some m ∧
        m.getContact = some contact := by
  have hcontact : (model.bind PresenceModel.getContact).isSome = true ↔
      ∃ m contact, model = some m ∧ m.getContact = some contact := by
    rw [Option.isSome_iff_exists]
    constructor
    · rintro ⟨contact, h⟩
      obtain ⟨m, hm, hc⟩ := Option.bind_eq_some_iff.mp h
      exact ⟨m, contact, hm, hc⟩
    · rintro ⟨m, contact, hm, hc⟩
      exact ⟨contact, by rw [hm]; exact hc⟩
  rw [presenceDeclines, presenceModelGetActivity_eq, presenceActivityGetType, ← activityShown,
    ← hcontact]
  cases activityShown model <;> simp

theorem responds_iff (model : Option PresenceModel) :
    Responds model ↔
      (presenceModelGetBasicStatus model = .closed → presenceDeclines model = true) := by
  rw [presenceModelGetBasicStatus_closed, presenceDeclines_iff, Responds]
  constructor
  · rintro (⟨m, hm, service, hs, hopen⟩ | h) hclosed
    · exact absurd hopen (hclosed m hm service hs)
    · exact h
  · intro h
    by_cases hopen : ∃ m, model = some m ∧ ∃ service ∈ m.services, service.status = .open
    · exact .inl hopen
    · refine .inr (h fun m hm service hs => ?_)
      exact fun ho => hopen ⟨m, hm, service, hs, ho⟩

/-! ## The exits -/

section runs

variable {answers : (q : Query) → q.Answer} {s : Core}

theorem play_prepareIce (answers : (q : Query) → q.Answer) (s : Core) (c : CallId) :
    ∃ b f, quietly answers (prepareIce c) s = some (b, s.edited c f) := by
  have hid : s.edited c id = s := by
    simp [Core.edited, Core.modify]
  rw [prepareIce, play_readCall]
  split
  · rw [play_ask]
    cases answers (.prepareIce c) with
    | gathering => exact ⟨true, id, by rw [hid]; rfl⟩
    | ready => exact ⟨false, id, by rw [hid]; rfl⟩
    | deleted => exact ⟨false, fun d => { d with iceSession := false }, rfl⟩
  · exact ⟨false, id, by rw [hid]; rfl⟩

theorem play_newIncoming (answers : (q : Query) → q.Answer) (s : Core) :
    ∃ s', quietly answers newIncoming s = some (s.created, s') ∧
      s'.created = s.created + 1 ∧ s'.calls = s.calls ∧ s'.maxCalls = s.maxCalls := by
  rw [newIncoming, play_getCore, play_ask, play_ask, flag, play_ask]
  rw [play_seq (p := perform _) rfl, play_seq (play_edit _)]
  obtain ⟨b, f, hice⟩ := play_prepareIce answers (Core.edited _ s.created _) s.created
  rw [play_seq hice]
  exact ⟨_, rfl, rfl, rfl, rfl⟩

theorem play_receiveCall_closed
    (hc : presenceModelGetBasicStatus (answers .presenceModel) = .closed) :
    quietly answers receiveCall s =
      some (none, if presenceDeclines (answers .presenceModel) then
        { s with refused := s.refused + 1 } else s) := by
  rw [receiveCall, play_getCore, play_ask, flag, play_ask, if_pos hc]
  cases presenceDeclines (answers .presenceModel) <;> rfl

/-- The other exits decline the INVITE or add its call. -/
theorem play_receiveCall_open
    (ho : presenceModelGetBasicStatus (answers .presenceModel) ≠ .closed) :
    ∃ r s', quietly answers receiveCall s = some (r, s') ∧ Answered s s' := by
  rw [receiveCall, play_getCore, play_ask, flag, play_ask, if_neg ho]
  split
  · rename_i hroom
    obtain ⟨s₁, h₁, hcreated, hcalls, hmax⟩ := play_newIncoming answers s
    rw [play_seq h₁, play_seq play_makeLocalMediaDescription, play_ask, flag, play_ask]
    split
    · refine ⟨none, _, rfl, .inr ⟨?_, .inl ?_⟩⟩
      · change s.created < s₁.created
        omega
      · simp [Action.apply]
    · have hadd : quietly answers (addCall s.created) (s₁.edited s.created
          (·.makeLocal (answers .mediaLib) (answers (.localDescription s.created)))) =
          some (true, Action.apply (.addCall s.created) (s₁.edited s.created
            (·.makeLocal (answers .mediaLib) (answers (.localDescription s.created))))) := by
        rw [addCall, play_getCore, if_pos]
        · rfl
        · change s₁.calls.length < s₁.maxCalls
          rw [hcalls, hmax]
          exact hroom.1
      rw [play_seq hadd]
      refine ⟨some s.created, _, rfl, .inr ⟨?_, .inr ?_⟩⟩
      · change s.created < s₁.created
        omega
      · simp [Action.apply]
  · exact ⟨none, _, rfl, .inl (Nat.lt_succ_self _)⟩

end runs

/-- **Answers to an INVITE.** The decision of `call_received` comes to an end, and its INVITE is
answered or its call added if and only if the presence model is one that responds; nothing that
ringing does changes that. -/
theorem answered_iff (answers : (q : Query) → q.Answer) (s : Core) :
    (∃ r s', quietly answers receiveCall s = some (r, s') ∧
      (Answered s s' ↔ Responds (answers .presenceModel))) ∧
    ∀ s', quietly answers callReceived s = some ((), s') →
      (Answered s s' ↔ Responds (answers .presenceModel)) := by
  have hdecided : ∃ r s', quietly answers receiveCall s = some (r, s') ∧
      (Answered s s' ↔ Responds (answers .presenceModel)) ∧
      (¬Responds (answers .presenceModel) → r = none) := by
    by_cases hc : presenceModelGetBasicStatus (answers .presenceModel) = .closed
    · have hr : Responds (answers .presenceModel) ↔
          presenceDeclines (answers .presenceModel) = true := by
        rw [responds_iff]
        exact ⟨fun h => h hc, fun h _ => h⟩
      refine ⟨none, _, play_receiveCall_closed hc, ?_, fun _ => rfl⟩
      rw [hr]
      cases presenceDeclines (answers .presenceModel) <;> simp [Answered]
    · have hr : Responds (answers .presenceModel) :=
        (responds_iff _).mpr fun h => absurd h hc
      obtain ⟨r, s', h, ha⟩ := play_receiveCall_open (s := s) hc
      exact ⟨r, s', h, ⟨fun _ => hr, fun _ => ha⟩, fun h => absurd hr h⟩
  obtain ⟨r, s₁, h₁, hiff, hnone⟩ := hdecided
  refine ⟨⟨r, s₁, h₁, hiff⟩, fun s' h => ?_⟩
  rw [callReceived, play_seq h₁] at h
  by_cases hr : Responds (answers .presenceModel)
  · exact ⟨fun _ => hr, fun _ => (hiff.mpr hr).later (.of_play h)⟩
  · rw [hnone hr] at h
    cases h
    exact hiff

/-! ## A user who is away -/

/-- The user closed the only service and is away. -/
def away : PresenceModel where
  services := [{ status := .closed }]
  persons := [{ activities := [.away] }]

/-- With a user who is away and not open, the INVITE is dropped without a response. -/
theorem dropped_when_away :
    ¬∀ (answers : (q : Query) → q.Answer) (s s' : Core),
      quietly answers callReceived s = some ((), s') → Answered s s' := by
  intro h
  let answers : (q : Query) → q.Answer
    | .presenceModel => some away
    | q => plainAnswers q
  rcases h answers {} {} rfl with hr | ⟨hc, -⟩
  · exact absurd hr (by decide)
  · exact absurd hc (by decide)

end Linphone
