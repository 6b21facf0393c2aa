import Mathlib.Tactic.Common

/-!
# Call states

`LinphoneCallState` and what `linphone_call_set_state` (`coreapi/linphonecall.c`) does to
`call->state` and `call->prevstate`. The rest of that function, which ends calls and notifies the
application, is in `Linphone.Call.Core`.

`prevstate` is what failed operations fall back to. It is assigned before the function knows
whether the event is going to change the state: a transition out of an ended call is ignored
after the assignment, and `LinphoneCallRefered` is an event that never becomes the state. A `Run`
keeps the states the call really was in next to the variables, and `alwaysPrevOk_iff` says in
which runs `prevstate` is the last of them.
-/

namespace Linphone

/-- `LinphoneCallState` -/
inductive CallState
  | idle | incomingReceived | outgoingInit | outgoingProgress | outgoingRinging
  | outgoingEarlyMedia | connected | streamsRunning | pausing | paused | resuming | refered
  | error | end | pausedByRemote | updatedByRemote | incomingEarlyMedia | updating | released
  | earlyUpdatedByRemote | earlyUpdating
deriving DecidableEq, Inhabited

/-- Final states before the release. -/
def CallState.ended (s : CallState) : Bool := s = .end || s = .error

/-- `call->state` and `call->prevstate` -/
structure StateVars where
  state : CallState := .idle
  prevstate : CallState := .idle
deriving DecidableEq, Inhabited

/-- How far `linphone_call_set_state` gets: the state was that one already, the change is ignored
as spurious, or the application is notified. -/
inductive SetStateOutcome
  | same | spurious | notified
deriving DecidableEq

/-- The assignments of `linphone_call_set_state`. -/
def StateVars.setState (v : StateVars) (cstate : CallState) : StateVars × SetStateOutcome :=
  if v.state ≠ cstate then
    let v := { v with prevstate := v.state }
    if v.state.ended && cstate ≠ .released then (v, .spurious)
    else
      -- Refered is rather an event, not a state
      (if cstate ≠ .refered then { v with state := cstate } else v, .notified)
  else (v, .same)

/-! ## Runs -/

/-- What is asked of a call: a given state, or the one it came from. -/
inductive StateEvent
  | set (cstate : CallState)
  | restore

/-- The variables, and the values `call->state` had before, the latest first. -/
structure Run where
  vars : StateVars := {}
  past : List CallState := []

namespace Run

/-- The state an event asks for. -/
def target (r : Run) : StateEvent → CallState
  | .set cstate => cstate
  | .restore => r.vars.prevstate

def step (r : Run) (ev : StateEvent) : Run where
  vars := (r.vars.setState (r.target ev)).1
  past := r.vars.state :: r.past

/-- The last state before the current one; a call that never moved has none, and its `prevstate`
is the initial one. -/
def lastReal (r : Run) : CallState := (r.past.find? (· ≠ r.vars.state)).getD .idle

/-- `prevstate` is the last real state. -/
def PrevOk (r : Run) : Prop := r.vars.prevstate = r.lastReal

/-- The states an operation passes through while its outcome is pending. -/
def transient : CallState → Bool
  | .pausing | .resuming | .updating | .updatedByRemote | .earlyUpdating
  | .earlyUpdatedByRemote => true
  | _ => false

/-- Restoring `prevstate` leaves a transient state. -/
def RestoreLeaves (r : Run) : Prop :=
  transient r.vars.state = true →
    (r.step .restore).vars.state = r.vars.prevstate ∧ r.vars.prevstate ≠ r.vars.state

/-- The call has been in no state but the current one. -/
def Unmoved (r : Run) : Prop := ∀ s ∈ r.past, s = r.vars.state

/-- The event leaves the state alone for being the one it asks for, changes it, or comes before
the call ever moved: it is neither `Refered` nor ignored. -/
def Regular (r : Run) (ev : StateEvent) : Prop :=
  r.target ev = r.vars.state ∨
    (r.target ev ≠ .refered ∧ (r.vars.state.ended = true → r.target ev = .released)) ∨
    r.Unmoved

/-- Every event of the run is regular. -/
def RegularRun : Run → List StateEvent → Prop
  | _, [] => True
  | r, ev :: evs => r.Regular ev ∧ RegularRun (r.step ev) evs

/-- In every state of the run `prevstate` is the last real state, and restoring it leaves the
transient states. -/
def AlwaysPrevOk : Run → List StateEvent → Prop
  | r, [] => r.PrevOk ∧ r.RestoreLeaves
  | r, ev :: evs => (r.PrevOk ∧ r.RestoreLeaves) ∧ AlwaysPrevOk (r.step ev) evs

/-! ## The invariant -/

/-- What holds in every run: `Refered` is never the state, and a call that never moved is idle. -/
structure Inv (r : Run) : Prop where
  state_ne : r.vars.state ≠ .refered
  past_ne : ∀ s ∈ r.past, s ≠ .refered
  unmoved : r.Unmoved → r.vars.state = .idle

/-- What one event does to the variables. -/
theorem setState_cases (v : StateVars) (c : CallState) :
    (c = v.state ∧ (v.setState c).1 = v) ∨
    (c ≠ v.state ∧ (c = .refered ∨ v.state.ended = true ∧ c ≠ .released) ∧
      (v.setState c).1 = { state := v.state, prevstate := v.state }) ∨
    (c ≠ v.state ∧ c ≠ .refered ∧ (v.state.ended = true → c = .released) ∧
      (v.setState c).1 = { state := c, prevstate := v.state }) := by
  unfold StateVars.setState
  by_cases hc : v.state = c
  · exact .inl ⟨hc.symm, by simp [hc]⟩
  · rw [if_pos hc]
    have hc' : c ≠ v.state := Ne.symm hc
    by_cases hsp : v.state.ended = true ∧ c ≠ .released
    · exact .inr (.inl ⟨hc', .inr hsp, by simp [hsp.1, hsp.2]⟩)
    · have hnsp : (v.state.ended && decide (c ≠ .released)) = false := by
        by_contra h
        simp only [Bool.not_eq_false, Bool.and_eq_true, decide_eq_true_eq] at h
        exact hsp h
      by_cases href : c = .refered
      · exact .inr (.inl ⟨hc', .inl href, by simp [href] at hnsp ⊢; simp [hnsp]⟩)
      · refine .inr (.inr ⟨hc', href, fun he => ?_, by simp only [hnsp]; simp [href]⟩)
        by_contra hne
        exact hsp ⟨he, hne⟩

theorem inv_start : ({} : Run).Inv :=
  ⟨by decide, by simp, fun _ => rfl⟩

theorem inv_step {r : Run} (h : r.Inv) (ev : StateEvent) : (r.step ev).Inv := by
  have hpast : ∀ s ∈ (r.step ev).past, s ≠ .refered := by
    intro s hs
    rcases List.mem_cons.mp hs with rfl | hs
    · exact h.state_ne
    · exact h.past_ne s hs
  have hkept : (r.step ev).vars.state = r.vars.state → (r.step ev).Inv := by
    intro heq
    refine ⟨heq ▸ h.state_ne, hpast, fun hun => ?_⟩
    rw [heq]
    exact h.unmoved fun s hs => (hun s (List.mem_cons_of_mem _ hs)).trans heq
  rcases setState_cases r.vars (r.target ev) with ⟨-, heq⟩ | ⟨-, -, heq⟩ | ⟨hc, href, -, heq⟩
  · exact hkept (by simp only [step, heq])
  · exact hkept (by simp only [step, heq])
  · refine ⟨by simpa only [step, heq] using href, hpast, fun hun => ?_⟩
    -- the state it just left is another one
    have hold := hun r.vars.state (List.mem_cons_self ..)
    simp only [step, heq] at hold
    exact absurd hold.symm hc

theorem lastReal_ne {r : Run} (h : ¬r.Unmoved) : r.lastReal ≠ r.vars.state := by
  unfold Unmoved at h
  push Not at h
  obtain ⟨s, hs, hne⟩ := h
  unfold lastReal
  cases hf : r.past.find? (· ≠ r.vars.state) with
  | none => exact absurd (List.find?_eq_none.mp hf s hs) (by simpa using hne)
  | some t => simpa using List.find?_some hf

theorem lastReal_unmoved {r : Run} (h : r.Unmoved) : r.lastReal = .idle := by
  have hf : r.past.find? (· ≠ r.vars.state) = none := by
    rw [List.find?_eq_none]
    intro s hs
    simpa using h s hs
  rw [lastReal, hf]
  rfl

/-- **One event keeps `prevstate` right exactly when it is regular.** -/
theorem prevOk_step_iff {r : Run} (hinv : r.Inv) (h : r.PrevOk) (ev : StateEvent) :
    (r.step ev).PrevOk ↔ r.Regular ev := by
  have hlast : ∀ v : StateVars, v.state = r.vars.state →
      (Run.mk v (r.vars.state :: r.past)).lastReal = r.lastReal := by
    intro v hv
    simp [lastReal, hv]
  rcases setState_cases r.vars (r.target ev) with ⟨hc, heq⟩ | ⟨hc, hirr, heq⟩ | ⟨hc, href, he, heq⟩
  · have hok : (r.step ev).PrevOk := by
      simp only [PrevOk, step, heq, hlast r.vars rfl]
      exact h
    exact ⟨fun _ => .inl hc, fun _ => hok⟩
  · -- the state stays and becomes its own predecessor
    have hiff : (r.step ev).PrevOk ↔ r.vars.state = r.lastReal := by
      simp only [PrevOk, step, heq, hlast ⟨r.vars.state, r.vars.state⟩ rfl]
    rw [hiff]
    constructor
    · intro heq
      by_contra hreg
      exact lastReal_ne (fun hun => hreg (.inr (.inr hun))) heq.symm
    · rintro (hsame | ⟨hnref, hrel⟩ | hun)
      · exact absurd hsame hc
      · rcases hirr with href | ⟨hend, hne⟩
        · exact absurd href hnref
        · exact absurd (hrel hend) hne
      · rw [lastReal_unmoved hun, hinv.unmoved hun]
  · have hok : (r.step ev).PrevOk := by
      have hne : r.vars.state ≠ r.target ev := Ne.symm hc
      simp [PrevOk, step, heq, lastReal, hne]
    exact ⟨fun _ => .inr (.inl ⟨href, he⟩), fun _ => hok⟩

/-- With `prevstate` right, restoring it leaves the transient states. -/
theorem restoreLeaves {r : Run} (hinv : r.Inv) (h : r.PrevOk) : r.RestoreLeaves := by
  intro htr
  have hne : r.vars.prevstate ≠ r.vars.state := by
    rw [h]
    apply lastReal_ne
    intro hun
    rw [hinv.unmoved hun] at htr
    exact absurd htr (by decide)
  have hnref : r.vars.prevstate ≠ .refered := by
    rw [h, lastReal]
    cases hf : r.past.find? (· ≠ r.vars.state) with
    | none => decide
    | some t => exact hinv.past_ne t (List.mem_of_find?_eq_some hf)
  refine ⟨?_, hne⟩
  rcases setState_cases r.vars r.vars.prevstate with ⟨hc, -⟩ | ⟨-, hirr, -⟩ | ⟨-, -, -, heq⟩
  · exact absurd hc hne
  · rcases hirr with href | ⟨hend, -⟩
    · exact absurd href hnref
    · -- an ended call is in no transient state
      cases hs : r.vars.state <;> rw [hs] at htr hend <;> exact absurd htr (by simp_all [transient,
        CallState.ended])
  · exact congrArg StateVars.state heq

theorem regularRun_iff_of {r : Run} (hinv : r.Inv) (h : r.PrevOk) (evs : List StateEvent) :
    RegularRun r evs ↔ AlwaysPrevOk r evs := by
  induction evs generalizing r with
  | nil => exact ⟨fun _ => ⟨h, restoreLeaves hinv h⟩, fun _ => trivial⟩
  | cons ev evs ih =>
      have hstep := prevOk_step_iff hinv h ev
      constructor
      · rintro ⟨hreg, hrest⟩
        exact ⟨⟨h, restoreLeaves hinv h⟩, (ih (inv_step hinv ev) (hstep.mpr hreg)).mp hrest⟩
      · rintro ⟨-, hrest⟩
        have hok : (r.step ev).PrevOk := by
          cases evs with
          | nil => exact hrest.1
          | cons => exact hrest.1.1
        exact ⟨hstep.mp hok, (ih (inv_step hinv ev) hok).mpr hrest⟩

/-- **`prevstate` is the last real state all along a run exactly when every event is regular.** -/
theorem alwaysPrevOk_iff (evs : List StateEvent) : AlwaysPrevOk {} evs ↔ RegularRun {} evs :=
  (regularRun_iff_of inv_start rfl evs).symm

/-- A REFER while the call is being paused: the refused pause restores `Pausing` itself. -/
theorem refer_while_pausing :
    ¬AlwaysPrevOk {} [.set .outgoingInit, .set .outgoingProgress, .set .connected,
      .set .streamsRunning, .set .pausing, .set .refered] := by
  intro h
  have hleaves := h.2.2.2.2.2.2.2 (by decide)
  exact hleaves.2 (by decide)

end Run

end Linphone
