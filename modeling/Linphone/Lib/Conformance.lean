import Mathlib.Data.List.Basic
import Mathlib.Data.List.Infix

/-!
# Runs beside a reference

A machine whose steps may leave what is defined is run on the same events as a reference that is
defined throughout. It conforms when after each beginning of the events it is somewhere, and in
relation to the reference.

`conforms_iff`: when a step from related states conforms exactly if a guard allows it, a run
conforms exactly if each of its steps is allowed.
-/

namespace Conformance

variable {σ τ ε : Type*} (step : σ → ε → Option σ) (ref : τ → ε → τ) (Related : σ → τ → Prop)
  (ok : σ → ε → Prop)

def run (s : σ) : List ε → Option σ
  | [] => some s
  | e :: events => (step s e).bind (run · events)

/-- After each beginning of the events the machine is defined and related to the reference. -/
def Conforms (s : σ) (t : τ) (events : List ε) : Prop :=
  ∀ before, before <+: events → ∃ s', run step s before = some s' ∧ Related s' (before.foldl ref t)

/-- Each step is allowed where it is made. -/
def Allowed (s : σ) (events : List ε) : Prop :=
  ∀ before e, before ++ [e] <+: events → ∀ s', run step s before = some s' → ok s' e

variable {step ref Related ok} {s s' : σ} {t : τ} {e : ε} {events : List ε}

theorem conforms_cons :
    Conforms step ref Related s t (e :: events) ↔
      Related s t ∧ ∃ s', step s e = some s' ∧ Conforms step ref Related s' (ref t e) events := by
  constructor
  · intro h
    obtain ⟨s₀, hs₀, hrel⟩ := h [] List.nil_prefix
    obtain ⟨s₁, hs₁, -⟩ := h [e] (by simp)
    cases hs₀
    refine ⟨hrel, ?_⟩
    cases hstep : step s e with
    | none => simp [run, hstep] at hs₁
    | some s₂ =>
      refine ⟨s₂, rfl, fun before hbefore => ?_⟩
      obtain ⟨s', hs', hrel'⟩ := h (e :: before) (List.cons_prefix_cons.mpr ⟨rfl, hbefore⟩)
      rw [run, hstep, Option.bind_some] at hs'
      exact ⟨s', hs', hrel'⟩
  · rintro ⟨hrel, s', hstep, h⟩ before hbefore
    cases before with
    | nil => exact ⟨s, rfl, hrel⟩
    | cons e' before =>
      obtain ⟨rfl, hrest⟩ := List.cons_prefix_cons.mp hbefore
      rw [run, hstep, Option.bind_some]
      exact h before hrest

theorem allowed_cons :
    Allowed step ok s (e :: events) ↔
      ok s e ∧ ∀ s', step s e = some s' → Allowed step ok s' events := by
  constructor
  · intro h
    refine ⟨h [] e (by simp) s rfl, fun s' hstep before e' hbefore s'' hs'' => ?_⟩
    refine h (e :: before) e' (List.cons_prefix_cons.mpr ⟨rfl, hbefore⟩) s'' ?_
    rw [run, hstep, Option.bind_some, hs'']
  · rintro ⟨hok, h⟩ before e' hbefore s' hs'
    cases before with
    | nil =>
      rw [List.nil_append, List.cons_prefix_cons] at hbefore
      cases hs'
      exact hbefore.1 ▸ hok
    | cons e₀ before =>
      obtain ⟨rfl, hrest⟩ := List.cons_prefix_cons.mp hbefore
      rw [run, Option.bind_eq_some_iff] at hs'
      obtain ⟨s₁, hstep, hs'⟩ := hs'
      exact h s₁ hstep before e' hrest s' hs'

/-- A run conforms when each step is allowed. -/
theorem conforms_of_allowed
    (hstep : ∀ s t e, Related s t → ok s e → ∃ s', step s e = some s' ∧ Related s' (ref t e))
    (h : Related s t) (hallowed : Allowed step ok s events) :
    Conforms step ref Related s t events := by
  induction events generalizing s t with
  | nil =>
    intro before hbefore
    rw [List.prefix_nil.mp hbefore]
    exact ⟨s, rfl, h⟩
  | cons e events ih =>
    obtain ⟨hok, hrest⟩ := allowed_cons.mp hallowed
    obtain ⟨s', hs', hrel⟩ := hstep s t e h hok
    exact conforms_cons.mpr ⟨h, s', hs', ih hrel (hrest s' hs')⟩

/-- **A run conforms exactly if each step is allowed.** -/
theorem conforms_iff
    (hstep : ∀ s t e, Related s t →
      ((∃ s', step s e = some s' ∧ Related s' (ref t e)) ↔ ok s e))
    (h : Related s t) : Conforms step ref Related s t events ↔ Allowed step ok s events := by
  refine ⟨fun hconforms => ?_, conforms_of_allowed (fun s t e hrel => (hstep s t e hrel).mpr) h⟩
  induction events generalizing s t with
  | nil =>
    intro before e hbefore
    simp at hbefore
  | cons e events ih =>
    obtain ⟨-, s', hs', hrest⟩ := conforms_cons.mp hconforms
    have hrel : Related s' (ref t e) := by
      obtain ⟨s₀, hs₀, hrel⟩ := hrest [] List.nil_prefix
      cases hs₀
      exact hrel
    refine allowed_cons.mpr ⟨(hstep s t e h).mp ⟨s', hs', hrel⟩, fun s'' hs'' => ?_⟩
    rw [hs', Option.some.injEq] at hs''
    exact hs'' ▸ ih hrel hrest

/-- What every step keeps may be assumed of the states of a run. -/
theorem conforms_and_iff {Inv : σ → Prop}
    (hinv : ∀ s e s', Inv s → step s e = some s' → Inv s') (h : Inv s) :
    Conforms step ref (fun s t => Related s t ∧ Inv s) s t events ↔
      Conforms step ref Related s t events := by
  have hrun : ∀ before s₀ s', Inv s₀ → run step s₀ before = some s' → Inv s' := by
    intro before
    induction before with
    | nil =>
      intro s₀ s' h₀ hs'
      cases hs'
      exact h₀
    | cons e before ih =>
      intro s₀ s' h₀ hs'
      obtain ⟨s₁, hs₁, hrest⟩ := Option.bind_eq_some_iff.mp hs'
      exact ih s₁ s' (hinv s₀ e s₁ h₀ hs₁) hrest
  constructor
  · intro hconforms before hbefore
    obtain ⟨s', hs', hrel, -⟩ := hconforms before hbefore
    exact ⟨s', hs', hrel⟩
  · intro hconforms before hbefore
    obtain ⟨s', hs', hrel⟩ := hconforms before hbefore
    exact ⟨s', hs', hrel, hrun before s s' h hs'⟩

/-- A machine that carries more along conforms as the one it carries. -/
theorem conforms_proj {σ' : Type*} {step' : σ' → ε → Option σ'} {proj : σ' → σ} {s : σ'}
    (hproj : ∀ s e, (step' s e).map proj = step (proj s) e) :
    Conforms step' ref (fun s t => Related (proj s) t) s t events ↔
      Conforms step ref Related (proj s) t events := by
  have hrun : ∀ (before : List ε) (s : σ'),
      (run step' s before).map proj = run step (proj s) before := by
    intro before
    induction before with
    | nil => exact fun s => rfl
    | cons e before ih =>
      intro s
      rw [run, run, ← hproj, Option.map_bind, Option.bind_map]
      exact congrArg ((step' s e).bind ·) (funext ih)
  refine forall₂_congr fun before _ => ?_
  rw [← hrun]
  constructor
  · rintro ⟨s', hs', hrel⟩
    exact ⟨proj s', by rw [hs']; rfl, hrel⟩
  · rintro ⟨s₀, hs₀, hrel⟩
    obtain ⟨s', hs', rfl⟩ := Option.map_eq_some_iff.mp hs₀
    exact ⟨s', hs', hrel⟩

end Conformance
