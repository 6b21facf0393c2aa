import Mathlib.Data.List.Basic
import Mathlib.Logic.Function.Basic

/-!
# Assignments to keys that may be set

An assignment gives a key a value, or takes it away; one that does not overwrite leaves a key that
has a value. `run` makes a list of assignments one after the other.

`run_run`: running a list twice is running it once.
-/

namespace Assign

variable {κ ν : Type}

/-- A key, what it is set to, and whether it is overwritten. -/
structure Assignment (κ ν : Type) where
  key : κ
  overwrite : Bool
  value : Option ν

variable [DecidableEq κ] {c c' : κ → Option ν} {a : Assignment κ ν} {l : List (Assignment κ ν)}
  {k : κ}

/-- One assignment. -/
def step (c : κ → Option ν) (a : Assignment κ ν) : κ → Option ν :=
  if c a.key = none ∨ a.overwrite then Function.update c a.key a.value else c

/-- All assignments of a list. -/
def run (c : κ → Option ν) (l : List (Assignment κ ν)) : κ → Option ν := l.foldl step c

theorem step_ne (h : a.key ≠ k) : step c a k = c k := by
  unfold step
  split
  · exact Function.update_of_ne (Ne.symm h) _ _
  · rfl

theorem step_self : step c a a.key = if c a.key = none ∨ a.overwrite then a.value else c a.key := by
  unfold step
  split
  · exact Function.update_self _ _ _
  · rfl

theorem step_congr (h : c k = c' k) : step c a k = step c' a k := by
  by_cases ha : a.key = k
  · subst ha
    rw [step_self, step_self, h]
  · rw [step_ne ha, step_ne ha, h]

theorem run_congr (h : c k = c' k) : run c l k = run c' l k := by
  induction l generalizing c c' with
  | nil => exact h
  | cons a l ih => exact ih (step_congr h)

theorem run_frame (h : ∀ a ∈ l, a.key ≠ k) : run c l k = c k := by
  induction l generalizing c with
  | nil => rfl
  | cons a l ih =>
    exact (ih fun b hb => h b (List.mem_cons_of_mem a hb)).trans (step_ne (h a List.mem_cons_self))

/-- A key with a value keeps it where nothing overwrites it. -/
theorem run_kept (hvalue : c k ≠ none) (h : ∀ a ∈ l, a.key = k → a.overwrite = false) :
    run c l k = c k := by
  induction l generalizing c with
  | nil => rfl
  | cons a l ih =>
    have hstep : step c a k = c k := by
      by_cases ha : a.key = k
      · have hkeeps : ¬(c a.key = none ∨ a.overwrite) := by
          rw [ha, h a List.mem_cons_self ha]
          exact fun hor => hor.elim hvalue (by decide)
        rw [← ha, step_self, if_neg hkeeps]
      · exact step_ne ha
    have hrest := ih (c := step c a) (hstep ▸ hvalue) fun b hb => h b (List.mem_cons_of_mem a hb)
    exact hrest.trans hstep

/-- Once a key is overwritten, what it had does not matter. -/
theorem run_of_overwrite (h : ∃ a ∈ l, a.key = k ∧ a.overwrite) : run c l k = run c' l k := by
  induction l generalizing c c' with
  | nil =>
    obtain ⟨a, ha, -⟩ := h
    cases ha
  | cons b l ih =>
    by_cases hb : b.key = k ∧ b.overwrite
    · obtain ⟨rfl, hover⟩ := hb
      show run (step c b) l b.key = run (step c' b) l b.key
      refine run_congr ?_
      rw [step_self, step_self, if_pos (.inr hover), if_pos (.inr hover)]
    · obtain ⟨a, ha, hboth⟩ := h
      refine ih ⟨a, ?_, hboth⟩
      rcases List.mem_cons.mp ha with rfl | ha
      · exact absurd hboth hb
      · exact ha

/-- **Twice is once.** -/
theorem run_run (c : κ → Option ν) (l : List (Assignment κ ν)) : run (run c l) l = run c l := by
  funext k
  by_cases hover : ∃ a ∈ l, a.key = k ∧ a.overwrite
  · exact run_of_overwrite hover
  · have hkeeps : ∀ a ∈ l, a.key = k → a.overwrite = false := by
      intro a ha hk
      by_contra h
      exact hover ⟨a, ha, hk, by simpa using h⟩
    by_cases hvalue : run c l k = none
    · -- no value is left, so there was none before
      have hbefore : c k = none := by
        by_contra hc
        rw [run_kept hc hkeeps] at hvalue
        exact hc hvalue
      exact run_congr (hvalue.trans hbefore.symm)
    · exact run_kept hvalue hkeeps

end Assign
