import Mathlib.Data.Option.Basic
import Mathlib.Tactic.Common

/-!
# Operations that return

An operation that may go wrong is an `Option`. `Returns x P` is the total statement about it: it
does return, and with a value that has the property. The rules follow the way operations are put
together.
-/

/-- **The operation returns, and what it returns has the property.** -/
def Returns {α : Type} (x : Option α) (P : α → Prop) : Prop := ∃ y, x = some y ∧ P y

namespace Returns

variable {α β : Type} {x : Option α} {P Q : α → Prop} {R : β → Prop}

theorem some {y : α} (h : P y) : Returns (Option.some y) P := ⟨y, rfl, h⟩

theorem mono (h : Returns x P) (hPQ : ∀ y, P y → Q y) : Returns x Q := by
  obtain ⟨y, hy, hP⟩ := h
  exact ⟨y, hy, hPQ y hP⟩

/-- Sequence: the second operation starts with what the first one returned. -/
theorem bind {f : α → Option β} (h : Returns x P) (hf : ∀ y, P y → Returns (f y) R) :
    Returns (x >>= f) R := by
  obtain ⟨y, hy, hP⟩ := h
  rw [hy]
  exact hf y hP

theorem map {f : α → β} (h : Returns x P) (hf : ∀ y, P y → R (f y)) : Returns (x.map f) R := by
  obtain ⟨y, hy, hP⟩ := h
  rw [hy]
  exact ⟨f y, rfl, hf y hP⟩

theorem isSome (h : Returns x P) : x.isSome := by
  obtain ⟨y, hy, -⟩ := h
  rw [hy]
  rfl

theorem of_eq {y : α} (h : Returns x P) (hy : x = Option.some y) : P y := by
  obtain ⟨z, hz, hP⟩ := h
  cases hy.symm.trans hz
  exact hP

theorem ite {c : Prop} [Decidable c] {y : Option α} (hx : c → Returns x P)
    (hy : ¬c → Returns y P) : Returns (if c then x else y) P := by
  by_cases hc : c
  · rw [if_pos hc]
    exact hx hc
  · rw [if_neg hc]
    exact hy hc

/-- A loop over a list: the invariant may speak of the elements that are still to come. -/
theorem foldlM {σ ι : Type} {f : σ → ι → Option σ} {I : List ι → σ → Prop}
    (hstep : ∀ i l s, I (i :: l) s → Returns (f s i) (I l)) (l : List ι) :
    ∀ s, I l s → Returns (l.foldlM f s) (I []) := by
  induction l with
  | nil =>
    intro s hs
    exact ⟨s, rfl, hs⟩
  | cons i l ih =>
    intro s hs
    rw [List.foldlM_cons]
    exact (hstep i l s hs).bind ih

end Returns

/-- What every step keeps holds at the end of a loop, if it gets there. -/
theorem foldlM_invariant {σ ι : Type} {f : σ → ι → Option σ} {I : σ → Prop} {l : List ι}
    {s s' : σ} (hstep : ∀ i ∈ l, ∀ s s', I s → f s i = some s' → I s') (hs : I s)
    (h : l.foldlM f s = some s') : I s' := by
  induction l generalizing s with
  | nil => exact Option.some.inj h ▸ hs
  | cons i l ih =>
    rw [List.foldlM_cons] at h
    obtain ⟨next, hnext, hrest⟩ := Option.bind_eq_some_iff.mp h
    exact ih (fun j hj => hstep j (.tail _ hj)) (hstep i (.head _) s next hs hnext) hrest
