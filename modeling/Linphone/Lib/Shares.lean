import Mathlib.Algebra.Order.BigOperators.Group.Finset
import Mathlib.Data.List.Count
import Mathlib.Tactic.Common

/-!
# Counted objects in several lists

Objects are kept in lists, and an owner outside holds some as well. Each object has a number of
references. The references are *backed* when no object is in more places than it has references,
whichever lists one counts. Then an object that is in a list has a reference left, and a list can
give back one reference for each of its places.
-/

namespace Shares

variable {ι α : Type} [DecidableEq α]
variable {lists : ι → List α} {own own' : α → Nat} {refs refs' : α → Int}
variable {i : ι} {l : List α} {a : α} {fs : Finset ι}

/-- The places of an object in some of the lists. -/
def places (lists : ι → List α) (fs : Finset ι) (a : α) : Nat :=
  ∑ i ∈ fs, (lists i).count a

/-- **No object is in more places than it has references.** -/
def Backed (lists : ι → List α) (own : α → Nat) (refs : α → Int) : Prop :=
  ∀ (fs : Finset ι) (a : α), ((places lists fs a + own a : Nat) : Int) ≤ refs a

theorem places_mono {gs : Finset ι} (h : fs ⊆ gs) : places lists fs a ≤ places lists gs a :=
  Finset.sum_le_sum_of_subset h

theorem places_update [DecidableEq ι] (hi : i ∈ fs) :
    places (Function.update lists i l) fs a + (lists i).count a =
      places lists fs a + l.count a := by
  have hothers : ∑ j ∈ fs.erase i, (Function.update lists i l j).count a =
      ∑ j ∈ fs.erase i, (lists j).count a := by
    refine Finset.sum_congr rfl fun j hj => ?_
    rw [Function.update_of_ne (Finset.ne_of_mem_erase hj)]
  rw [places, places, ← Finset.add_sum_erase _ _ hi, ← Finset.add_sum_erase fs _ hi, hothers,
    Function.update_self]
  omega

namespace Backed

/-- The owner takes or gives back references. -/
theorem owner (h : Backed lists own refs)
    (hrefs : ∀ a, (own' a : Int) + refs a ≤ refs' a + own a) : Backed lists own' refs' := by
  intro fs a
  have hbefore := h fs a
  have hchange := hrefs a
  omega

theorem count_le (h : Backed lists own refs) (i : ι) (a : α) :
    ((lists i).count a : Int) ≤ refs a := by
  have hone := h {i} a
  rw [places, Finset.sum_singleton] at hone
  omega

theorem pos_of_mem (h : Backed lists own refs) (ha : a ∈ lists i) : 0 < refs a := by
  have hcount := h.count_le i a
  have hpos := List.count_pos_iff.mpr ha
  omega

theorem pos_of_own (h : Backed lists own refs) (ha : 0 < own a) : 0 < refs a := by
  have hnone := h ∅ a
  omega

theorem places_le (h : Backed lists own refs) (fs : Finset ι) (a : α) :
    (places lists fs a : Int) ≤ refs a := by
  have hall := h fs a
  omega

variable [DecidableEq ι]

/-- One list changes, and the references with it. -/
theorem update (h : Backed lists own refs)
    (hrefs : ∀ a, (l.count a : Int) + own' a + refs a ≤ refs' a + (lists i).count a + own a) :
    Backed (Function.update lists i l) own' refs' := by
  intro fs a
  have hbefore := h (insert i fs) a
  have hafter : places (Function.update lists i l) (insert i fs) a + (lists i).count a =
      places lists (insert i fs) a + l.count a := places_update (Finset.mem_insert_self i fs)
  have hle : places (Function.update lists i l) fs a ≤
      places (Function.update lists i l) (insert i fs) a :=
    places_mono (Finset.subset_insert i fs)
  have hchange := hrefs a
  omega

theorem handOver (h : Backed lists own refs) (ha : 0 < own a) :
    Backed (Function.update lists i (lists i ++ [a])) (Function.update own a (own a - 1)) refs := by
  refine h.update fun b => ?_
  rw [List.count_append]
  by_cases hb : b = a
  · subst hb
    rw [Function.update_self, List.count_singleton_self]
    omega
  · rw [Function.update_of_ne hb, List.count_singleton, if_neg (by simpa using Ne.symm hb)]
    omega

/-- A list gives its references back. -/
theorem clear (h : Backed lists own refs) (i : ι)
    (hrefs : ∀ a, refs' a = refs a - (lists i).count a) :
    Backed (Function.update lists i []) own refs' := by
  refine h.update fun b => ?_
  rw [hrefs, List.count_nil]
  omega

end Backed

end Shares
