import Mathlib.Data.List.Nodup

/-!
# Elements by their numbers

`pick p l` has the elements of `l` whose numbers are in `p`, in their order. `pick_from` and
`pick_between` are what skipping and counting elements gives; `pick_reverse_eq_iff` says when it
does not matter from which end they are numbered: only the one in the middle may be asked for.
-/

namespace Numbered

variable {α β : Type*} {p q : Nat → Prop} [DecidablePred p] [DecidablePred q] {l : List α}

/-- The elements with these numbers. -/
def pick (p : Nat → Prop) [DecidablePred p] (l : List α) : List α :=
  (l.zipIdx.filter fun x => p x.2).map Prod.fst

@[simp] theorem pick_nil : pick p ([] : List α) = [] := rfl

theorem pick_cons (a : α) (l : List α) :
    pick p (a :: l) = if p 0 then a :: pick (fun i => p (i + 1)) l
      else pick (fun i => p (i + 1)) l := by
  unfold pick
  rw [List.zipIdx_cons, List.zipIdx_succ, List.filter_cons, List.filter_map]
  by_cases hp : p 0
  · simp [hp, Function.comp_def]
  · simp [hp, Function.comp_def]

theorem mem_pick {a : α} : a ∈ pick p l ↔ ∃ i, p i ∧ l[i]? = some a := by
  unfold pick
  simp only [List.mem_map, List.mem_filter, Prod.exists, List.mem_zipIdx_iff_getElem?,
    decide_eq_true_eq]
  constructor
  · rintro ⟨_, i, ⟨hi, hp⟩, rfl⟩
    exact ⟨i, hp, hi⟩
  · rintro ⟨i, hp, hi⟩
    exact ⟨a, i, ⟨hi, hp⟩, rfl⟩

theorem pick_congr (h : ∀ i < l.length, p i ↔ q i) : pick p l = pick q l := by
  unfold pick
  refine congrArg _ (List.filter_congr fun x hx => ?_)
  have hlt := (List.mem_zipIdx hx).2.1
  exact decide_eq_decide.mpr (h x.2 (by omega))

theorem pick_eq_nil_iff : pick p l = [] ↔ ∀ i < l.length, ¬p i := by
  constructor
  · intro h i hi hp
    have hmem : l[i] ∈ pick p l := mem_pick.mpr ⟨i, hp, List.getElem?_eq_getElem hi⟩
    rw [h] at hmem
    exact absurd hmem List.not_mem_nil
  · intro h
    refine List.eq_nil_iff_forall_not_mem.mpr fun a ha => ?_
    obtain ⟨i, hp, hi⟩ := mem_pick.mp ha
    exact h i (List.getElem?_eq_some_iff.mp hi).1 hp

theorem pick_of_forall (h : ∀ i < l.length, p i) : pick p l = l := by
  unfold pick
  rw [List.filter_eq_self.mpr, List.zipIdx_map_fst]
  intro x hx
  have hlt := (List.mem_zipIdx hx).2.1
  exact decide_eq_true (h x.2 (by omega))

/-- **The elements from a number on** are those that are left after skipping. -/
theorem pick_from (first : Nat) : pick (fun i => first ≤ i) l = l.drop first := by
  induction l generalizing first with
  | nil => simp
  | cons a l ih =>
      rw [pick_cons]
      cases first with
      | zero =>
          rw [if_pos (Nat.le_refl 0), List.drop_zero, pick_of_forall fun i _ => Nat.zero_le _]
      | succ first =>
          rw [if_neg (Nat.not_succ_le_zero first), List.drop_succ_cons, ← ih]
          exact pick_congr fun i _ => Nat.succ_le_succ_iff

theorem pick_lt (n : Nat) : pick (fun i => i < n) l = l.take n := by
  induction l generalizing n with
  | nil => simp
  | cons a l ih =>
      rw [pick_cons]
      cases n with
      | zero =>
          rw [if_neg (Nat.lt_irrefl 0), List.take_zero]
          exact pick_eq_nil_iff.mpr fun i _ => Nat.not_lt_zero _
      | succ n =>
          rw [if_pos (Nat.succ_pos n), List.take_succ_cons, ← ih]
          exact congrArg _ (pick_congr fun i _ => Nat.succ_lt_succ_iff)

/-- **So many elements from a number on.** -/
theorem pick_between (first n : Nat) :
    pick (fun i => first ≤ i ∧ i < first + n) l = (l.drop first).take n := by
  induction l generalizing first with
  | nil => simp
  | cons a l ih =>
      cases first with
      | zero =>
          rw [List.drop_zero, ← pick_lt]
          exact pick_congr fun i _ => by omega
      | succ first =>
          rw [pick_cons, if_neg (by omega), List.drop_succ_cons, ← ih]
          exact pick_congr fun i _ => by omega

theorem map_some_pick :
    (pick p l).map some = ((List.range l.length).filter (p ·)).map (l[·]?) := by
  induction l generalizing p with
  | nil => rfl
  | cons a l ih =>
      rw [pick_cons, List.length_cons, List.range_succ_eq_map, List.filter_cons, List.filter_map]
      have htail := ih (p := fun i => p (i + 1))
      by_cases hp : p 0
      · simp [hp, htail, Function.comp_def]
      · simp [hp, htail, Function.comp_def]

/-- **The end from which elements are numbered matters**, but for the one in the middle. -/
theorem pick_reverse_eq_iff (hl : l.Nodup) :
    pick p l.reverse = pick p l ↔ ∀ i < l.length, p i → 2 * i + 1 = l.length := by
  rw [← List.map_inj_right (f := some) fun x y => Option.some.inj, map_some_pick, map_some_pick,
    List.length_reverse, List.map_inj_left]
  simp only [List.mem_filter, List.mem_range, decide_eq_true_eq, and_imp]
  refine forall_congr' fun i => forall_congr' fun hi => forall_congr' fun _ => ?_
  rw [List.getElem?_reverse hi, List.getElem?_inj (by omega) hl]
  omega

end Numbered
