import Mathlib.Data.List.Infix
import Mathlib.Data.List.Nodup
import Mathlib.Data.List.Perm.Subperm

/-!
# Merging an order into a list

The elements of an order that a list lacks are added to it one by one, each right after the element
in front of it in the order. `addMissing_merged`: every element is there once then, the list has
kept its own order, and what was added follows its predecessor.
-/

namespace Merge

variable {α : Type} {done order l r : List α} {p q x y : α}

/-- A list with an order merged into it. -/
structure Merged (order l r : List α) : Prop where
  kept : l.Sublist r
  nodup : r.Nodup
  mem : ∀ x, x ∈ r ↔ x ∈ l ∨ x ∈ order
  front : ∀ x, order.head? = some x → x ∉ l → r.head? = some x
  after : ∀ p x, [p, x] <:+: order → x ∉ l → [p, x] <:+: r

/-! ## Neighbours -/

theorem singleton_prefix_iff : [x] <+: l ↔ l.head? = some x := by
  cases l with
  | nil => simp
  | cons y l => simp [eq_comm]

theorem pair_infix_cons : [p, x] <:+: y :: l ↔ (p = y ∧ l.head? = some x) ∨ [p, x] <:+: l := by
  rw [List.infix_cons_iff, List.cons_prefix_cons, singleton_prefix_iff]

theorem not_pair_infix_nil : ¬[p, x] <:+: [] := fun h =>
  absurd (List.infix_nil.mp h) (List.cons_ne_nil _ _)

/-- The last element makes one pair of neighbours more. -/
theorem pair_infix_concat :
    [p, x] <:+: done ++ [y] ↔ [p, x] <:+: done ∨ (done.getLast? = some p ∧ x = y) := by
  induction done with
  | nil =>
    rw [List.nil_append, pair_infix_cons]
    exact ⟨fun h => absurd h (by simp), fun h => absurd h (by simp)⟩
  | cons z done ih =>
    rw [List.cons_append, pair_infix_cons, pair_infix_cons, ih]
    cases done with
    | nil =>
      have hnil : ¬[p, x] <:+: [] := not_pair_infix_nil
      simp only [List.nil_append, List.head?_cons, List.head?_nil, List.getLast?_singleton,
        List.getLast?_nil, Option.some.injEq, reduceCtorEq, hnil]
      tauto
    | cons w done =>
      rw [List.getLast?_cons_cons]
      simp only [List.cons_append, List.head?_cons]
      tauto

theorem pair_infix_range {k n : Nat} (h : k + 1 < n) : [k, k + 1] <:+: List.range n := by
  induction n with
  | zero => omega
  | succ n ih =>
    rw [List.range_succ, pair_infix_concat]
    rcases Nat.lt_or_eq_of_le (Nat.le_of_lt_succ h) with hlt | rfl
    · exact Or.inl (ih hlt)
    · exact Or.inr ⟨by rw [List.getLast?_range]; simp, rfl⟩

/-- Nothing follows the last element. -/
theorem not_pair_infix_of_getLast (hnodup : done.Nodup) (hlast : done.getLast? = some p) :
    ¬[p, x] <:+: done := by
  induction done with
  | nil => exact not_pair_infix_nil
  | cons z done ih =>
    obtain ⟨hz, hdone⟩ := List.nodup_cons.mp hnodup
    cases done with
    | nil =>
      intro h
      rcases pair_infix_cons.mp h with ⟨-, hhead⟩ | hnil
      · cases hhead
      · exact not_pair_infix_nil hnil
    | cons w done =>
      rw [List.getLast?_cons_cons] at hlast
      intro h
      rcases pair_infix_cons.mp h with ⟨rfl, -⟩ | hrest
      · exact hz (List.mem_of_getLast? hlast)
      · exact ih hdone hlast hrest

/-- Something new after an element leaves the neighbours of the others. -/
theorem pair_infix_insert (hq : q ≠ p) (s t : List α) (h : [q, y] <:+: s ++ p :: t) :
    [q, y] <:+: s ++ p :: x :: t := by
  induction s with
  | nil =>
    rcases pair_infix_cons.mp h with ⟨heq, -⟩ | ht
    · exact absurd heq hq
    · exact pair_infix_cons.mpr (Or.inr (pair_infix_cons.mpr (Or.inr ht)))
  | cons z s ih =>
    rcases pair_infix_cons.mp h with ⟨heq, hhead⟩ | hs
    · refine pair_infix_cons.mpr (Or.inl ⟨heq, ?_⟩)
      rw [← hhead]
      cases s <;> rfl
    · exact pair_infix_cons.mpr (Or.inr (ih hs))

/-! ## One element -/

/-- The next element of the order is there. -/
theorem Merged.present (h : Merged done l r) (hx : x ∈ l) : Merged (done ++ [x]) l r where
  kept := h.kept
  nodup := h.nodup
  mem y := by
    rw [h.mem, List.mem_append, List.mem_singleton]
    constructor
    · intro hy
      exact hy.imp_right Or.inl
    · rintro (hl | hdone | rfl)
      · exact Or.inl hl
      · exact Or.inr hdone
      · exact Or.inl hx
  front y hy hyl := by
    cases done with
    | nil => exact absurd (Option.some.inj hy ▸ hx) hyl
    | cons z done => exact h.front y hy hyl
  after p y hpair hyl := by
    rcases pair_infix_concat.mp hpair with hdone | ⟨-, rfl⟩
    · exact h.after p y hdone hyl
    · exact absurd hx hyl

theorem merged_front (hl : l.Nodup) (hx : x ∉ l) : Merged [x] l (x :: l) where
  kept := List.sublist_cons_self x l
  nodup := List.nodup_cons.mpr ⟨hx, hl⟩
  mem y := by rw [List.mem_cons, List.mem_singleton, or_comm]
  front y hy _ := hy
  after p y hpair := by
    rcases pair_infix_cons.mp hpair with ⟨-, hhead⟩ | hnil
    · cases hhead
    · exact absurd hnil not_pair_infix_nil

theorem merged_nil (hl : l.Nodup) : Merged [] l l where
  kept := List.Sublist.refl l
  nodup := hl
  mem y := by simp
  front y hy := by cases hy
  after p y hpair := absurd hpair not_pair_infix_nil

/-- The next element of the order is put after the last one. -/
theorem Merged.after_last {s t : List α} (h : Merged done l r) (hlast : done.getLast? = some p)
    (hnodup : (done ++ [x]).Nodup) (hx : x ∉ l) (hr : r = s ++ p :: t) :
    Merged (done ++ [x]) l (s ++ p :: x :: t) := by
  obtain ⟨hdoneNodup, -, hdisjoint⟩ := List.nodup_append.mp hnodup
  have hdone : x ∉ done := fun hmem => hdisjoint x hmem x (List.mem_singleton_self x) rfl
  have hxr : x ∉ r := fun hmem => ((h.mem x).mp hmem).elim hx hdone
  have hperm : (s ++ p :: x :: t).Perm (x :: r) := by
    rw [hr]
    exact (List.Perm.append_left s (List.Perm.swap x p t)).trans List.perm_middle
  have hsub : r.Sublist (s ++ p :: x :: t) := by
    rw [hr]
    exact List.Sublist.append_left (List.Sublist.cons_cons p (List.sublist_cons_self x t)) s
  refine ⟨h.kept.trans hsub, ?_, ?_, ?_, ?_⟩
  · exact hperm.nodup_iff.mpr (List.nodup_cons.mpr ⟨hxr, h.nodup⟩)
  · intro y
    rw [hperm.mem_iff, List.mem_cons, h.mem, List.mem_append, List.mem_singleton]
    tauto
  · intro y hy hyl
    have hhead : r.head? = some y := by
      cases done with
      | nil => cases hlast
      | cons z done => exact h.front y hy hyl
    rw [← hhead, hr]
    cases s <;> rfl
  · intro q y hpair hyl
    rcases pair_infix_concat.mp hpair with hold | ⟨hq, rfl⟩
    · have hne : q ≠ p := by
        rintro rfl
        exact not_pair_infix_of_getLast hdoneNodup hlast hold
      exact pair_infix_insert hne s t (hr ▸ h.after q y hold hyl)
    · obtain rfl : p = q := Option.some.inj (hlast.symm.trans hq)
      exact ⟨s, t, by simp⟩

/-! ## All that is missing -/

variable [DecidableEq α]

/-- An element after the first place of another one; at the end where that one is missing. -/
def insertAfter (p x : α) : List α → List α
  | [] => [x]
  | y :: l => if y = p then y :: x :: l else y :: insertAfter p x l

/-- What a list lacks of an order is added. Without a predecessor in the list there is no place. -/
def addMissing : Option α → List α → List α → Option (List α)
  | _, [], l => some l
  | prev, x :: order, l =>
    if x ∈ l then addMissing (some x) order l
    else
      match prev with
      | none => addMissing (some x) order (x :: l)
      | some p => if p ∈ l then addMissing (some x) order (insertAfter p x l) else none

theorem addMissing_of_mem {prev : Option α} (h : x ∈ l) :
    addMissing prev (x :: order) l = addMissing (some x) order l := by
  cases prev with
  | none => exact if_pos h
  | some p => exact if_pos h

theorem insertAfter_eq (h : p ∈ l) :
    ∃ s t, l = s ++ p :: t ∧ insertAfter p x l = s ++ p :: x :: t := by
  induction l with
  | nil => cases h
  | cons y l ih =>
    by_cases hy : y = p
    · subst hy
      exact ⟨[], l, rfl, if_pos rfl⟩
    · obtain ⟨s, t, hl, hinsert⟩ := ih (List.mem_of_ne_of_mem (Ne.symm hy) h)
      refine ⟨y :: s, t, congrArg (y :: ·) hl, ?_⟩
      rw [insertAfter, if_neg hy, hinsert]
      rfl

/-- The order is merged from where it has been merged up to. -/
theorem addMissing_from (h : Merged done l r) (hnodup : (done ++ order).Nodup) :
    ∃ r', addMissing done.getLast? order r = some r' ∧ Merged (done ++ order) l r' := by
  induction order generalizing done r with
  | nil => exact ⟨r, rfl, (List.append_nil done).symm ▸ h⟩
  | cons x order ih =>
    have hsplit : done ++ x :: order = (done ++ [x]) ++ order := by simp
    have hlast : (done ++ [x]).getLast? = some x := by simp
    have hdone : (done ++ [x]).Nodup := by
      rw [hsplit] at hnodup
      exact (List.nodup_append.mp hnodup).1
    have hx : x ∉ done := fun hmem =>
      (List.nodup_append.mp hdone).2.2 x hmem x (List.mem_singleton_self x) rfl
    have hmem : x ∈ r ↔ x ∈ l := by
      rw [h.mem]
      exact ⟨fun hxr => hxr.resolve_right hx, Or.inl⟩
    rw [hsplit] at hnodup ⊢
    by_cases hxl : x ∈ l
    · rw [addMissing_of_mem (hmem.mpr hxl), ← hlast]
      exact ih (h.present hxl) hnodup
    · cases hprev : done.getLast? with
      | none =>
        rw [addMissing, if_neg (mt hmem.mp hxl), ← hlast]
        obtain rfl := List.getLast?_eq_none_iff.mp hprev
        have hr : r = l := (h.kept.eq_of_length_le ?_).symm
        · subst hr
          exact ih (merged_front h.nodup hxl) hnodup
        · exact (h.nodup.subperm fun y hy => by simpa using (h.mem y).mp hy).length_le
      | some p =>
        have hp : p ∈ r := (h.mem p).mpr (Or.inr (List.mem_of_getLast? hprev))
        obtain ⟨s, t, hr, hinsert⟩ := insertAfter_eq (x := x) hp
        rw [addMissing, if_neg (mt hmem.mp hxl), if_pos hp, hinsert, ← hlast]
        exact ih (h.after_last hprev hdone hxl hr) hnodup

/-- **The order is merged into the list.** -/
theorem addMissing_merged (hl : l.Nodup) (horder : order.Nodup) :
    ∃ r, addMissing none order l = some r ∧ Merged order l r :=
  addMissing_from (merged_nil hl) horder

end Merge
