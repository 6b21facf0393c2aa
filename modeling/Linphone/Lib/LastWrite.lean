import Mathlib.Data.List.Nodup

/-!
# Lists written by key

A list with at most one element for each key. Writing an element takes out the one that has its
key and adds the new one at the end.

`find_run`: after any writes the element found for a key is the last one written for it, or what
the list had.
-/

namespace LastWrite

variable {α κ : Type} [DecidableEq κ] {key : α → κ} {l : List α} {x : α} {k : κ}

/-- The first element of a key. -/
def find (key : α → κ) (k : κ) (l : List α) : Option α := l.find? (key · = k)

def put (key : α → κ) (l : List α) (x : α) : List α := l.eraseP (key · = key x) ++ [x]

def run (key : α → κ) (l : List α) (writes : List α) : List α := writes.foldl (put key) l

/-- The last element of a key among some writes. -/
def last (key : α → κ) (k : κ) : List α → Option α
  | [] => none
  | x :: writes => (last key k writes).or (if key x = k then some x else none)

/-! ## One write -/

theorem find?_eraseP {p q : α → Bool} (h : ∀ y, p y = true → q y = false) (l : List α) :
    (l.eraseP p).find? q = l.find? q := by
  induction l with
  | nil => rfl
  | cons y l ih =>
    by_cases hy : p y = true
    · rw [List.eraseP_cons_of_pos hy, List.find?_cons, h y hy]
    · rw [List.eraseP_cons_of_neg hy, List.find?_cons, List.find?_cons, ih]

theorem find_put_ne (h : key x ≠ k) : find key k (put key l x) = find key k l := by
  have hp : ∀ y, decide (key y = key x) = true → decide (key y = k) = false := by
    intro y hy
    rw [decide_eq_true_eq] at hy
    rw [hy]
    exact decide_eq_false h
  rw [find, put, List.find?_append, find?_eraseP hp, List.find?_singleton,
    if_neg (by simpa using h), Option.or_none, find]

/-- The element of a key is gone once it is taken out. -/
theorem forall_eraseP_ne (h : (l.map key).Nodup) : ∀ y ∈ l.eraseP (key · = k), key y ≠ k := by
  induction l with
  | nil => intro y hy; exact absurd hy List.not_mem_nil
  | cons z l ih =>
    rw [List.map_cons, List.nodup_cons] at h
    by_cases hz : key z = k
    · rw [List.eraseP_cons_of_pos (by simpa using hz)]
      intro y hy hk
      exact h.1 (hz.trans hk.symm ▸ List.mem_map_of_mem hy)
    · rw [List.eraseP_cons_of_neg (by simpa using hz)]
      intro y hy
      cases List.mem_cons.mp hy with
      | inl hy => exact hy ▸ hz
      | inr hy => exact ih h.2 y hy

theorem find_put_self (h : (l.map key).Nodup) : find key (key x) (put key l x) = some x := by
  have hnone : (l.eraseP (key · = key x)).find? (key · = key x) = none :=
    List.find?_eq_none.mpr fun y hy => by simpa using forall_eraseP_ne h y hy
  rw [find, put, List.find?_append, hnone, Option.none_or, List.find?_singleton,
    if_pos (decide_eq_true rfl)]

theorem nodup_put (h : (l.map key).Nodup) (x : α) : ((put key l x).map key).Nodup := by
  rw [put, List.map_append, List.map_singleton, List.nodup_append]
  refine ⟨h.sublist (List.eraseP_sublist.map key), List.nodup_singleton _, ?_⟩
  intro a ha b hb
  obtain ⟨y, hy, rfl⟩ := List.mem_map.mp ha
  rw [List.mem_singleton.mp hb]
  exact forall_eraseP_ne h y hy

/-! ## Any writes -/

theorem nodup_run (h : (l.map key).Nodup) (writes : List α) :
    ((run key l writes).map key).Nodup := by
  induction writes generalizing l with
  | nil => exact h
  | cons x writes ih => exact ih (nodup_put h x)

/-- **What is found for a key is the last that was written for it.** -/
theorem find_run (h : (l.map key).Nodup) (writes : List α) (k : κ) :
    find key k (run key l writes) = (last key k writes).or (find key k l) := by
  induction writes generalizing l with
  | nil => rfl
  | cons x writes ih =>
    have hrun : find key k (run key l (x :: writes)) =
        (last key k writes).or (find key k (put key l x)) := ih (nodup_put h x)
    rw [hrun, last, Option.or_assoc]
    congr 1
    by_cases hk : key x = k
    · subst hk
      rw [find_put_self h, if_pos rfl, Option.some_or]
    · rw [find_put_ne hk, if_neg hk, Option.none_or]

/-- A value that the elements of a key set, the last one at the end. -/
theorem elim_last_cons {β : Type} (writes : List α) (b : β) (f : α → β) :
    (last key k (x :: writes)).elim b f =
      (last key k writes).elim (if key x = k then f x else b) f := by
  rw [last]
  cases last key k writes with
  | some y => rfl
  | none =>
    rw [Option.none_or]
    by_cases hx : key x = k
    · rw [if_pos hx, if_pos hx]
      rfl
    · rw [if_neg hx, if_neg hx]

theorem last_eq_none_iff {writes : List α} :
    last key k writes = none ↔ ∀ y ∈ writes, key y ≠ k := by
  induction writes with
  | nil => exact ⟨fun _ y hy => absurd hy List.not_mem_nil, fun _ => rfl⟩
  | cons x writes ih => simp [last, Option.or_eq_none_iff, ih, and_comm]

theorem last_append (k : κ) (writes later : List α) :
    last key k (writes ++ later) = (last key k later).or (last key k writes) := by
  induction writes with
  | nil => exact Option.or_none.symm
  | cons x writes ih => rw [List.cons_append, last, ih, Option.or_assoc, last]

/-- The last element of a key is followed by elements of other keys. -/
theorem last_eq_some_iff {writes : List α} :
    last key k writes = some x ↔
      key x = k ∧ ∃ before after, writes = before ++ x :: after ∧ ∀ y ∈ after, key y ≠ k := by
  induction writes with
  | nil =>
    refine ⟨fun h => absurd h (by simp [last]), ?_⟩
    rintro ⟨-, before, after, h, -⟩
    simp at h
  | cons z writes ih =>
    rw [last]
    cases hlast : last key k writes with
    | some y =>
      rw [Option.some_or, ← hlast, ih]
      refine and_congr_right fun hx => ⟨?_, ?_⟩
      · rintro ⟨before, after, rfl, h⟩
        exact ⟨z :: before, after, rfl, h⟩
      · rintro ⟨before, after, h, hafter⟩
        cases before with
        | nil =>
          rw [List.nil_append, List.cons.injEq] at h
          rw [last_eq_none_iff.mpr (h.2 ▸ hafter)] at hlast
          exact absurd hlast (by simp)
        | cons z' before =>
          rw [List.cons_append, List.cons.injEq] at h
          exact ⟨before, after, h.2, hafter⟩
    | none =>
      have hnone := last_eq_none_iff.mp hlast
      rw [Option.none_or, Option.ite_none_right_eq_some, Option.some.injEq]
      constructor
      · rintro ⟨hz, rfl⟩
        exact ⟨hz, [], writes, rfl, hnone⟩
      · rintro ⟨hx, before, after, h, -⟩
        cases before with
        | nil =>
          rw [List.nil_append, List.cons.injEq] at h
          exact ⟨h.1 ▸ hx, h.1⟩
        | cons z' before =>
          rw [List.cons_append, List.cons.injEq] at h
          exact absurd hx (hnone x (h.2 ▸ List.mem_append_right _ List.mem_cons_self))

theorem mem_of_last {writes : List α} (h : last key k writes = some x) :
    x ∈ writes ∧ key x = k := by
  obtain ⟨hkey, before, after, rfl, -⟩ := last_eq_some_iff.mp h
  exact ⟨List.mem_append_right _ List.mem_cons_self, hkey⟩

end LastWrite
