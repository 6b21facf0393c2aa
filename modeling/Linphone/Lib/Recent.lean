import Mathlib.Data.List.Dedup
import Mathlib.Data.List.Perm.Basic

/-!
# The latest elements of a history

A history has the latest element first. `latest n` are the last `n` distinct ones, which an element
that is not among them moves on by one.
-/

namespace Recent

variable {α : Type} [DecidableEq α] {l : List α} {x y : α} {m n : Nat}

/-- Each element once, where it occurred last. -/
def distinct : List α → List α
  | [] => []
  | x :: l => x :: (distinct l).filter (· ≠ x)

/-- The last distinct elements. -/
def latest (n : Nat) (l : List α) : List α := (distinct l).take n

theorem mem_distinct : y ∈ distinct l ↔ y ∈ l := by
  induction l with
  | nil => exact Iff.rfl
  | cons x l ih =>
    rw [distinct, List.mem_cons, List.mem_filter, ih, List.mem_cons, decide_eq_true_eq]
    by_cases hy : y = x
    · simp [hy]
    · simp [hy]

theorem nodup_distinct (l : List α) : (distinct l).Nodup := by
  induction l with
  | nil => exact List.nodup_nil
  | cons x l ih =>
    refine List.nodup_cons.mpr ⟨fun hx => ?_, ih.filter _⟩
    exact of_decide_eq_true (List.mem_filter.mp hx).2 rfl

theorem length_distinct (l : List α) : (distinct l).length = l.dedup.length := by
  refine (List.perm_ext_iff_of_nodup (nodup_distinct l) (List.nodup_dedup l)).mpr ?_ |>.length_eq
  intro y
  rw [mem_distinct, List.mem_dedup]

theorem length_latest (n : Nat) (l : List α) : (latest n l).length = min n l.dedup.length := by
  rw [latest, List.length_take, length_distinct]

theorem nodup_latest (n : Nat) (l : List α) : (latest n l).Nodup :=
  (nodup_distinct l).sublist (List.take_sublist n _)

/-- What is not at the front of a list can be left out behind it. -/
theorem take_filter_ne (h : x ∉ l.take n) (hm : m ≤ n) :
    (l.filter (· ≠ x)).take m = l.take m := by
  induction l generalizing m n with
  | nil => rfl
  | cons y l ih =>
    cases m with
    | zero => rfl
    | succ m =>
      obtain ⟨n, rfl⟩ : ∃ k, n = k + 1 := ⟨n - 1, by omega⟩
      rw [List.take_succ_cons, List.mem_cons, not_or] at h
      have hy : ((y :: l).filter (· ≠ x)) = y :: l.filter (· ≠ x) :=
        List.filter_cons_of_pos (decide_eq_true (Ne.symm h.1))
      rw [hy, List.take_succ_cons, List.take_succ_cons,
        ih h.2 (Nat.le_of_succ_le_succ hm)]

/-- **An element that is not among the latest ones** is the first of them then, and the last one is
dropped if there are too many. -/
theorem latest_cons (h : x ∉ latest (n + 1) l) :
    latest (n + 1) (x :: l) = (x :: latest (n + 1) l).take (n + 1) := by
  rw [latest, distinct, List.take_succ_cons, List.take_succ_cons, latest, List.take_take,
    Nat.min_eq_left (Nat.le_succ n), take_filter_ne h (Nat.le_succ n)]

end Recent
