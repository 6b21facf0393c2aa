import Mathlib.Data.List.Chain
import Mathlib.Data.List.Nodup
import Mathlib.Logic.Function.Iterate
import Mathlib.Tactic.Common

/-!
# Ratchets over a lossy channel

A sender numbers its messages and uses for each one the next value of a one-way chain.  The
channel may lose, repeat and reorder what was sent.  The receiver keeps the number of the next
message it waits for; it takes a message that is not behind that number and not more than a window
ahead of it, and then waits for the one behind.
-/

namespace Ratchet

/-! ## The values used -/

variable {κ : Type*} (next : κ → κ)

/-- Each value is the successor of the one before. -/
def Successive (l : List κ) : Prop := l.IsChain fun a b => b = next a

variable {next}

/-- **The values of a chain are the iterates of its first one.** -/
theorem Successive.getElem? {a b : κ} {l : List κ} {i : Nat} (h : Successive next (a :: l))
    (hb : (a :: l)[i]? = some b) : b = next^[i] a := by
  induction i generalizing a l with
  | zero => exact (Option.some.inj hb).symm
  | succ i ih =>
    cases l with
    | nil => cases hb
    | cons c l =>
      obtain ⟨hc, hl⟩ := List.isChain_cons_cons.mp h
      rw [Function.iterate_succ_apply, ← hc]
      exact ih hl hb

/-- A measure that separates the iterates separates the values of a chain. -/
theorem Successive.nodup_map {α : Type*} {l : List κ} (h : Successive next l) (measure : κ → α)
    (separates : ∀ a ∈ l.head?, ∀ i < l.length, ∀ j < l.length,
      measure (next^[i] a) = measure (next^[j] a) → i = j) : (l.map measure).Nodup := by
  cases l with
  | nil => exact List.nodup_nil
  | cons a l =>
    refine List.nodup_iff_injective_get.mpr fun i j hij => Fin.ext ?_
    have hi : i.val < (a :: l).length := by simpa using i.isLt
    have hj : j.val < (a :: l).length := by simpa using j.isLt
    refine separates a rfl i hi j hj ?_
    rw [← h.getElem? (List.getElem?_eq_getElem hi), ← h.getElem? (List.getElem?_eq_getElem hj)]
    simpa only [List.get_eq_getElem, List.getElem_map] using hij

/-! ## The channel -/

/-- What was sent, in order, the number of the message the receiver waits for, and what it has
accepted so far. -/
structure State (μ : Type*) where
  sent : List μ
  position : Nat
  accepted : List (Nat × μ)

variable {μ : Type*}

/-- The start of a run. -/
def State.start : State μ := ⟨[], 0, []⟩

/-- One step of the two parties and the channel between them. -/
inductive Step (window : Nat) : State μ → State μ → Prop
  | send (s : State μ) (m : μ) : Step window s { s with sent := s.sent ++ [m] }
  | accept (s : State μ) (n : Nat) (m : μ) (sent : s.sent[n]? = some m) (due : s.position ≤ n)
      (near : n ≤ s.position + window) :
      Step window s { s with position := n + 1, accepted := s.accepted ++ [(n, m)] }
  | refuse (s : State μ) : Step window s s

/-- A run of any length. -/
abbrev Run (window : Nat) : State μ → State μ → Prop := Relation.ReflTransGen (Step window)

/-- Messages were accepted in order, from those sent, and none is waited for again. -/
structure State.Ordered (s : State μ) : Prop where
  increasing : s.accepted.Pairwise fun a b => a.1 < b.1
  behind : ∀ a ∈ s.accepted, a.1 < s.position
  genuine : ∀ a ∈ s.accepted, s.sent[a.1]? = some a.2

theorem ordered_start : (State.start : State μ).Ordered :=
  ⟨.nil, nofun, nofun⟩

theorem ordered_step {window : Nat} {s s' : State μ} (h : Step window s s') (hs : s.Ordered) :
    s'.Ordered := by
  cases h with
  | send m =>
    refine ⟨hs.increasing, hs.behind, fun a ha => ?_⟩
    have old := hs.genuine a ha
    rw [List.getElem?_append_left (List.getElem?_eq_some_iff.mp old).1]
    exact old
  | accept n m sent due near =>
    refine ⟨List.pairwise_append.mpr ⟨hs.increasing, List.pairwise_singleton _ _, ?_⟩, ?_, ?_⟩
    · intro a ha b hb
      rw [List.mem_singleton] at hb
      subst hb
      exact lt_of_lt_of_le (hs.behind a ha) due
    · intro a ha
      rcases List.mem_append.mp ha with old | new
      · exact lt_of_lt_of_le (hs.behind a old) (Nat.le_succ_of_le due)
      · rw [List.mem_singleton] at new
        subst new
        exact Nat.lt_succ_self n
    · intro a ha
      rcases List.mem_append.mp ha with old | new
      · exact hs.genuine a old
      · rw [List.mem_singleton] at new
        subst new
        exact sent
  | refuse => exact hs

/-- **In every run messages are accepted in order and genuine.** -/
theorem ordered_run {window : Nat} {s s' : State μ} (h : Run window s s') (hs : s.Ordered) :
    s'.Ordered := by
  induction h with
  | refl => exact hs
  | tail _ step ih => exact ordered_step step ih

/-- **No message is accepted twice.** -/
theorem State.Ordered.nodup {s : State μ} (hs : s.Ordered) : (s.accepted.map Prod.fst).Nodup :=
  List.pairwise_map.mpr (hs.increasing.imp fun h => Nat.ne_of_lt h)

end Ratchet
