import Mathlib.Tactic.Common
import Mathlib.Data.List.Induction

/-!
# Histories of notifications

A component keeps a list of listeners and notifies them, one after the other, of what happens. A
listener has the component's attention while it is called: it may add and remove listeners, itself
included, and cause further notifications, which run to their end before it returns.

The history of such a component is a list of `Item`s. References to listeners are numbered in the
order in which they are added. `Ok before item` says what may happen after `before`, for each kind
of item, and a history is `Lawful` when each of its items may happen where it stands: every
notification calls in order, and once, whoever is registered when its turn comes, and nobody else;
nothing that was freed is used; what was removed is freed once, with its table if that is the
component's; and a listener that asks for the current table is answered with its own.
-/

namespace Notices

/-- What happens to listeners. `n` is a reference, `k` a notification. -/
inductive Item (Table Call : Type)
  /-- A reference is added; with `released` the table is the component's own. -/
  | added (n : Nat) (table : Table) (released : Bool)
  | removed (n : Nat)
  | started (k : Nat) (call : Call)
  /-- It is the turn of a registered reference, whether it takes the call or not. -/
  | turned (n : Nat) (table : Table)
  | called (k n : Nat)
  | finished (k : Nat)
  /-- The reference is freed, alone or with its table. -/
  | freed (n : Nat) (withTable : Bool)
  /-- The listener that is called is told the current table. -/
  | answered (n : Nat) (table : Table)
  /-- Freed memory is used. -/
  | usedFreed
  /-- The component is gone. -/
  | closed
deriving DecidableEq

variable {Table Call : Type} (takes : Table → Call → Bool)

/-- Added and not removed. -/
def Registered (l : List (Item Table Call)) (n : Nat) : Prop :=
  (∃ table released, .added n table released ∈ l) ∧ .removed n ∉ l

/-- Before `bound`, whoever takes the call of `k` was called by it, or is removed. -/
def ServedBelow (l : List (Item Table Call)) (k : Nat) (bound : Nat → Prop) : Prop :=
  ∀ call n table released, .started k call ∈ l → bound n → .added n table released ∈ l →
    takes table call = true → .called k n ∈ l ∨ .removed n ∈ l

/-- What may happen after `l`. -/
def Ok (l : List (Item Table Call)) : Item Table Call → Prop
  | .added n _ _ => ∀ n' table released, .added n' table released ∈ l → n' < n
  | .called k n =>
    Registered l n ∧ (∀ n', .called k n' ∈ l → n' < n) ∧ ServedBelow takes l k (· < n)
  | .finished k =>
    ServedBelow takes l k (fun _ => True) ∧
      ∀ n, .removed n ∈ l → ∃ withTable, .freed n withTable ∈ l
  | .freed n withTable =>
    (.removed n ∈ l ∨ .closed ∈ l) ∧ (∀ withTable', .freed n withTable' ∉ l) ∧
      ∀ table released, .added n table released ∈ l → withTable = released
  | .answered n table => ∃ released, .added n table released ∈ l
  | .usedFreed => False
  | .removed _ | .started _ _ | .turned _ _ | .closed => True

/-- Each item may happen where it stands. -/
def Lawful (l : List (Item Table Call)) : Prop :=
  ∀ before item, before ++ [item] <+: l → Ok takes before item

/-! ## Longer histories -/

theorem lawful_nil : Lawful takes [] := by
  intro before item h
  simp at h

theorem lawful_append_singleton {l : List (Item Table Call)} {item : Item Table Call}
    (h : Lawful takes l) (hok : Ok takes l item) : Lawful takes (l ++ [item]) := by
  intro before item' hbegin
  rcases List.prefix_concat_iff.mp hbegin with heq | hbegin
  · obtain ⟨rfl, rfl⟩ := List.append_inj' heq rfl |>.imp_right fun h => List.singleton_inj.mp h
    exact hok
  · exact h before item' hbegin

theorem lawful_append {l items : List (Item Table Call)} (h : Lawful takes l)
    (hok : ∀ before item, before ++ [item] <+: items → Ok takes (l ++ before) item) :
    Lawful takes (l ++ items) := by
  induction items using List.reverseRecOn with
  | nil => simpa using h
  | append_singleton items item ih =>
    rw [← List.append_assoc]
    refine lawful_append_singleton takes (ih fun before item' hbegin => ?_)
      (hok items item List.prefix_rfl)
    exact hok before item' (hbegin.trans (List.prefix_append items [item]))

theorem lawful_append_free {l items : List (Item Table Call)} (h : Lawful takes l)
    (hok : ∀ item ∈ items, ∀ l, Ok takes l item) : Lawful takes (l ++ items) :=
  lawful_append takes h fun before item hbegin =>
    hok item (hbegin.subset (List.mem_append_right _ (List.mem_singleton_self item))) (l ++ before)

end Notices
