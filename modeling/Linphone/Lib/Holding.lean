import Mathlib.Data.Multiset.Filter
import Mathlib.Logic.Function.Basic
import Mathlib.Tactic.Common

/-!
# Items in a pool and the holders that know them

A pool of items, each with an owner, is kept next to what every owner remembers of its own item.
The two *agree* when the items of an owner in the pool are exactly the one it remembers: then
nothing in the pool is forgotten, nothing remembered is missing, and no owner has two items.
-/

namespace Holding

variable {Owner Item : Type} [DecidableEq Owner] {owner : Item → Owner}
variable {pool : Multiset Item} {held : Owner → Option Item} {o : Owner} {e : Item}

/-- The pool with one item at most. -/
def single : Option Item → Multiset Item
  | none => 0
  | some e => {e}

/-- The items of an owner. -/
def itemsOf (owner : Item → Owner) (pool : Multiset Item) (o : Owner) : Multiset Item :=
  pool.filter fun e => owner e = o

/-- **The items of every owner are the one it holds.** -/
def Agree (owner : Item → Owner) (pool : Multiset Item) (held : Owner → Option Item) : Prop :=
  ∀ o, itemsOf owner pool o = single (held o)

@[simp] theorem single_none : single (none : Option Item) = 0 := rfl

@[simp] theorem single_some : single (some e) = {e} := rfl

theorem itemsOf_cons (e : Item) :
    itemsOf owner (e ::ₘ pool) o
      = if owner e = o then e ::ₘ itemsOf owner pool o else itemsOf owner pool o := by
  unfold itemsOf
  by_cases h : owner e = o
  · rw [if_pos h]
    exact Multiset.filter_cons_of_pos pool h
  · rw [if_neg h]
    exact Multiset.filter_cons_of_neg pool h

theorem itemsOf_erase [DecidableEq Item] (e : Item) :
    itemsOf owner (pool.erase e) o
      = if owner e = o then (itemsOf owner pool o).erase e else itemsOf owner pool o := by
  unfold itemsOf
  rw [← Multiset.sub_singleton, Multiset.filter_sub, Multiset.filter_singleton]
  by_cases h : owner e = o
  · rw [if_pos h, if_pos h, Multiset.sub_singleton]
  · rw [if_neg h, if_neg h, Multiset.empty_eq_zero, Multiset.sub_zero]

namespace Agree

theorem empty : Agree owner 0 fun _ => none := fun _ => rfl

theorem mem (h : Agree owner pool held) (he : held o = some e) : e ∈ pool := by
  have hin : e ∈ itemsOf owner pool o := by rw [h o, he]; simp
  exact (Multiset.mem_filter.mp hin).1

theorem owner_eq (h : Agree owner pool held) (he : held o = some e) : owner e = o := by
  have hin : e ∈ itemsOf owner pool o := by rw [h o, he]; simp
  exact (Multiset.mem_filter.mp hin).2

theorem held_eq (h : Agree owner pool held) (he : e ∈ pool) : held (owner e) = some e := by
  have hin : e ∈ itemsOf owner pool (owner e) := Multiset.mem_filter.mpr ⟨he, rfl⟩
  rw [h (owner e)] at hin
  cases hheld : held (owner e) with
  | none => rw [hheld] at hin; exact absurd hin (Multiset.notMem_zero e)
  | some e' => rw [hheld] at hin; rw [Multiset.mem_singleton.mp hin]

theorem card_le_one (h : Agree owner pool held) (o : Owner) :
    Multiset.card (itemsOf owner pool o) ≤ 1 := by
  rw [h o]
  cases held o with
  | none => exact Nat.zero_le 1
  | some e => exact Nat.le_refl 1

/-- An owner without an item takes one. -/
theorem add (h : Agree owner pool held) (hfree : held (owner e) = none) :
    Agree owner (e ::ₘ pool) (Function.update held (owner e) (some e)) := by
  intro o
  rw [itemsOf_cons]
  by_cases ho : owner e = o
  · subst ho
    rw [if_pos rfl, h, hfree, Function.update_self]
    rfl
  · rw [if_neg ho, h, Function.update_of_ne (Ne.symm ho)]

/-- An owner gives its item back. -/
theorem remove [DecidableEq Item] (h : Agree owner pool held) (he : held o = some e) :
    Agree owner (pool.erase e) (Function.update held o none) := by
  have howner := h.owner_eq he
  intro p
  rw [itemsOf_erase]
  by_cases hp : owner e = p
  · have hop : o = p := howner.symm.trans hp
    subst hop
    rw [if_pos hp, h, he, Function.update_self]
    simp
  · have hpo : p ≠ o := fun hpo => hp (howner.trans hpo.symm)
    rw [if_neg hp, h, Function.update_of_ne hpo]

end Agree

section drop

variable [DecidableEq Item]

/-- The pool without the item of an owner. -/
def drop (pool : Multiset Item) : Option Item → Multiset Item
  | none => pool
  | some e => pool.erase e

theorem Agree.drop (h : Agree owner pool held) (o : Owner) :
    Agree owner (drop pool (held o)) (Function.update held o none) := by
  cases he : held o with
  | none =>
      have heq : Function.update held o none = held := by
        rw [← he]
        exact Function.update_eq_self o held
      rw [heq]
      exact h
  | some e => exact h.remove he

/-- An owner takes an item in place of the one that it has. -/
theorem Agree.replace (h : Agree owner pool held) (e : Item) :
    Agree owner (e ::ₘ Holding.drop pool (held (owner e)))
      (Function.update held (owner e) (some e)) := by
  have hadd := (h.drop (owner e)).add (e := e) (Function.update_self (owner e) none held)
  rw [Function.update_idem] at hadd
  exact hadd

end drop

end Holding
