import Mathlib.Data.List.AList

/-!
# Tables

Association lists with distinct keys. `put` adds a new key at the end and leaves a present key in
its place.
-/

/-- A table from keys to values. -/
abbrev Table (κ ν : Type) : Type := AList fun _ : κ => ν

namespace Table

variable {κ ν : Type} [DecidableEq κ]

/-- The value of a key is replaced, or added at the end. -/
def put (k : κ) (v : ν) (t : Table κ ν) : Table κ ν :=
  if k ∈ t then t.replace k v else t ∪ AList.singleton k v

theorem dlookup_cons (k k' : κ) (v : ν) (l : List (Sigma fun _ : κ => ν)) :
    (⟨k, v⟩ :: l : List (Sigma fun _ : κ => ν)).dlookup k' =
      if k' = k then some v else l.dlookup k' := by
  by_cases hk : k' = k
  · subst hk
    rw [if_pos rfl]
    exact @List.dlookup_cons_eq κ (fun _ => ν) _ l k' v
  · rw [if_neg hk]
    exact @List.dlookup_cons_ne κ (fun _ => ν) _ l k' ⟨k, v⟩ hk

theorem dlookup_kreplace_self (k : κ) (v : ν) {l : List (Sigma fun _ : κ => ν)}
    (h : k ∈ l.keys) : (l.kreplace k v).dlookup k = some v := by
  induction l with
  | nil => simp at h
  | cons p l ih =>
    obtain ⟨a, b⟩ := p
    unfold List.kreplace
    by_cases ha : k = a
    · subst ha
      rw [List.lookmap_cons_some _ l (if_pos rfl), dlookup_cons, if_pos rfl]
    · rw [List.lookmap_cons_none _ l (if_neg ha), dlookup_cons, if_neg ha]
      exact ih (List.mem_of_ne_of_mem ha (by simpa using h))

theorem dlookup_kreplace_ne {k k' : κ} (hk : k' ≠ k) (v : ν) (l : List (Sigma fun _ : κ => ν)) :
    (l.kreplace k v).dlookup k' = l.dlookup k' := by
  induction l with
  | nil => rfl
  | cons p l ih =>
    obtain ⟨a, b⟩ := p
    unfold List.kreplace
    by_cases ha : k = a
    · subst ha
      rw [List.lookmap_cons_some _ l (if_pos rfl), dlookup_cons, dlookup_cons, if_neg hk, if_neg hk]
    · rw [List.lookmap_cons_none _ l (if_neg ha), dlookup_cons, dlookup_cons]
      exact ite_congr rfl (fun _ => rfl) fun _ => ih

@[simp] theorem lookup_put_self (k : κ) (v : ν) (t : Table κ ν) :
    (put k v t).lookup k = some v := by
  unfold put
  split
  · next h => exact dlookup_kreplace_self k v h
  · next h =>
    rw [AList.lookup_union_right h]
    exact (dlookup_cons k k v []).trans (if_pos rfl)

theorem lookup_put_ne {k k' : κ} (hk : k' ≠ k) (v : ν) (t : Table κ ν) :
    (put k v t).lookup k' = t.lookup k' := by
  unfold put
  split
  · exact dlookup_kreplace_ne hk v t.entries
  · by_cases hmem : k' ∈ t
    · rw [AList.lookup_union_left hmem]
    · rw [AList.lookup_union_right hmem, AList.lookup_eq_none.mpr hmem, AList.lookup_eq_none,
        AList.mem_keys, AList.keys_singleton, List.mem_singleton]
      exact hk

end Table
