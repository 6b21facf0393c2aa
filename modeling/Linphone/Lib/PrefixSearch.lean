import Mathlib.Data.List.Basic
import Mathlib.Data.List.Infix

/-!
# Searching a table of codes by longer and longer prefixes

A number starts with the code of an entry, and it is compared with all codes by its first letter,
by the first two, and so on, until one entry alone agrees.

`search_append_iff`: the search finds the code of a number exactly if no other entry has that code,
and no code goes on where it ends, unless the number is the code.
`search_eq_none`: a number without a code is not found when no prefix tells an entry from the others
before its code is complete.
-/

namespace PrefixSearch

variable {α β : Type} [DecidableEq α] (code : β → List α) (table : List β)

/-- The entries that agree with a number in its first letters. -/
def agreeing (number : List α) (i : Nat) : List β :=
  table.filter fun b => (code b).take i = number.take i

/-- The entry of a list that has only one. -/
def single : List β → Option β
  | [b] => some b
  | _ => none

/-- The entry that is the first to agree alone. -/
def search (number : List α) (most : Nat) : Option β :=
  (List.range' 1 most).findSome? fun i => single (agreeing code table number i)

/-- The code of an entry is found in front of the rest of a number. -/
def Known (b : β) (rest : List α) : Prop :=
  (table.countP fun b' => code b' = code b) = 1 ∧
    (rest = [] ∨ ∀ b' ∈ table, code b <+: code b' → code b' = code b)

instance (b : β) (rest : List α) : Decidable (Known code table b rest) := by
  unfold Known
  infer_instance

variable {code table} {b b' : β} {number rest : List α} {i most : Nat}

theorem single_eq_some {l : List β} : single l = some b ↔ l = [b] := by
  match l with
  | [] => exact ⟨(fun h => by cases h), (fun h => by cases h)⟩
  | [x] =>
    constructor
    · intro h
      rw [Option.some.inj h]
    · intro h
      rw [(List.cons.inj h).1]
      rfl
  | x :: y :: l => exact ⟨(fun h => by cases h), (fun h => by cases h)⟩

theorem mem_agreeing :
    b ∈ agreeing code table number i ↔ b ∈ table ∧ (code b).take i = number.take i := by
  rw [agreeing, List.mem_filter, decide_eq_true_eq]

theorem search_eq_some (h : search code table number most = some b) :
    ∃ i, 1 ≤ i ∧ i ≤ most ∧ agreeing code table number i = [b] := by
  obtain ⟨i, hi, hsingle⟩ := List.exists_of_findSome?_eq_some h
  obtain ⟨hleast, hlast⟩ := List.mem_range'_1.mp hi
  exact ⟨i, hleast, by omega, single_eq_some.mp hsingle⟩

theorem exists_search (hi : 1 ≤ i) (hmost : i ≤ most)
    (h : agreeing code table number i = [b]) : ∃ b', search code table number most = some b' := by
  cases hsearch : search code table number most with
  | some b' => exact ⟨b', rfl⟩
  | none =>
    have hnone := List.findSome?_eq_none_iff.mp hsearch i (List.mem_range'_1.mpr ⟨hi, by omega⟩)
    rw [single_eq_some.mpr h] at hnone
    cases hnone

theorem mem_agreeing_within (hi : i ≤ (code b).length) :
    b' ∈ agreeing code table (code b ++ rest) i ↔
      b' ∈ table ∧ (code b').take i = (code b).take i := by
  rw [mem_agreeing, List.take_append_of_le_length hi]

/-- Behind the code, what agrees with the number goes on, or the number is the code. -/
theorem mem_agreeing_beyond (hi : (code b).length < i)
    (h : b' ∈ agreeing code table (code b ++ rest) i) :
    b' ∈ table ∧ code b <+: code b' ∧ (code b' = code b → rest = []) := by
  obtain ⟨hmem, htake⟩ := mem_agreeing.mp h
  refine ⟨hmem, ?_, fun heq => ?_⟩
  · have hprefix : code b <+: (code b ++ rest).take i := by
      rw [List.take_append, List.take_of_length_le (Nat.le_of_lt hi)]
      exact List.prefix_append _ _
    exact (htake ▸ hprefix).trans (List.take_prefix i (code b'))
  · rw [heq, List.take_append, List.take_of_length_le (Nat.le_of_lt hi)] at htake
    have hnil := List.append_right_eq_self.mp htake.symm
    refine List.length_eq_zero_iff.mp ?_
    have hlength := congrArg List.length hnil
    rw [List.length_take, List.length_nil] at hlength
    omega

theorem agreeing_self (hi : (code b).length < i) :
    agreeing code table (code b) i = table.filter fun b' => code b' = code b := by
  refine List.filter_congr fun b' _ => decide_eq_decide.mpr ?_
  rw [List.take_of_length_le (Nat.le_of_lt hi)]
  constructor
  · intro h
    have hlength := congrArg List.length h
    rw [List.length_take] at hlength
    rw [← h, List.take_of_length_le (by omega)]
  · intro h
    rw [h, List.take_of_length_le (Nat.le_of_lt hi)]

theorem filter_agreeing (hi : i ≤ (code b).length) :
    (agreeing code table (code b ++ rest) i).filter (fun b' => code b' = code b) =
      table.filter fun b' => code b' = code b := by
  rw [agreeing, List.filter_filter]
  refine List.filter_congr fun b' _ => ?_
  by_cases h : code b' = code b
  · simp [h, List.take_append_of_le_length hi]
  · simp [h]

theorem length_eq_one_of_filter {l : List β} {p : β → Bool} (h : l.countP p = 1) :
    ∃ b, l.filter p = [b] := by
  rw [List.countP_eq_length_filter] at h
  exact List.length_eq_one_iff.mp h

/-- Whatever agrees alone has the code. -/
theorem code_of_agreeing (hb : b ∈ table) (hknown : Known code table b rest)
    (h : agreeing code table (code b ++ rest) i = [b']) : code b' = code b := by
  by_cases hi : i ≤ (code b).length
  · have hmem : b ∈ agreeing code table (code b ++ rest) i :=
      (mem_agreeing_within hi).mpr ⟨hb, rfl⟩
    rw [h, List.mem_singleton] at hmem
    rw [hmem]
  · have hbeyond := Nat.lt_of_not_le hi
    have hmem : b' ∈ agreeing code table (code b ++ rest) i := h ▸ List.mem_singleton_self b'
    obtain ⟨htable, hprefix, -⟩ := mem_agreeing_beyond hbeyond hmem
    rcases hknown.2 with hnil | hends
    · rw [hnil, List.append_nil, agreeing_self hbeyond] at hmem
      exact of_decide_eq_true (List.mem_filter.mp hmem).2
    · exact hends b' htable hprefix

/-- **The code of a number** is found exactly if it is known. -/
theorem search_append_iff (hb : b ∈ table) (hcode : code b ≠ []) (hmost : (code b).length < most) :
    (∃ b', search code table (code b ++ rest) most = some b' ∧ code b' = code b) ↔
      Known code table b rest := by
  have hpos := List.length_pos_iff.mpr hcode
  constructor
  · rintro ⟨b', hsearch, hsame⟩
    obtain ⟨i, hleast, hlast, halone⟩ := search_eq_some hsearch
    by_cases hi : i ≤ (code b).length
    · have hfilter : (agreeing code table (code b ++ rest) i).filter (fun b' => code b' = code b) =
          table.filter fun b' => code b' = code b := filter_agreeing hi
      rw [halone, List.filter_cons_of_pos (by simpa using hsame), List.filter_nil] at hfilter
      refine ⟨by rw [List.countP_eq_length_filter, ← hfilter]; rfl, .inr fun x hx hprefix => ?_⟩
      have hmem : x ∈ agreeing code table (code b ++ rest) i := by
        obtain ⟨t, ht⟩ := hprefix
        refine (mem_agreeing_within hi).mpr ⟨hx, ?_⟩
        rw [← ht, List.take_append_of_le_length hi]
      rw [halone, List.mem_singleton] at hmem
      rw [hmem, hsame]
    · have hbeyond := Nat.lt_of_not_le hi
      have hmem : b' ∈ agreeing code table (code b ++ rest) i := halone ▸ List.mem_singleton_self b'
      have hnil := (mem_agreeing_beyond hbeyond hmem).2.2 hsame
      rw [hnil, List.append_nil, agreeing_self hbeyond] at halone
      exact ⟨by rw [List.countP_eq_length_filter, halone]; rfl, .inl hnil⟩
  · intro hknown
    obtain ⟨x, hx⟩ := length_eq_one_of_filter hknown.1
    have halone : ∃ i, 1 ≤ i ∧ i ≤ most ∧ agreeing code table (code b ++ rest) i = [x] := by
      rcases hknown.2 with hnil | hends
      · refine ⟨(code b).length + 1, by omega, hmost, ?_⟩
        rw [hnil, List.append_nil, agreeing_self (Nat.lt_succ_self _), hx]
      · refine ⟨(code b).length, hpos, Nat.le_of_lt hmost, ?_⟩
        have hfilter : (agreeing code table (code b ++ rest) (code b).length).filter
            (fun b' => code b' = code b) = table.filter fun b' => code b' = code b :=
          filter_agreeing (Nat.le_refl _)
        rw [← hx, ← hfilter]
        refine (List.filter_eq_self.mpr fun b' hb' => decide_eq_true ?_).symm
        obtain ⟨htable, htake⟩ := (mem_agreeing_within (Nat.le_refl _)).mp hb'
        refine hends b' htable ?_
        rw [List.take_length] at htake
        exact htake ▸ List.take_prefix _ _
    obtain ⟨i, hleast, hlast, hi⟩ := halone
    obtain ⟨b', hsearch⟩ := exists_search hleast hlast hi
    obtain ⟨j, -, -, hj⟩ := search_eq_some hsearch
    exact ⟨b', hsearch, code_of_agreeing hb hknown hj⟩

/-- **A number without a code** is not found, if a prefix of a code is that of another entry. -/
theorem search_eq_none
    (hshared : ∀ b ∈ table, ∀ i < (code b).length, 0 < i →
      ∃ b' ∈ table, (code b').take i = (code b).take i ∧ code b' ≠ code b)
    (h : ∀ b ∈ table, ¬code b <+: number) : search code table number most = none := by
  cases hsearch : search code table number most with
  | none => rfl
  | some b =>
    obtain ⟨i, hleast, -, halone⟩ := search_eq_some hsearch
    have hmem : b ∈ agreeing code table number i := halone ▸ List.mem_singleton_self b
    obtain ⟨htable, htake⟩ := mem_agreeing.mp hmem
    by_cases hi : i < (code b).length
    · obtain ⟨b', hb', hsame, hne⟩ := hshared b htable i hi hleast
      have hboth : b' ∈ agreeing code table number i := mem_agreeing.mpr ⟨hb', hsame.trans htake⟩
      rw [halone, List.mem_singleton] at hboth
      exact absurd (congrArg code hboth) hne
    · refine absurd ?_ (h b htable)
      rw [List.take_of_length_le (Nat.le_of_not_lt hi)] at htake
      exact htake ▸ List.take_prefix i number

end PrefixSearch
