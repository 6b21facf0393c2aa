import Linphone.Call.PayloadNumbers
import Mathlib.Data.List.Perm.Basic

/-!
# The codecs of an offer

What `make_codec_list` returns, entry by entry: which number each codec ends with and whether it
is still enabled. Every number should be there once, every codec that is left enabled should have
one from 0 to 127, and a codec that drew a number should not be disabled.

The numbering does not see to all of it. It takes a frozen number as it is, though two codecs may be
frozen with the same; it leaves a configured number as it is, whatever it is; when the dynamic
numbers run out the codecs in need keep what they have; and the codec that draws the last number is
disabled as if it had none. `codec_list_numbers_iff` says that nothing else goes wrong.
-/

namespace Linphone

/-! ## The entries of a list -/

/-- The entry with a number that was drawn. -/
def PayloadType.given (pt : PayloadType) (n : Nat) : PayloadType :=
  let pt := { pt with number := (n : Int) }
  if n + 1 = 127 then pt.disable else pt

@[simp] theorem given_number (pt : PayloadType) (n : Nat) : (pt.given n).number = n := by
  unfold PayloadType.given
  split <;> rfl

/-- What becomes of the entries: those in need are dealt in order. -/
def dealtEntries : List PayloadType → List PayloadType → List Nat → List PayloadType
  | _, [], _ => []
  | done, pt :: elem, free =>
    if needsNumber done pt elem then
      (match free.head? with
        | some n => pt.given n
        | none => pt.disable) :: dealtEntries (done ++ [pt]) elem free.tail
    else pt :: dealtEntries (done ++ [pt]) elem free

/-- The entries in need that no number is left for. -/
def undealt (codecs : List PayloadType) : List PayloadType :=
  (inNeed [] codecs).drop (freeNumbers codecs dynPt).length

/-- A number that `done` passed on is needed further on only if it is a frozen one. -/
def SharesFrozen (done done' elem : List PayloadType) : Prop :=
  ∀ e ∈ done', ∀ pt ∈ elem, e.number = pt.number → pt.number ≠ -1 →
    ∃ e' ∈ done, e'.flags.frozenNumber = true ∧ e'.number = pt.number

section

variable {codecs done done' elem : List PayloadType} {pt e : PayloadType} {dynNumber : Nat}

/-- Whoever is found to need a number does need one. -/
theorem SharesFrozen.needs (h : SharesFrozen done done' (pt :: elem))
    (hfound : pt.number = -1 ∨ ¬pt.flags.frozenNumber = true ∧
      ¬isPayloadTypeNumberAvailable (done' ++ elem) pt.number = true) :
    needsNumber done pt elem := by
  by_cases hneg : pt.number = -1
  · exact Or.inl hneg
  obtain hneg' | ⟨hunfrozen, hsame⟩ := hfound
  · exact absurd hneg' hneg
  refine Or.inr ⟨by simpa using hunfrozen, ?_⟩
  obtain ⟨e, he, hnumber⟩ := not_available_iff.mp hsame
  rcases List.mem_append.mp he with he | he
  · exact Or.inl (h e he pt List.mem_cons_self hnumber hneg)
  · exact Or.inr ⟨e, he, hnumber⟩

theorem SharesFrozen.concat (h : SharesFrozen done done' (pt :: elem))
    (he : ∀ p ∈ elem, e.number = p.number → p.number ≠ -1 →
      pt.flags.frozenNumber = true ∧ pt.number = p.number) :
    SharesFrozen (done ++ [pt]) (done' ++ [e]) elem := by
  intro x hx p hp hnumber hneg
  rcases List.mem_append.mp hx with hx | hx
  · obtain ⟨e', he', hs⟩ := h x hx p (List.mem_cons_of_mem _ hp) hnumber hneg
    exact ⟨e', List.mem_append_left _ he', hs⟩
  · obtain rfl := List.mem_singleton.mp hx
    exact ⟨pt, by simp, he p hp hnumber hneg⟩

/-- **What the loop does to the entries that are left**, if all those it has no number for came
without one. -/
theorem assign_eq_dealtEntries (loop : Numbering codecs done done' elem dynNumber)
    (hshares : SharesFrozen done done' elem)
    (hundealt : ∀ pt ∈ (inNeed done elem).drop (freeNumbers codecs dynNumber).length,
      pt.number = -1) :
    assignPayloadTypeNumbers done' elem dynNumber =
      done' ++ dealtEntries done elem (freeNumbers codecs dynNumber) := by
  induction elem generalizing done done' dynNumber with
  | nil => simp [assignPayloadTypeNumbers, dealtEntries]
  | cons pt elem ih =>
    rw [assignPayloadTypeNumbers, dealtEntries]
    split
    · next hfound =>
      have hneeds := hshares.needs hfound
      rw [inNeed, if_pos hneeds] at hundealt
      rw [nextDynNumber_eq loop.ahead, if_pos hneeds]
      cases hnext : (freeNumbers codecs dynNumber).head? with
      | some n =>
        have hfree := freeNumbers_eq_cons hnext
        have hn := mem_freeNumbers.mp
          (hfree ▸ List.mem_cons_self : n ∈ freeNumbers codecs dynNumber)
        rw [hfree, List.length_cons, List.drop_succ_cons] at hundealt
        dsimp only
        rw [hfree, List.tail_cons, ih (loop.draw hnext (by split <;> rfl) hfound) ?_ hundealt,
          List.append_assoc]
        · rfl
        · refine hshares.concat fun p hp hnumber _ => ?_
          have hp' : p ∈ codecs := by simp [loop.split, hp]
          have hnumber' : p.number = (n : Int) := by
            rw [← hnumber]
            split <;> rfl
          exact absurd hnumber' (available_iff.mp hn.2.2 p hp')
      | none =>
        have hnil : freeNumbers codecs dynNumber = [] := by simpa using hnext
        rw [hnil] at hundealt ⊢
        have hneg : pt.number = -1 := hundealt pt List.mem_cons_self
        dsimp only
        rw [ih loop.exhausted ?_ ?_, freeNumbers_eq_nil (Nat.le_refl _), List.append_assoc]
        · rfl
        · exact hshares.concat fun p hp hnumber hp1 => absurd (hnumber.symm.trans hneg) hp1
        · rw [freeNumbers_eq_nil (Nat.le_refl _)]
          exact fun q hq => hundealt q (List.mem_cons_of_mem _ hq)
    · next hfound =>
      have hneeds : ¬needsNumber done pt elem := fun h => hfound (loop.found_of_needs h)
      rw [inNeed, if_neg hneeds] at hundealt
      rw [if_neg hneeds, ih (loop.keep hfound) ?_ hundealt, List.append_assoc]
      · rfl
      · refine hshares.concat fun p hp hnumber _ => ⟨?_, hnumber⟩
        by_contra hunfrozen
        exact hfound (Or.inr ⟨hunfrozen, not_available_iff.mpr
          ⟨p, List.mem_append_right _ hp, hnumber.symm⟩⟩)

end

theorem assign_entries {codecs : List PayloadType} (h : ∀ pt ∈ undealt codecs, pt.number = -1) :
    assignPayloadTypeNumbers [] codecs dynPt =
      dealtEntries [] codecs (freeNumbers codecs dynPt) :=
  assign_eq_dealtEntries (Numbering.start codecs) (fun _ he => absurd he List.not_mem_nil) h

/-- What becomes of whom. -/
theorem mem_zip_dealtEntries {g e : PayloadType} (done elem : List PayloadType) (free : List Nat) :
    (g, e) ∈ elem.zip (dealtEntries done elem free) ↔
      (∃ n, (g, n) ∈ (inNeed done elem).zip free ∧ e = g.given n) ∨
        (g ∈ settled done elem ∧ e = g) ∨
          (g ∈ (inNeed done elem).drop free.length ∧ e = g.disable) := by
  induction elem generalizing done free with
  | nil => simp [dealtEntries, inNeed, settled]
  | cons pt elem ih =>
    by_cases hneeds : needsNumber done pt elem
    · cases free with
      | nil =>
        simp only [dealtEntries, inNeed, settled, hneeds, if_true, List.zip_cons_cons,
          List.mem_cons, ih]
        simp only [Prod.mk.injEq, List.zip_nil_right, List.not_mem_nil, false_and, exists_false,
          false_or, List.length_nil, List.drop_zero, List.mem_cons, List.head?_nil, List.tail_nil]
        grind
      | cons n free =>
        simp only [dealtEntries, inNeed, settled, hneeds, if_true, List.zip_cons_cons,
          List.mem_cons, ih]
        simp only [Prod.mk.injEq, List.head?_cons, List.tail_cons, List.length_cons,
          List.drop_succ_cons]
        grind
    · simp only [dealtEntries, inNeed, settled, hneeds, if_false, List.zip_cons_cons,
        List.mem_cons, ih, Prod.mk.injEq]
      grind

/-! ## Distinct numbers -/

/-- The entries frozen with a number. -/
def frozenOf (l : List PayloadType) : List PayloadType :=
  l.filter fun pt => pt.flags.frozenNumber && pt.number != -1

theorem mem_frozenOf {l : List PayloadType} {pt : PayloadType} :
    pt ∈ frozenOf l ↔ pt ∈ l ∧ pt.flags.frozenNumber = true ∧ pt.number ≠ -1 := by
  simp [frozenOf]

theorem frozenOf_concat_of {done : List PayloadType} {pt : PayloadType}
    (h : pt.flags.frozenNumber = true) (hneg : pt.number ≠ -1) :
    frozenOf (done ++ [pt]) = frozenOf done ++ [pt] := by
  simp [frozenOf, h, hneg]

theorem frozenOf_concat_of_not {done : List PayloadType} {pt : PayloadType}
    (h : pt.flags.frozenNumber = false ∨ pt.number = -1) :
    frozenOf (done ++ [pt]) = frozenOf done := by
  rcases h with h | h <;> simp [frozenOf, h]

/-- No two entries have the same number. -/
def DistinctNumbers (l : List PayloadType) : Prop := (l.map (·.number)).Nodup

instance (l : List PayloadType) : Decidable (DistinctNumbers l) :=
  inferInstanceAs (Decidable (List.Nodup _))

theorem distinctNumbers_middle {l l' : List PayloadType} {pt : PayloadType} :
    DistinctNumbers (l ++ pt :: l') ↔
      (∀ e ∈ l, e.number ≠ pt.number) ∧ (∀ e ∈ l', e.number ≠ pt.number) ∧
        DistinctNumbers (l ++ l') := by
  rw [DistinctNumbers, List.map_append, List.map_cons, List.nodup_middle, List.nodup_cons,
    ← List.map_append, List.mem_map]
  constructor
  · rintro ⟨hnew, hrest⟩
    exact ⟨fun e he hn => hnew ⟨e, List.mem_append_left _ he, hn⟩,
      fun e he hn => hnew ⟨e, List.mem_append_right _ he, hn⟩, hrest⟩
  · rintro ⟨hl, hl', hrest⟩
    refine ⟨?_, hrest⟩
    rintro ⟨e, he, hn⟩
    rcases List.mem_append.mp he with he | he
    · exact hl e he hn
    · exact hl' e he hn

theorem DistinctNumbers.perm {l l' : List PayloadType} (h : l.Perm l') :
    DistinctNumbers l ↔ DistinctNumbers l' :=
  (h.map _).nodup_iff

section

variable {done elem : List PayloadType} {pt : PayloadType}

theorem not_distinct_of_needs {l : List PayloadType} (h : needsNumber done pt elem)
    (hneg : pt.number ≠ -1) (hl : ∀ e ∈ elem, e ∈ l) :
    ¬DistinctNumbers (frozenOf done ++ pt :: l) := by
  rw [distinctNumbers_middle]
  rintro ⟨hdone, hrest, -⟩
  obtain hneg' | ⟨-, ⟨e, he, hfrozen, hnumber⟩ | ⟨e, he, hnumber⟩⟩ := h
  · exact hneg hneg'
  · exact hdone e (mem_frozenOf.mpr ⟨he, hfrozen, hnumber ▸ hneg⟩) hnumber
  · exact hrest e (hl e he) hnumber

theorem alone_of_not_needs (h : ¬needsNumber done pt elem) :
    pt.number ≠ -1 ∧ (pt.flags.frozenNumber = false →
      (∀ e ∈ frozenOf done, e.number ≠ pt.number) ∧ ∀ e ∈ elem, e.number ≠ pt.number) := by
  refine ⟨fun hneg => h (Or.inl hneg), fun hunfrozen => ⟨fun e he hn => ?_, fun e he hn => ?_⟩⟩
  · obtain ⟨he, hfrozen, -⟩ := mem_frozenOf.mp he
    exact h (Or.inr ⟨hunfrozen, Or.inl ⟨e, he, hfrozen, hn⟩⟩)
  · exact h (Or.inr ⟨hunfrozen, Or.inr ⟨e, he, hn⟩⟩)

theorem frozenOf_concat_of_needs (h : needsNumber done pt elem) :
    frozenOf (done ++ [pt]) = frozenOf done :=
  frozenOf_concat_of_not (h.elim Or.inr fun h => Or.inl h.1)

/-- An entry that keeps its number adds it to those that have to be distinct. -/
theorem distinct_keep_iff {l : List PayloadType} (h : ¬needsNumber done pt elem)
    (hl : ∀ e ∈ l, e ∈ elem) :
    DistinctNumbers (frozenOf done ++ pt :: l) ↔
      DistinctNumbers (frozenOf (done ++ [pt]) ++ l) := by
  obtain ⟨hneg, halone⟩ := alone_of_not_needs h
  cases hfrozen : pt.flags.frozenNumber with
  | true => rw [frozenOf_concat_of hfrozen hneg, List.append_assoc, List.singleton_append]
  | false =>
    obtain ⟨hdone, hrest⟩ := halone hfrozen
    rw [frozenOf_concat_of_not (Or.inl hfrozen), distinctNumbers_middle]
    exact ⟨fun h => h.2.2, fun h => ⟨hdone, fun e he => hrest e (hl e he), h⟩⟩

/-- Entries of distinct numbers need none. -/
theorem distinct_iff_no_need (done elem : List PayloadType) :
    DistinctNumbers (frozenOf done ++ elem) ∧ (∀ pt ∈ elem, pt.number ≠ -1) ↔
      DistinctNumbers (frozenOf (done ++ elem)) ∧ inNeed done elem = [] := by
  induction elem generalizing done with
  | nil => simp [inNeed]
  | cons pt elem ih =>
    rw [List.forall_mem_cons, inNeed, List.append_cons done pt elem]
    by_cases hneeds : needsNumber done pt elem
    · rw [if_pos hneeds]
      refine iff_of_false (fun h => ?_) fun h => List.cons_ne_nil _ _ h.2
      exact not_distinct_of_needs hneeds h.2.1 (fun _ he => he) h.1
    · rw [if_neg hneeds, distinct_keep_iff hneeds fun _ he => he, ← ih]
      have hneg := (alone_of_not_needs hneeds).1
      exact ⟨fun h => ⟨h.1, h.2.2⟩, fun h => ⟨h.1, hneg, h.2⟩⟩

theorem settled_append_inNeed_perm (done elem : List PayloadType) :
    (settled done elem ++ inNeed done elem).Perm elem := by
  induction elem generalizing done with
  | nil => exact List.Perm.refl _
  | cons pt elem ih =>
    rw [settled, inNeed]
    split
    · exact List.perm_middle.trans ((ih _).cons pt)
    · exact (ih _).cons pt

/-- At most one entry gets no number, and it came without one. -/
def AtMostOneUnnumbered (l : List PayloadType) : Prop :=
  l = [] ∨ ∃ pt, l = [pt] ∧ pt.number = -1

/-- Which entries may keep what they have. -/
theorem distinct_kept_iff (done elem : List PayloadType) (k : Nat) :
    DistinctNumbers (frozenOf done ++ (settled done elem ++ (inNeed done elem).drop k)) ↔
      DistinctNumbers (frozenOf (done ++ elem)) ∧
        AtMostOneUnnumbered ((inNeed done elem).drop k) := by
  induction elem generalizing done k with
  | nil => simp [inNeed, settled, AtMostOneUnnumbered]
  | cons pt elem ih =>
    rw [inNeed, settled, List.append_cons done pt elem]
    by_cases hneeds : needsNumber done pt elem
    · rw [if_pos hneeds, if_pos hneeds]
      cases k with
      | succ k => rw [List.drop_succ_cons, ← ih, frozenOf_concat_of_needs hneeds]
      | zero =>
        have hperm : (settled (done ++ [pt]) elem ++ pt :: inNeed (done ++ [pt]) elem).Perm
            (pt :: elem) :=
          List.perm_middle.trans ((settled_append_inNeed_perm _ _).cons pt)
        have hone : AtMostOneUnnumbered (pt :: inNeed (done ++ [pt]) elem) ↔
            pt.number = -1 ∧ inNeed (done ++ [pt]) elem = [] := by
          simp [AtMostOneUnnumbered, and_comm]
        have hrest := distinct_iff_no_need (done ++ [pt]) elem
        rw [frozenOf_concat_of_needs hneeds] at hrest
        rw [List.drop_zero, hone, DistinctNumbers.perm (hperm.append_left _), and_left_comm,
          ← hrest]
        constructor
        · intro h
          have hneg : pt.number = -1 := by
            by_contra hneg
            exact not_distinct_of_needs hneeds hneg (fun _ he => he) h
          obtain ⟨-, helem, hothers⟩ := distinctNumbers_middle.mp h
          exact ⟨hneg, hothers, fun e he => hneg ▸ helem e he⟩
        · rintro ⟨hneg, hothers, helem⟩
          refine distinctNumbers_middle.mpr ⟨fun e he => ?_, fun e he => ?_, hothers⟩
          · rw [hneg]
            exact (mem_frozenOf.mp he).2.2
          · rw [hneg]
            exact helem e he
    · rw [if_neg hneeds, if_neg hneeds, List.cons_append, distinct_keep_iff hneeds, ih]
      intro e he
      rcases List.mem_append.mp he with he | he
      · exact mem_of_settled _ _ he
      · exact mem_of_inNeed _ _ (List.mem_of_mem_drop he)

end

/-- The numbers of a list are those drawn and those kept. -/
theorem dealt_numbers_perm (done elem : List PayloadType) (free : List Nat) :
    ((dealt done elem free).map Prod.fst).Perm
      (((inNeed done elem).zip free).map (fun p => (p.2 : Int)) ++
        (settled done elem ++ (inNeed done elem).drop free.length).map (·.number)) := by
  induction elem generalizing done free with
  | nil => simp [dealt, inNeed, settled]
  | cons pt elem ih =>
    rw [dealt, inNeed, settled]
    by_cases hneeds : needsNumber done pt elem
    · rw [if_pos hneeds, if_pos hneeds, if_pos hneeds]
      cases free with
      | nil =>
        have h := ih (done ++ [pt]) []
        simp only [List.zip_nil_right, List.map_nil, List.nil_append, List.length_nil,
          List.drop_zero, List.head?_nil, List.tail_nil, List.map_cons, List.map_append] at h ⊢
        exact (h.cons _).trans List.perm_middle.symm
      | cons n free => exact (ih (done ++ [pt]) free).cons _
    · rw [if_neg hneeds, if_neg hneeds, if_neg hneeds]
      exact ((ih (done ++ [pt]) free).cons _).trans List.perm_middle.symm

theorem map_snd_zip_sublist {α β : Type} (l : List α) (l' : List β) :
    ((l.zip l').map Prod.snd).Sublist l' := by
  induction l generalizing l' with
  | nil => exact List.nil_sublist _
  | cons a l ih =>
    cases l' with
    | nil => exact List.Sublist.refl _
    | cons b l' => exact (ih l').cons_cons b

/-- **The numbers are distinct exactly when the entries that keep theirs have distinct ones.** -/
theorem distinct_assign_iff (codecs : List PayloadType) :
    DistinctNumbers (assignPayloadTypeNumbers [] codecs dynPt) ↔
      DistinctNumbers (keepers codecs) := by
  have hnumbers : (assignPayloadTypeNumbers [] codecs dynPt).map (·.number) =
      (dealt [] codecs (freeNumbers codecs dynPt)).map Prod.fst := by
    rw [← assign_mapping, List.map_map]
    rfl
  rw [DistinctNumbers, hnumbers, (dealt_numbers_perm ..).nodup_iff, List.nodup_append]
  refine ⟨fun h => h.2.1, fun h => ⟨?_, h, ?_⟩⟩
  · have hfree : (freeNumbers codecs dynPt).Nodup := List.Nodup.filter _ List.nodup_range'
    have hdrawn : (((inNeed [] codecs).zip (freeNumbers codecs dynPt)).map Prod.snd).Nodup :=
      hfree.sublist (map_snd_zip_sublist _ _)
    have hcast := hdrawn.map (f := fun n : Nat => (n : Int)) fun _ _ h => Int.ofNat.inj h
    rwa [List.map_map] at hcast
  · intro n hn m hm hnm
    obtain ⟨p, hp, rfl⟩ := List.mem_map.mp hn
    obtain ⟨pt, hpt, rfl⟩ := List.mem_map.mp hm
    exact draws_free hp pt (mem_of_keepers hpt) hnm.symm

/-! ## What a list should be -/

/-- The entry was not turned off; one that never was on counts too. -/
def LeftEnabled (before after : PayloadType) : Prop :=
  before.flags.enabled = true → after.flags.enabled = true

/-- The numbers of a list, compared with the entries it was made from. -/
structure NumbersUsable (codecs result : List PayloadType) : Prop where
  distinct : DistinctNumbers result
  inRange : ∀ p ∈ codecs.zip result, LeftEnabled p.1 p.2 → 0 ≤ p.2.number ∧ p.2.number ≤ 127
  /-- An entry that received a number is not disabled. -/
  kept : ∀ p ∈ codecs.zip result, p.2.number ≠ p.1.number → LeftEnabled p.1 p.2

/-- What the entries have to bring. -/
structure NumbersSuffice (codecs : List PayloadType) : Prop where
  /-- No two are frozen with the same number. -/
  frozen : DistinctNumbers (frozenOf codecs)
  /-- The dynamic numbers do for all but one, which has none and can be disabled. -/
  enough : undealt codecs = [] ∨
    ∃ pt, undealt codecs = [pt] ∧ pt.number = -1 ∧ pt.flags.enabled = true
  /-- A number that is kept is one of RTP. -/
  inRange : ∀ pt ∈ settled [] codecs, 0 ≤ pt.number ∧ pt.number ≤ 127
  /-- No codec draws the last number. -/
  last : ∀ p ∈ draws codecs, p.2 = 126 → p.1.flags.enabled = false

theorem given_enabled {pt : PayloadType} {n : Nat} (h : n ≠ 126) :
    (pt.given n).flags.enabled = pt.flags.enabled := by
  have hn : ¬n + 1 = 127 := by omega
  simp [PayloadType.given, hn]

theorem given_last (pt : PayloadType) : (pt.given 126).flags.enabled = false := rfl

section

variable {codecs : List PayloadType}

theorem distinct_keepers_iff :
    DistinctNumbers (keepers codecs) ↔
      DistinctNumbers (frozenOf codecs) ∧ AtMostOneUnnumbered (undealt codecs) :=
  distinct_kept_iff [] codecs (freeNumbers codecs dynPt).length

/-- What became of whom, when at most one entry got no number. -/
theorem mem_zip_assign (hone : AtMostOneUnnumbered (undealt codecs)) {g e : PayloadType} :
    (g, e) ∈ codecs.zip (assignPayloadTypeNumbers [] codecs dynPt) ↔
      (∃ n, (g, n) ∈ draws codecs ∧ e = g.given n) ∨
        (g ∈ settled [] codecs ∧ e = g) ∨ (g ∈ undealt codecs ∧ e = g.disable) := by
  rw [assign_entries, mem_zip_dealtEntries]
  · rfl
  · intro pt hpt
    rcases hone with hnone | ⟨q, hq, hneg⟩
    · rw [hnone] at hpt
      exact absurd hpt List.not_mem_nil
    · rw [hq, List.mem_singleton] at hpt
      rw [hpt, hneg]

theorem draws_range {p : PayloadType × Nat} (hp : p ∈ draws codecs) : 96 ≤ p.2 ∧ p.2 < 127 :=
  have hfree := mem_freeNumbers.mp (List.of_mem_zip hp).2
  ⟨hfree.1, hfree.2.1⟩

/-- A list with usable numbers had entries that suffice. -/
theorem NumbersUsable.suffice
    (h : NumbersUsable codecs (assignPayloadTypeNumbers [] codecs dynPt)) :
    NumbersSuffice codecs := by
  obtain ⟨hfrozen, hone⟩ := distinct_keepers_iff.mp ((distinct_assign_iff codecs).mp h.distinct)
  refine ⟨hfrozen, ?_, fun pt hpt => ?_, fun p hp hlast => ?_⟩
  · rcases hone with hnone | ⟨pt, hpt, hneg⟩
    · exact Or.inl hnone
    · refine Or.inr ⟨pt, hpt, hneg, ?_⟩
      by_contra hoff
      have hmem : (pt, pt.disable) ∈ codecs.zip (assignPayloadTypeNumbers [] codecs dynPt) :=
        (mem_zip_assign (Or.inr ⟨pt, hpt, hneg⟩)).mpr
          (Or.inr (Or.inr ⟨hpt ▸ List.mem_singleton_self pt, rfl⟩))
      have hrange : 0 ≤ pt.number := (h.inRange _ hmem fun hon => absurd hon hoff).1
      omega
  · have hmem : (pt, pt) ∈ codecs.zip (assignPayloadTypeNumbers [] codecs dynPt) :=
      (mem_zip_assign hone).mpr (Or.inr (Or.inl ⟨hpt, rfl⟩))
    exact h.inRange _ hmem id
  · have hmem : (p.1, p.1.given p.2) ∈
        codecs.zip (assignPayloadTypeNumbers [] codecs dynPt) :=
      (mem_zip_assign hone).mpr (Or.inl ⟨p.2, hp, rfl⟩)
    have hnew := draws_free hp p.1 (mem_of_inNeed _ _ (List.of_mem_zip hp).1)
    have hleft := h.kept _ hmem (by simpa using hnew.symm)
    rw [hlast] at hleft
    by_contra hon
    exact absurd (hleft (by simpa using hon)) (by simp [given_last])

/-- Entries that suffice get usable numbers. -/
theorem NumbersSuffice.usable (h : NumbersSuffice codecs) :
    NumbersUsable codecs (assignPayloadTypeNumbers [] codecs dynPt) := by
  have hone : AtMostOneUnnumbered (undealt codecs) :=
    h.enough.imp_right fun ⟨pt, hpt, hneg, _⟩ => ⟨pt, hpt, hneg⟩
  refine ⟨(distinct_assign_iff codecs).mpr (distinct_keepers_iff.mpr ⟨h.frozen, hone⟩), ?_, ?_⟩
  · rintro ⟨g, e⟩ hp hleft
    rcases (mem_zip_assign hone).mp hp with ⟨n, hn, rfl⟩ | ⟨hg, rfl⟩ | ⟨hg, rfl⟩
    · have := draws_range hn
      rw [given_number]
      omega
    · exact h.inRange _ hg
    · -- it was disabled
      rcases h.enough with hnone | ⟨pt, hpt, -, hon⟩
      · rw [hnone] at hg
        exact absurd hg List.not_mem_nil
      · rw [hpt, List.mem_singleton] at hg
        rw [hg] at hleft
        exact absurd (hleft hon) (by simp [PayloadType.disable])
  · rintro ⟨g, e⟩ hp hnumber hon
    rcases (mem_zip_assign hone).mp hp with ⟨n, hn, rfl⟩ | ⟨hg, rfl⟩ | ⟨hg, rfl⟩
    · by_cases hlast : n = 126
      · have hoff := h.last _ hn hlast
        rw [hoff] at hon
        exact absurd hon Bool.false_ne_true
      · rwa [given_enabled hlast]
    · exact absurd rfl hnumber
    · exact absurd rfl hnumber

end

/-- **The list of `make_codec_list` is usable exactly when what it gathered suffices**: its frozen
numbers are distinct, the numbers it keeps are those of RTP, the dynamic ones do, and no codec
draws the last of them. -/
theorem codec_list_numbers_iff (lc : CodecSettings) (hints : CodecConstraints)
    (stype : SalStreamType) (codecs : List PayloadType) :
    NumbersUsable (lc.gathered hints stype codecs) (lc.makeCodecList hints stype codecs) ↔
      NumbersSuffice (lc.gathered hints stype codecs) :=
  ⟨NumbersUsable.suffice, NumbersSuffice.usable⟩

/-- Two configurations of one codec are frozen with the one number it was negotiated with. -/
theorem two_codecs_frozen_alike :
    let speex (fmtp : Option String) : PayloadType :=
      { mimeType := "speex", clockRate := 8000, channels := 1, number := -1, recvFmtp := fmtp
        flags := { enabled := true } }
    let hints : CodecConstraints := { previouslyUsed := [{ speex none with number := 97 }] }
    let codecs := [speex (some "vbr=on"), speex (some "vbr=off")]
    DistinctNumbers hints.previouslyUsed ∧
      ¬NumbersUsable (CodecSettings.gathered {} hints .video codecs)
        (CodecSettings.makeCodecList {} hints .video codecs) := by
  intro speex hints codecs
  refine ⟨by decide, fun h => ?_⟩
  have hnumbers : (CodecSettings.makeCodecList {} hints .video codecs).map (·.number) =
    [97, 97] := by
    decide +kernel
  have hdistinct := h.distinct
  rw [DistinctNumbers, hnumbers] at hdistinct
  exact absurd hdistinct (by decide)

end Linphone
