import Linphone.Chat.Incoming
import Linphone.Lib.Recent

/-!
# Messages that were received before

`is_duplicate_msg` of `coreapi/callbacks.c` keeps the ids of the last ten messages. The list is
trimmed by what was counted before the id was added, and so also when nothing is added: a duplicate
that comes while ten ids are kept makes the list forget the oldest one.

`duplicates_reported_iff`: the ids that are kept are the last ten distinct ones exactly if no
duplicate comes while there are ten.
-/

namespace Linphone

open Recent (latest)

/-! ## Receiving -/

/-- The ids that are kept, and all that were recorded so far, the latest first. -/
structure MessageWindow where
  ids : List (List Char) := []
  recorded : List (List Char) := []

variable {w : MessageWindow} {msgId : List Char} {before msgIds : List (List Char)}

namespace MessageWindow

/-- A message is received. -/
def receive (w : MessageWindow) (msgId : List Char) : MessageWindow :=
  match isDuplicateMsg w.ids msgId with
  | (true, ids) => { w with ids := ids }
  | (false, ids) => { ids := ids, recorded := msgId :: w.recorded }

def receiveAll (msgIds : List (List Char)) : MessageWindow := msgIds.foldl receive {}

/-- The list holds the last ten distinct ids of what was received. -/
structure HoldsLatest (w : MessageWindow) (received : List (List Char)) : Prop where
  latest : w.ids = latest 10 w.recorded
  nodup : w.ids.Nodup
  length : w.ids.length = min 10 received.dedup.length

/-- An id is a duplicate if it is among the last ten; a new one is recorded once, and nothing is
forgotten for a duplicate. -/
structure Reports (w : MessageWindow) (msgId : List Char) : Prop where
  duplicate : (isDuplicateMsg w.ids msgId).1 = true ↔ msgId ∈ Recent.latest 10 w.recorded
  once : (w.receive msgId).ids.count msgId = 1
  kept : msgId ∈ w.ids → (w.receive msgId).ids = w.ids

/-- A new id is put in front of at most nine of the others. -/
theorem receive_new (h : msgId ∉ w.ids) (hlength : w.ids.length ≤ 10) :
    w.receive msgId =
      { ids := (msgId :: w.ids).take 10, recorded := msgId :: w.recorded } := by
  have hcontains : w.ids.contains msgId = false := by simpa using h
  have hstep : w.receive msgId =
      { ids := if 10 ≤ w.ids.length then (msgId :: w.ids).dropLast else msgId :: w.ids
        recorded := msgId :: w.recorded } := by
    unfold receive isDuplicateMsg
    rw [hcontains]
    rfl
  rw [hstep]
  by_cases hfull : 10 ≤ w.ids.length
  · have hten : w.ids.length = 10 := Nat.le_antisymm hlength hfull
    rw [if_pos hfull, List.dropLast_eq_take, List.length_cons, hten]
  · rw [if_neg hfull, List.take_of_length_le (by rw [List.length_cons]; omega)]

theorem receive_duplicate (h : msgId ∈ w.ids) :
    w.receive msgId = { w with ids := if 10 ≤ w.ids.length then w.ids.dropLast else w.ids } := by
  have hcontains : w.ids.contains msgId = true := by simpa using h
  unfold receive isDuplicateMsg
  rw [hcontains]
  rfl

theorem receiveAll_concat (before : List (List Char)) (msgId : List Char) :
    receiveAll (before ++ [msgId]) = (receiveAll before).receive msgId := by
  rw [receiveAll, List.foldl_append]
  rfl

end MessageWindow

open MessageWindow

/-! ## The ids that are kept -/

/-- No id that is kept is received again while ten are kept. -/
def NoDuplicateWhenFull (msgIds : List (List Char)) : Prop :=
  ∀ before msgId, before ++ [msgId] <+: msgIds →
    msgId ∈ (receiveAll before).ids → (receiveAll before).ids.length < 10

/-- What holds along a run of receptions. -/
structure Remembers (w : MessageWindow) (received : List (List Char)) : Prop where
  latest : w.ids = latest 10 w.recorded
  recorded : ∀ id, id ∈ w.recorded ↔ id ∈ received

theorem Remembers.holdsLatest (h : Remembers w before) : w.HoldsLatest before where
  latest := h.latest
  nodup := h.latest ▸ Recent.nodup_latest 10 w.recorded
  length := by
    have hperm : w.recorded.dedup.Perm before.dedup :=
      (List.perm_ext_iff_of_nodup (List.nodup_dedup _) (List.nodup_dedup _)).mpr fun id => by
        rw [List.mem_dedup, List.mem_dedup, h.recorded]
    rw [h.latest, Recent.length_latest, hperm.length_eq]

theorem Remembers.length_le (h : Remembers w before) : w.ids.length ≤ 10 := by
  rw [h.holdsLatest.length]
  exact Nat.min_le_left ..

/-- One message. -/
theorem Remembers.receive (h : Remembers w before)
    (hfull : msgId ∈ w.ids → w.ids.length < 10) :
    Remembers (w.receive msgId) (before ++ [msgId]) := by
  by_cases hmem : msgId ∈ w.ids
  · have hold : msgId ∈ before := by
      rw [← h.recorded, ← Recent.mem_distinct]
      rw [h.latest] at hmem
      exact List.mem_of_mem_take hmem
    rw [receive_duplicate hmem, if_neg (Nat.not_le_of_lt (hfull hmem))]
    refine ⟨h.latest, fun id => ?_⟩
    rw [h.recorded, List.mem_append, List.mem_singleton]
    exact ⟨Or.inl, fun hid => hid.elim (fun hid => hid) fun heq => heq ▸ hold⟩
  · rw [receive_new hmem h.length_le]
    refine ⟨?_, fun id => ?_⟩
    · rw [h.latest] at hmem ⊢
      exact (Recent.latest_cons hmem).symm
    · rw [List.mem_cons, h.recorded, List.mem_append, List.mem_singleton, or_comm]

theorem Remembers.reports (h : Remembers w before)
    (hfull : msgId ∈ w.ids → w.ids.length < 10) : w.Reports msgId where
  duplicate := by
    rw [← h.latest]
    exact List.contains_iff_mem
  once := by
    have hnodup := (h.receive hfull).holdsLatest.nodup
    refine List.count_eq_one_of_mem hnodup ?_
    by_cases hmem : msgId ∈ w.ids
    · rw [receive_duplicate hmem, if_neg (Nat.not_le_of_lt (hfull hmem))]
      exact hmem
    · rw [receive_new hmem h.length_le]
      exact List.mem_cons_self
  kept hmem := by
    rw [receive_duplicate hmem, if_neg (Nat.not_le_of_lt (hfull hmem))]

theorem remembers_receiveAll (h : NoDuplicateWhenFull msgIds) :
    ∀ before, before <+: msgIds → Remembers (receiveAll before) before := by
  intro before
  induction before using List.reverseRecOn with
  | nil => exact fun _ => ⟨rfl, fun id => Iff.rfl⟩
  | append_singleton before msgId ih =>
    intro hprefix
    rw [receiveAll_concat]
    exact (ih ((List.prefix_append before [msgId]).trans hprefix)).receive (h before msgId hprefix)

/-- **Duplicates are reported**, and the last ten distinct ids are kept, exactly if no duplicate
comes while ten ids are kept. -/
theorem duplicates_reported_iff (msgIds : List (List Char)) :
    ((∀ before, before <+: msgIds → (receiveAll before).HoldsLatest before) ∧
        ∀ before msgId, before ++ [msgId] <+: msgIds → (receiveAll before).Reports msgId) ↔
      NoDuplicateWhenFull msgIds := by
  constructor
  · intro ⟨hrecent, hreports⟩ before msgId hprefix hmem
    have hbefore := (List.prefix_append before [msgId]).trans hprefix
    have hkept := (hreports before msgId hprefix).kept hmem
    by_contra hfull
    have hten : 10 ≤ (receiveAll before).ids.length := Nat.le_of_not_lt hfull
    rw [receive_duplicate hmem] at hkept
    have hlength := congrArg List.length hkept
    rw [if_pos hten, List.length_dropLast] at hlength
    omega
  · intro h
    have hall := remembers_receiveAll h
    refine ⟨fun before hprefix => (hall before hprefix).holdsLatest, fun before msgId hprefix => ?_⟩
    exact (hall before ((List.prefix_append before [msgId]).trans hprefix)).reports
      (h before msgId hprefix)

/-- The eleventh message is the tenth once more, and the first one is forgotten. -/
theorem duplicate_forgets :
    let msgIds := "abcdefghij".toList.map fun c => [c]
    ['a'] ∈ (receiveAll msgIds).ids ∧ ['j'] ∈ (receiveAll msgIds).ids ∧
      ['a'] ∉ (receiveAll (msgIds ++ [['j']])).ids ∧
      ¬(receiveAll msgIds).Reports ['j'] := by
  intro msgIds
  have hin : ['j'] ∈ (receiveAll msgIds).ids := by decide
  refine ⟨by decide, hin, by decide, fun h => ?_⟩
  exact absurd (h.kept hin) (by decide)

end Linphone
