import Linphone.OfferAnswer.Matches
import Mathlib.Data.List.Induction

/-!
# The numbers of payload types

Where the payload types of a local description get their numbers from (`coreapi/linphonecall.c`).
`make_codec_list` gathers the codecs that can be offered, each with the number it was frozen with
(`find_payload_type_number`) or else the number it is configured with, adds `telephone-event` and
comfort noise to audio, and lets `linphone_core_assign_payload_type_numbers` draw a dynamic number
for whatever has none. `linphone_call_update_frozen_payloads` (`coreapi/callbacks.c`) freezes the
numbers of a negotiated result.

The numbers a list draws follow from what it gathered (`mem_assign_mapping`): the entries in need of
one get the dynamic numbers no entry carries, in order. `numbers_keep_their_codec`: in a call a
number keeps its codec exactly as long as no such number belonged to another codec before, and no
codec brings one that did.
-/

namespace Linphone

/-! ## Looking numbers up -/

/-- What `find_payload_type_number` looks for. -/
def isNumberCandidate (pt it : PayloadType) : Bool :=
  strcasecmp pt.mimeType it.mimeType && it.clockRate == pt.clockRate &&
    (it.channels == pt.channels || decide (pt.channels ≤ 0))

/-- The receive parameters are equal too. -/
def sameRecvFmtp (pt it : PayloadType) : Bool :=
  match it.recvFmtp, pt.recvFmtp with
  | some s, some t => strcasecmp s t
  | none, none => true
  | _, _ => false

/-- The loop of `find_payload_type_number`; an exact match ends it. -/
def findNumberCandidate (pt : PayloadType) :
    Option PayloadType → List PayloadType → Option PayloadType
  | candidate, [] => candidate
  | candidate, it :: elem =>
    if isNumberCandidate pt it then
      if sameRecvFmtp pt it then some it else findNumberCandidate pt (some it) elem
    else findNumberCandidate pt candidate elem

/-- `find_payload_type_number` -/
def findPayloadTypeNumber (assigned : List PayloadType) (pt : PayloadType) : Int :=
  match findNumberCandidate pt none assigned with
  | some candidate => candidate.number
  | none => -1

/-- `is_payload_type_number_available`; a payload type to ignore is left out of `l`. -/
def isPayloadTypeNumberAvailable (l : List PayloadType) (number : Int) : Bool :=
  l.all fun pt => pt.number != number

/-! ## Drawing numbers -/

/-- `lc->codecs_conf.dyn_pt` -/
abbrev dynPt : Nat := 96

/-- `while (dyn_number < 127)` up to the first number that is available. -/
def nextDynNumber (codecs : List PayloadType) (dynNumber : Nat) : Option Nat :=
  (List.range' dynNumber (127 - dynNumber)).find? fun n =>
    isPayloadTypeNumberAvailable codecs n

/-- `payload_type_set_enable(pt, FALSE)` -/
def PayloadType.disable (pt : PayloadType) : PayloadType :=
  { pt with flags := { pt.flags with enabled := false } }

/-- `linphone_core_assign_payload_type_numbers`, with `done` numbered. -/
def assignPayloadTypeNumbers : List PayloadType → List PayloadType → Nat → List PayloadType
  | done, [], _ => done
  | done, pt :: elem, dynNumber =>
    -- the number is not given, or duplicated
    if pt.number = -1 ∨ ¬pt.flags.frozenNumber ∧
        ¬isPayloadTypeNumberAvailable (done ++ elem) pt.number then
      match nextDynNumber (done ++ pt :: elem) dynNumber with
      | some n =>
        let pt := { pt with number := (n : Int) }
        -- the last number is given, but its codec is disabled
        let pt := if n + 1 = 127 then pt.disable else pt
        assignPayloadTypeNumbers (done ++ [pt]) elem (n + 1)
      | none => assignPayloadTypeNumbers (done ++ [pt.disable]) elem 127
    else assignPayloadTypeNumbers (done ++ [pt]) elem dynNumber

/-! ## The list of codecs -/

/-- What the numbering reads of the core, which may change between offers. -/
structure CodecSettings where
  audioCodecs : List PayloadType := []
  videoCodecs : List PayloadType := []
  /-- `linphone_core_check_payload_type_usability` -/
  checkUsability : PayloadType → Bool := fun _ => true
  /-- `linphone_core_is_payload_type_usable_for_bandwidth` -/
  usableForBandwidth : PayloadType → Int → Bool := fun _ _ => true
  /-- `codecs_conf.telephone_event_pt` -/
  telephoneEventPt : Int := 101
  /-- `linphone_core_generic_confort_noise_enabled` -/
  genericConfortNoiseEnabled : Bool := false
  /-- `payload_type_telephone_event` and `payload_type_cn` of oRTP. -/
  telephoneEvent : PayloadType := { mimeType := "telephone-event", clockRate := 8000 }
  cn : PayloadType := { mimeType := "CN", clockRate := 8000, channels := 1 }

namespace CodecSettings

variable (lc : CodecSettings)

/-- `create_telephone_events`: one for each clock rate. -/
def createTelephoneEvents (codecs : List PayloadType) :
    List PayloadType → List PayloadType → List PayloadType
  | ret, [] => ret
  | ret, pt :: it =>
    if ret.any (·.clockRate == pt.clockRate) then createTelephoneEvents codecs ret it
    else
      let tev := { lc.telephoneEvent with clockRate := pt.clockRate, number := -1 }
      let tev :=
        if ret.isEmpty && isPayloadTypeNumberAvailable codecs lc.telephoneEventPt then
          { tev with number := lc.telephoneEventPt }
        else tev
      createTelephoneEvents codecs (ret ++ [tev]) it

/-- `create_special_payload_types` -/
def createSpecialPayloadTypes (codecs : List PayloadType) : List PayloadType :=
  lc.createTelephoneEvents codecs [] codecs ++
    if lc.genericConfortNoiseEnabled then [{ lc.cn with number := 13 }] else []

end CodecSettings

/-- `CodecConstraints` -/
structure CodecConstraints where
  bandwidthLimit : Int := 0
  maxCodecs : Int := 0
  previouslyUsed : List PayloadType := []

namespace CodecSettings

variable (lc : CodecSettings) (hints : CodecConstraints)

/-- The number a codec was frozen with, when there is one. -/
def withFrozenNumber (pt : PayloadType) : PayloadType :=
  let num := findPayloadTypeNumber hints.previouslyUsed pt
  if num ≠ -1 then
    { pt with number := num, flags := { pt.flags with frozenNumber := true } }
  else pt

/-- The loop of `make_codec_list`, with the codecs taken so far. -/
def gatherCodecs : List PayloadType → List PayloadType → List PayloadType
  | l, [] => l
  | l, pt :: it =>
    if ¬pt.flags.enabled then gatherCodecs l it
    else if hints.bandwidthLimit > 0 ∧ ¬lc.usableForBandwidth pt hints.bandwidthLimit then
      gatherCodecs l it
    else if ¬lc.checkUsability pt then gatherCodecs l it
    else
      let l := l ++ [withFrozenNumber hints pt]
      if hints.maxCodecs > 0 ∧ (l.length : Int) ≥ hints.maxCodecs then l else gatherCodecs l it

/-- What `make_codec_list` has before it assigns numbers. -/
def gathered (stype : SalStreamType) (codecs : List PayloadType) : List PayloadType :=
  let l := lc.gatherCodecs hints [] codecs
  if stype = .audio then l ++ lc.createSpecialPayloadTypes l else l

/-- `make_codec_list` -/
def makeCodecList (stype : SalStreamType) (codecs : List PayloadType) : List PayloadType :=
  assignPayloadTypeNumbers [] (lc.gathered hints stype codecs) dynPt

end CodecSettings

/-! ## Who draws which number -/

/-- The number of a payload type and the codec it stands for. -/
def PayloadType.mapping (pt : PayloadType) : Int × (List Char × Int × Int) := (pt.number, pt.codec)

/-- An entry of a gathered list that needs a number: it has none, or another entry, frozen or
further on, has the same. -/
def needsNumber (done : List PayloadType) (pt : PayloadType) (elem : List PayloadType) : Prop :=
  pt.number = -1 ∨ pt.flags.frozenNumber = false ∧
    ((∃ e ∈ done, e.flags.frozenNumber = true ∧ e.number = pt.number) ∨
      ∃ e ∈ elem, e.number = pt.number)

instance (done : List PayloadType) (pt : PayloadType) (elem : List PayloadType) :
    Decidable (needsNumber done pt elem) := by
  unfold needsNumber
  infer_instance

/-- The entries that need a number. -/
def inNeed : List PayloadType → List PayloadType → List PayloadType
  | _, [] => []
  | done, pt :: elem =>
    if needsNumber done pt elem then pt :: inNeed (done ++ [pt]) elem
    else inNeed (done ++ [pt]) elem

/-- The entries whose number stays. -/
def settled : List PayloadType → List PayloadType → List PayloadType
  | _, [] => []
  | done, pt :: elem =>
    if needsNumber done pt elem then settled (done ++ [pt]) elem
    else pt :: settled (done ++ [pt]) elem

/-- The dynamic numbers from `dynNumber` on that no entry carries. -/
def freeNumbers (codecs : List PayloadType) (dynNumber : Nat) : List Nat :=
  (List.range' dynNumber (127 - dynNumber)).filter fun n => isPayloadTypeNumberAvailable codecs n

/-- The mappings a list gets: the entries in need are dealt in order. -/
def dealt : List PayloadType → List PayloadType → List Nat →
    List (Int × (List Char × Int × Int))
  | _, [], _ => []
  | done, pt :: elem, free =>
    if needsNumber done pt elem then
      (match free.head? with
        | some n => (↑n, pt.codec)
        | none => pt.mapping) :: dealt (done ++ [pt]) elem free.tail
    else pt.mapping :: dealt (done ++ [pt]) elem free

/-- What the entries in need draw. -/
def draws (codecs : List PayloadType) : List (PayloadType × Nat) :=
  (inNeed [] codecs).zip (freeNumbers codecs dynPt)

/-- The entries that keep their number; those in need are among them when the numbers run out. -/
def keepers (codecs : List PayloadType) : List PayloadType :=
  settled [] codecs ++ (inNeed [] codecs).drop (freeNumbers codecs dynPt).length

/-! ### Availability -/

theorem available_iff {l : List PayloadType} {number : Int} :
    isPayloadTypeNumberAvailable l number = true ↔ ∀ pt ∈ l, pt.number ≠ number := by
  simp [isPayloadTypeNumberAvailable]

theorem not_available_iff {l : List PayloadType} {number : Int} :
    ¬isPayloadTypeNumberAvailable l number = true ↔ ∃ pt ∈ l, pt.number = number := by
  rw [available_iff]
  push Not
  rfl

theorem available_congr {l l' : List PayloadType} {number : Int}
    (h : (∃ pt ∈ l, pt.number = number) ↔ ∃ pt ∈ l', pt.number = number) :
    isPayloadTypeNumberAvailable l number = isPayloadTypeNumberAvailable l' number := by
  rw [Bool.eq_iff_iff, ← not_iff_not, not_available_iff, not_available_iff, h]

theorem mem_freeNumbers {codecs : List PayloadType} {dynNumber n : Nat} :
    n ∈ freeNumbers codecs dynNumber ↔
      dynNumber ≤ n ∧ n < 127 ∧ isPayloadTypeNumberAvailable codecs n = true := by
  simp only [freeNumbers, List.mem_filter, List.mem_range'_1]
  constructor
  · rintro ⟨⟨hle, hlt⟩, havail⟩
    exact ⟨hle, by omega, havail⟩
  · rintro ⟨hle, hlt, havail⟩
    exact ⟨⟨hle, by omega⟩, havail⟩

theorem freeNumbers_step (codecs : List PayloadType) {dynNumber : Nat} (h : dynNumber < 127) :
    freeNumbers codecs dynNumber =
      if isPayloadTypeNumberAvailable codecs dynNumber then
        dynNumber :: freeNumbers codecs (dynNumber + 1)
      else freeNumbers codecs (dynNumber + 1) := by
  have hlen : 127 - dynNumber = 127 - (dynNumber + 1) + 1 := by omega
  rw [freeNumbers, hlen, List.range'_succ, List.filter_cons]
  rfl

theorem freeNumbers_eq_nil {codecs : List PayloadType} {dynNumber : Nat} (h : 127 ≤ dynNumber) :
    freeNumbers codecs dynNumber = [] := by
  rw [freeNumbers, Nat.sub_eq_zero_of_le h]
  rfl

/-- After the first free number come the free numbers beyond it. -/
theorem freeNumbers_eq_cons {codecs : List PayloadType} {dynNumber n : Nat}
    (h : (freeNumbers codecs dynNumber).head? = some n) :
    freeNumbers codecs dynNumber = n :: freeNumbers codecs (n + 1) := by
  induction hk : 127 - dynNumber generalizing dynNumber with
  | zero =>
    rw [freeNumbers_eq_nil (by omega)] at h
    cases h
  | succ k ih =>
    have hlt : dynNumber < 127 := by omega
    by_cases havail : isPayloadTypeNumberAvailable codecs dynNumber = true
    · rw [freeNumbers_step codecs hlt, if_pos havail] at h ⊢
      obtain rfl : dynNumber = n := by simpa using h
      rfl
    · rw [freeNumbers_step codecs hlt, if_neg havail] at h ⊢
      exact ih h (by omega)

theorem nextDynNumber_eq {codecs l : List PayloadType} {dynNumber : Nat}
    (h : ∀ m, dynNumber ≤ m → m < 127 →
      isPayloadTypeNumberAvailable l m = isPayloadTypeNumberAvailable codecs m) :
    nextDynNumber l dynNumber = (freeNumbers codecs dynNumber).head? := by
  have hfilter : freeNumbers l dynNumber = freeNumbers codecs dynNumber := by
    refine List.filter_congr fun m hm => ?_
    rw [List.mem_range'_1] at hm
    exact h m hm.1 (by omega)
  rw [← hfilter, nextDynNumber, freeNumbers, List.head?_filter]

/-! ### The loop -/

/-- Where the loop of `linphone_core_assign_payload_type_numbers` stands: `done` of the list became
`done'`. -/
structure Numbering (codecs done done' elem : List PayloadType) (dynNumber : Nat) : Prop where
  split : codecs = done ++ elem
  /-- The numbers ahead are as they were. -/
  ahead : ∀ m : Nat, dynNumber ≤ m → m < 127 →
    isPayloadTypeNumberAvailable (done' ++ elem) m = isPayloadTypeNumberAvailable codecs m
  frozen : ∀ e ∈ done, e.flags.frozenNumber = true → e.number ≠ -1 →
    ∃ e' ∈ done', e'.number = e.number
  /-- A number that is still needed further on is a frozen one, or there are no more. -/
  shared : ∀ e ∈ done', ∀ pt ∈ elem, e.number = pt.number → pt.number ≠ -1 →
    (∃ e' ∈ done, e'.flags.frozenNumber = true ∧ e'.number = pt.number) ∨
      freeNumbers codecs dynNumber = []

namespace Numbering

variable {codecs done done' elem : List PayloadType} {pt : PayloadType} {dynNumber : Nat}

theorem start (codecs : List PayloadType) : Numbering codecs [] [] codecs dynPt where
  split := rfl
  ahead _ _ _ := rfl
  frozen _ he := absurd he List.not_mem_nil
  shared _ he := absurd he List.not_mem_nil

/-- Whoever needs a number is found to need one. -/
theorem found_of_needs (loop : Numbering codecs done done' (pt :: elem) dynNumber)
    (h : needsNumber done pt elem) :
    pt.number = -1 ∨ ¬pt.flags.frozenNumber = true ∧
      ¬isPayloadTypeNumberAvailable (done' ++ elem) pt.number = true := by
  by_cases hneg : pt.number = -1
  · exact Or.inl hneg
  obtain hneg' | ⟨hunfrozen, hsame⟩ := h
  · exact absurd hneg' hneg
  refine Or.inr ⟨by simp [hunfrozen], not_available_iff.mpr ?_⟩
  rcases hsame with ⟨e, he, hfrozen, hnumber⟩ | ⟨e, he, hnumber⟩
  · obtain ⟨e', he', hnumber'⟩ := loop.frozen e he hfrozen (hnumber ▸ hneg)
    exact ⟨e', List.mem_append_left _ he', hnumber'.trans hnumber⟩
  · exact ⟨e, List.mem_append_right _ he, hnumber⟩

/-- As long as there are numbers, nobody else is. -/
theorem needs_of_found (loop : Numbering codecs done done' (pt :: elem) dynNumber)
    (hfree : freeNumbers codecs dynNumber ≠ [])
    (h : pt.number = -1 ∨ ¬pt.flags.frozenNumber = true ∧
      ¬isPayloadTypeNumberAvailable (done' ++ elem) pt.number = true) :
    needsNumber done pt elem := by
  by_cases hneg : pt.number = -1
  · exact Or.inl hneg
  obtain hneg' | ⟨hunfrozen, hsame⟩ := h
  · exact absurd hneg' hneg
  refine Or.inr ⟨by simpa using hunfrozen, ?_⟩
  obtain ⟨e, he, hnumber⟩ := not_available_iff.mp hsame
  rcases List.mem_append.mp he with he | he
  · rcases loop.shared e he pt List.mem_cons_self hnumber hneg with hfrozen | hnone
    · exact Or.inl hfrozen
    · exact absurd hnone hfree
  · exact Or.inr ⟨e, he, hnumber⟩

/-- A number is drawn for the next entry. -/
theorem draw {pt' : PayloadType} {n : Nat}
    (loop : Numbering codecs done done' (pt :: elem) dynNumber)
    (hnext : (freeNumbers codecs dynNumber).head? = some n) (hnumber : pt'.number = n)
    (h : pt.number = -1 ∨ ¬pt.flags.frozenNumber = true ∧
      ¬isPayloadTypeNumberAvailable (done' ++ elem) pt.number = true) :
    Numbering codecs (done ++ [pt]) (done' ++ [pt']) elem (n + 1) := by
  have hfree := freeNumbers_eq_cons hnext
  have hn := mem_freeNumbers.mp (hfree ▸ List.mem_cons_self : n ∈ freeNumbers codecs dynNumber)
  refine ⟨by simp [loop.split], fun m hm hlt => ?_, fun e he hfrozen hneg => ?_,
    fun e he p hp heq hneg => ?_⟩
  · rw [← loop.ahead m (by omega) hlt]
    refine available_congr ⟨?_, ?_⟩
    · rintro ⟨e, he, hem⟩
      rw [List.append_assoc, List.mem_append, List.mem_append, List.mem_singleton] at he
      rcases he with he | rfl | he
      · exact ⟨e, by simp [he], hem⟩
      · omega
      · exact ⟨e, by simp [he], hem⟩
    · rintro ⟨e, he, hem⟩
      rw [List.mem_append, List.mem_cons] at he
      rcases he with he | rfl | he
      · exact ⟨e, by simp [he], hem⟩
      · -- someone else has the number that is given up
        obtain hneg | ⟨-, hsame⟩ := h
        · omega
        obtain ⟨e', he', hnumber'⟩ := not_available_iff.mp hsame
        rcases List.mem_append.mp he' with he' | he'
        · exact ⟨e', by simp [he'], hnumber'.trans hem⟩
        · exact ⟨e', by simp [he'], hnumber'.trans hem⟩
      · exact ⟨e, by simp [he], hem⟩
  · rcases List.mem_append.mp he with he | he
    · obtain ⟨e', he', hnumber'⟩ := loop.frozen e he hfrozen hneg
      exact ⟨e', List.mem_append_left _ he', hnumber'⟩
    · obtain rfl := List.mem_singleton.mp he
      obtain hneg' | ⟨hunfrozen, -⟩ := h
      · exact absurd hneg' hneg
      · exact absurd hfrozen hunfrozen
  · rcases List.mem_append.mp he with he | he
    · rcases loop.shared e he p (List.mem_cons_of_mem _ hp) heq hneg with ⟨e', he', hs⟩ | hnone
      · exact Or.inl ⟨e', List.mem_append_left _ he', hs⟩
      · rw [hnone] at hnext
        cases hnext
    · -- a number that is free has no other owner
      obtain rfl := List.mem_singleton.mp he
      have hp' : p ∈ codecs := by simp [loop.split, hp]
      exact absurd (heq.symm.trans hnumber) (available_iff.mp hn.2.2 p hp')

theorem exhausted (loop : Numbering codecs done done' (pt :: elem) dynNumber) :
    Numbering codecs (done ++ [pt]) (done' ++ [pt.disable]) elem 127 := by
  refine ⟨by simp [loop.split], fun m hm hlt => by omega, fun e he hfrozen hneg => ?_,
    fun _ _ _ _ _ _ => Or.inr (freeNumbers_eq_nil (Nat.le_refl _))⟩
  rcases List.mem_append.mp he with he | he
  · obtain ⟨e', he', hnumber'⟩ := loop.frozen e he hfrozen hneg
    exact ⟨e', List.mem_append_left _ he', hnumber'⟩
  · obtain rfl := List.mem_singleton.mp he
    exact ⟨e.disable, by simp, rfl⟩

/-- The next entry keeps its number. -/
theorem keep (loop : Numbering codecs done done' (pt :: elem) dynNumber)
    (h : ¬(pt.number = -1 ∨ ¬pt.flags.frozenNumber = true ∧
      ¬isPayloadTypeNumberAvailable (done' ++ elem) pt.number = true)) :
    Numbering codecs (done ++ [pt]) (done' ++ [pt]) elem dynNumber := by
  refine ⟨by simp [loop.split], fun m hm hlt => ?_, fun e he hfrozen hneg => ?_,
    fun e he p hp heq hneg => ?_⟩
  · rw [← loop.ahead m hm hlt, List.append_assoc, List.singleton_append]
  · rcases List.mem_append.mp he with he | he
    · obtain ⟨e', he', hnumber'⟩ := loop.frozen e he hfrozen hneg
      exact ⟨e', List.mem_append_left _ he', hnumber'⟩
    · obtain rfl := List.mem_singleton.mp he
      exact ⟨e, by simp, rfl⟩
  · rcases List.mem_append.mp he with he | he
    · rcases loop.shared e he p (List.mem_cons_of_mem _ hp) heq hneg with ⟨e', he', hs⟩ | hnone
      · exact Or.inl ⟨e', List.mem_append_left _ he', hs⟩
      · exact Or.inr hnone
    · obtain rfl := List.mem_singleton.mp he
      -- unfrozen, it would have been found to need another
      have hfrozen : e.flags.frozenNumber = true := by
        by_contra hunfrozen
        exact h (Or.inr ⟨hunfrozen, not_available_iff.mpr
          ⟨p, List.mem_append_right _ hp, heq.symm⟩⟩)
      exact Or.inl ⟨e, by simp, hfrozen, heq⟩

end Numbering

/-- What the loop gives to the entries that are left. -/
theorem assign_eq_dealt {codecs done done' elem : List PayloadType} {dynNumber : Nat}
    (loop : Numbering codecs done done' elem dynNumber) :
    (assignPayloadTypeNumbers done' elem dynNumber).map PayloadType.mapping =
      done'.map PayloadType.mapping ++ dealt done elem (freeNumbers codecs dynNumber) := by
  induction elem generalizing done done' dynNumber with
  | nil => simp [assignPayloadTypeNumbers, dealt]
  | cons pt elem ih =>
    rw [assignPayloadTypeNumbers, dealt]
    split
    · next hfound =>
      rw [nextDynNumber_eq loop.ahead]
      cases hnext : (freeNumbers codecs dynNumber).head? with
      | some n =>
        have hfree := freeNumbers_eq_cons hnext
        have hneeds := loop.needs_of_found (by rw [hfree]; exact List.cons_ne_nil _ _) hfound
        dsimp only
        rw [if_pos hneeds, hfree, List.tail_cons, ih (loop.draw hnext (by split <;> rfl) hfound)]
        have hmapping : (if n + 1 = 127 then PayloadType.disable { pt with number := (n : Int) }
            else { pt with number := (n : Int) }).mapping = (↑n, pt.codec) := by split <;> rfl
        rw [List.map_append, List.map_singleton, hmapping, List.append_assoc]
        rfl
      | none =>
        have hnil : freeNumbers codecs dynNumber = [] := by simpa using hnext
        dsimp only
        rw [ih loop.exhausted, freeNumbers_eq_nil (Nat.le_refl _), hnil, List.map_append,
          List.append_assoc]
        split <;> rfl
    · next hfound =>
      rw [if_neg fun hneeds => hfound (loop.found_of_needs hneeds), ih (loop.keep hfound),
        List.map_append, List.append_assoc]
      rfl

theorem assign_mapping (codecs : List PayloadType) :
    (assignPayloadTypeNumbers [] codecs dynPt).map PayloadType.mapping =
      dealt [] codecs (freeNumbers codecs dynPt) :=
  assign_eq_dealt (Numbering.start codecs)

/-- The mappings of a list are what was drawn and what was kept. -/
theorem mem_dealt {m : Int × (List Char × Int × Int)} (done elem : List PayloadType)
    (free : List Nat) :
    m ∈ dealt done elem free ↔
      (∃ p ∈ (inNeed done elem).zip free, m = (↑p.2, p.1.codec)) ∨
        ∃ pt ∈ settled done elem ++ (inNeed done elem).drop free.length, m = pt.mapping := by
  induction elem generalizing done free with
  | nil => simp [dealt, inNeed, settled]
  | cons pt elem ih =>
    by_cases hneeds : needsNumber done pt elem
    · cases free with
      | nil =>
        simp only [dealt, inNeed, settled, hneeds, if_true, List.mem_cons, ih]
        simp [or_left_comm]
      | cons n free =>
        simp only [dealt, inNeed, settled, hneeds, if_true, List.mem_cons, ih]
        simp [or_assoc]
    · simp only [dealt, inNeed, settled, hneeds, if_false, List.mem_cons, ih, List.cons_append]
      simp [or_left_comm]

/-- **What a list is given**: every entry has drawn its number or kept it. -/
theorem mem_assign_mapping {codecs : List PayloadType} {m : Int × (List Char × Int × Int)} :
    m ∈ (assignPayloadTypeNumbers [] codecs dynPt).map PayloadType.mapping ↔
      (∃ p ∈ draws codecs, m = (↑p.2, p.1.codec)) ∨ ∃ pt ∈ keepers codecs, m = pt.mapping := by
  rw [assign_mapping, mem_dealt]
  rfl

/-! ## Numbers that keep their codec -/

/-- No number stands for two codecs. -/
def NumbersKeepCodec (l : List PayloadType) : Prop :=
  ∀ x ∈ l, ∀ y ∈ l, x.number = y.number → x.number ≠ -1 → x.codec = y.codec

/-- The codec is frozen with this number. -/
def isRemembered (frozen : List PayloadType) (pt : PayloadType) : Bool :=
  frozen.any fun it => it.mapping == pt.mapping

/-- What a gathered list has to do with the numbers assigned before it. -/
structure Admits (frozen assigned codecs : List PayloadType) : Prop where
  /-- The free number whose turn it is for a codec was no other codec's. -/
  drawn : ∀ p ∈ draws codecs, ∀ x ∈ assigned, x.number = (p.2 : Int) → x.codec = p.1.codec
  /-- A number brought by a codec that is not frozen with it was no other codec's. -/
  brought : NumbersKeepCodec (assigned ++ (keepers codecs).filter fun pt => !isRemembered frozen pt)

theorem mapping_eq_iff {x y : PayloadType} :
    x.mapping = y.mapping ↔ x.number = y.number ∧ x.codec = y.codec := Prod.mk.injEq .. |>.to_iff

theorem NumbersKeepCodec.subset {l l' : List PayloadType} (h : NumbersKeepCodec l)
    (hsub : ∀ x ∈ l', ∃ y ∈ l, y.mapping = x.mapping) : NumbersKeepCodec l' := by
  intro x hx y hy hnumber hneg
  obtain ⟨x', hx', hxm⟩ := hsub x hx
  obtain ⟨y', hy', hym⟩ := hsub y hy
  obtain ⟨hxn, hxc⟩ := mapping_eq_iff.mp hxm
  obtain ⟨hyn, hyc⟩ := mapping_eq_iff.mp hym
  rw [← hxc, ← hyc]
  exact h x' hx' y' hy' (by rw [hxn, hyn, hnumber]) (by rwa [hxn])

theorem mem_of_inNeed {pt : PayloadType} (done elem : List PayloadType)
    (h : pt ∈ inNeed done elem) : pt ∈ elem := by
  induction elem generalizing done with
  | nil => exact h
  | cons e elem ih =>
    rw [inNeed] at h
    split at h
    · rcases List.mem_cons.mp h with rfl | h
      · exact List.mem_cons_self
      · exact List.mem_cons_of_mem _ (ih _ h)
    · exact List.mem_cons_of_mem _ (ih _ h)

theorem mem_of_settled {pt : PayloadType} (done elem : List PayloadType)
    (h : pt ∈ settled done elem) : pt ∈ elem := by
  induction elem generalizing done with
  | nil => exact h
  | cons e elem ih =>
    rw [settled] at h
    split at h
    · exact List.mem_cons_of_mem _ (ih _ h)
    · rcases List.mem_cons.mp h with rfl | h
      · exact List.mem_cons_self
      · exact List.mem_cons_of_mem _ (ih _ h)

theorem mem_of_keepers {pt : PayloadType} {codecs : List PayloadType} (h : pt ∈ keepers codecs) :
    pt ∈ codecs := by
  rcases List.mem_append.mp h with h | h
  · exact mem_of_settled [] codecs h
  · exact mem_of_inNeed [] codecs (List.mem_of_mem_drop h)

theorem draws_inj {codecs : List PayloadType} {p q : PayloadType × Nat} (hp : p ∈ draws codecs)
    (hq : q ∈ draws codecs) (h : p.2 = q.2) : p = q := by
  have hnodup : (freeNumbers codecs dynPt).Nodup := List.Nodup.filter _ List.nodup_range'
  obtain ⟨i, hi, rfl⟩ := List.mem_iff_getElem.mp hp
  obtain ⟨j, hj, rfl⟩ := List.mem_iff_getElem.mp hq
  simp only [draws, List.getElem_zip] at h ⊢
  obtain rfl := (hnodup.getElem_inj_iff).mp h
  rfl

theorem draws_free {codecs : List PayloadType} {p : PayloadType × Nat} (hp : p ∈ draws codecs) :
    ∀ pt ∈ codecs, pt.number ≠ (p.2 : Int) :=
  available_iff.mp (mem_freeNumbers.mp (List.of_mem_zip hp).2).2.2

/-- **One list**: what it is given leaves every number its codec if and only if that was so before
and the list is admitted. -/
theorem numbersKeepCodec_assign {frozen assigned : List PayloadType} (codecs : List PayloadType)
    (hfrozen : ∀ x ∈ frozen, x ∈ assigned) :
    NumbersKeepCodec (assigned ++ assignPayloadTypeNumbers [] codecs dynPt) ↔
      NumbersKeepCodec assigned ∧ Admits frozen assigned codecs := by
  have hassign : ∀ m, (∃ e ∈ assignPayloadTypeNumbers [] codecs dynPt, e.mapping = m) ↔
      (∃ p ∈ draws codecs, m = (↑p.2, p.1.codec)) ∨ ∃ pt ∈ keepers codecs, m = pt.mapping :=
    fun m => by rw [← List.mem_map, mem_assign_mapping]
  constructor
  · intro h
    refine ⟨h.subset fun x hx => ⟨x, List.mem_append_left _ hx, rfl⟩,
      fun p hp x hx hnumber => ?_, h.subset fun x hx => ?_⟩
    · obtain ⟨e, he, hmapping⟩ := (hassign (↑p.2, p.1.codec)).mpr (Or.inl ⟨p, hp, rfl⟩)
      obtain ⟨hen, hec⟩ : e.number = (p.2 : Int) ∧ e.codec = p.1.codec := Prod.mk.inj hmapping
      rw [← hec]
      exact h x (List.mem_append_left _ hx) e (List.mem_append_right _ he) (by rw [hnumber, hen])
        (by omega)
    · rcases List.mem_append.mp hx with hx | hx
      · exact ⟨x, List.mem_append_left _ hx, rfl⟩
      · obtain ⟨e, he, hmapping⟩ :=
          (hassign x.mapping).mpr (Or.inr ⟨x, (List.mem_filter.mp hx).1, rfl⟩)
        exact ⟨e, List.mem_append_right _ he, hmapping⟩
  · rintro ⟨-, hdrawn, hbrought⟩
    -- whoever is there was there before, brought a number, or drew it
    have horigin : ∀ x ∈ assigned ++ assignPayloadTypeNumbers [] codecs dynPt,
        (∃ y ∈ assigned ++ (keepers codecs).filter fun pt => !isRemembered frozen pt,
          y.mapping = x.mapping) ∨
        ∃ p ∈ draws codecs, x.number = (p.2 : Int) ∧ x.codec = p.1.codec := by
      intro x hx
      rcases List.mem_append.mp hx with hx | hx
      · exact Or.inl ⟨x, List.mem_append_left _ hx, rfl⟩
      rcases (hassign x.mapping).mp ⟨x, hx, rfl⟩ with ⟨p, hp, hmapping⟩ | ⟨pt, hpt, hmapping⟩
      · exact Or.inr ⟨p, hp, Prod.mk.inj hmapping⟩
      by_cases hrem : isRemembered frozen pt = true
      · obtain ⟨it, hit, heq⟩ := List.any_eq_true.mp hrem
        exact Or.inl ⟨it, List.mem_append_left _ (hfrozen it hit),
          (eq_of_beq heq).trans hmapping.symm⟩
      · exact Or.inl ⟨pt, List.mem_append_right _ (List.mem_filter.mpr ⟨hpt, by simpa using hrem⟩),
          hmapping.symm⟩
    -- a number that was drawn is the codec's that drew it
    have hdrew : ∀ p ∈ draws codecs,
        ∀ y ∈ assigned ++ (keepers codecs).filter fun pt => !isRemembered frozen pt,
          y.number = (p.2 : Int) → y.codec = p.1.codec := by
      intro p hp y hy hnumber
      rcases List.mem_append.mp hy with hy | hy
      · exact hdrawn p hp y hy hnumber
      · exact absurd hnumber (draws_free hp y (mem_of_keepers (List.mem_filter.mp hy).1))
    intro x hx y hy hnumber hneg
    rcases horigin x hx with ⟨x', hx', hxm⟩ | ⟨p, hp, hxn, hxc⟩
    · obtain ⟨hxn, hxc⟩ := mapping_eq_iff.mp hxm
      rcases horigin y hy with ⟨y', hy', hym⟩ | ⟨q, hq, hyn, hyc⟩
      · obtain ⟨hyn, hyc⟩ := mapping_eq_iff.mp hym
        rw [← hxc, ← hyc]
        exact hbrought x' hx' y' hy' (by rw [hxn, hyn, hnumber]) (by rwa [hxn])
      · rw [← hxc, hyc]
        exact hdrew q hq x' hx' (by rw [hxn, hnumber, hyn])
    · rcases horigin y hy with ⟨y', hy', hym⟩ | ⟨q, hq, hyn, hyc⟩
      · obtain ⟨hyn, hyc⟩ := mapping_eq_iff.mp hym
        rw [← hyc, hxc]
        exact (hdrew p hp y' hy' (by rw [hyn, ← hnumber, hxn])).symm
      · obtain rfl := draws_inj hp hq (by omega)
        rw [hxc, hyc]

/-! ## The numbers of a call -/

/-- A stream of the local description: what it offers, and what is frozen. -/
structure StreamNumbers where
  payloads : List PayloadType := []
  alreadyAssignedPayloads : List PayloadType := []

/-- `call->localdesc` -/
structure LocalNumbers where
  nbStreams : Nat := 0
  streams : Nat → StreamNumbers := fun _ => {}

/-- What a local description is made from. -/
structure OfferSettings where
  lc : CodecSettings
  /-- `params->audio_bw` -/
  audioBw : Int := 0
  /-- Video is asked for, and was not declined. -/
  hasVideo : Bool := false
  /-- The streams of the biggest description so far. -/
  biggestNbStreams : Nat := 1

namespace OfferSettings

variable (offer : OfferSettings)

def nbActiveStreams : Nat := if offer.hasVideo then 2 else 1

/-- What `make_codec_list` is called with for stream `i`. -/
def codecsOf (old : Option LocalNumbers) (i : Nat) :
    Option (CodecConstraints × SalStreamType × List PayloadType) :=
  let previouslyUsed := (old.map fun md => (md.streams i).alreadyAssignedPayloads).getD []
  if i = 0 then
    some ({ bandwidthLimit := offer.audioBw, maxCodecs := -1, previouslyUsed := previouslyUsed },
      .audio, offer.lc.audioCodecs)
  else if i = 1 ∧ offer.hasVideo then
    some ({ maxCodecs := -1, previouslyUsed := previouslyUsed }, .video, offer.lc.videoCodecs)
  else if i < max offer.biggestNbStreams offer.nbActiveStreams then
    -- a deactivated stream
    some ({ maxCodecs := 1 }, .video, offer.lc.videoCodecs)
  else none

/-- What stream `i` has before numbers are assigned. -/
def gatheredFor (old : Option LocalNumbers) (i : Nat) : List PayloadType :=
  match offer.codecsOf old i with
  | some (hints, stype, codecs) => offer.lc.gathered hints stype codecs
  | none => []

/-- The payload types of `linphone_call_make_local_media_description_with_params`; what is frozen
is passed on by `transfer_already_assigned_payload_types`. -/
def makeLocalMediaDescription (old : Option LocalNumbers) : LocalNumbers where
  nbStreams := max offer.biggestNbStreams offer.nbActiveStreams
  streams i :=
    { payloads :=
        match offer.codecsOf old i with
        | some (hints, stype, codecs) => offer.lc.makeCodecList hints stype codecs
        | none => []
      alreadyAssignedPayloads :=
        match old with
        | some md => if i < md.nbStreams then (md.streams i).alreadyAssignedPayloads else []
        | none => [] }

theorem makeLocalMediaDescription_payloads (old : Option LocalNumbers) (i : Nat) :
    ((offer.makeLocalMediaDescription old).streams i).payloads =
      assignPayloadTypeNumbers [] (offer.gatheredFor old i) dynPt := by
  simp only [makeLocalMediaDescription, gatheredFor]
  split <;> rfl

end OfferSettings

/-- `linphone_call_update_frozen_payloads`, for one stream. -/
def freezePayloads (alreadyAssigned : List PayloadType) : List PayloadType → List PayloadType
  | [] => alreadyAssigned
  | pt :: elem =>
    if isPayloadTypeNumberAvailable alreadyAssigned pt.number then
      freezePayloads (alreadyAssigned ++ [pt]) elem
    else freezePayloads alreadyAssigned elem

theorem mem_freezePayloads {x : PayloadType} (payloads alreadyAssigned : List PayloadType)
    (h : x ∈ freezePayloads alreadyAssigned payloads) : x ∈ alreadyAssigned ++ payloads := by
  induction payloads generalizing alreadyAssigned with
  | nil => exact List.mem_append_left _ h
  | cons pt elem ih =>
    rw [freezePayloads] at h
    split at h
    · simpa using ih _ h
    · rcases List.mem_append.mp (ih _ h) with h | h
      · exact List.mem_append_left _ h
      · exact List.mem_append_right _ (List.mem_cons_of_mem _ h)

/-- `linphone_call_update_frozen_payloads` -/
def LocalNumbers.updateFrozenPayloads (desc : LocalNumbers) (resultDesc : SalMediaDescription) :
    LocalNumbers :=
  { desc with
    streams := fun i =>
      let stream := desc.streams i
      if i < resultDesc.nbStreams then
        { stream with
          alreadyAssignedPayloads :=
            freezePayloads stream.alreadyAssignedPayloads (resultDesc.stream i).payloads }
      else stream }

/-- The payload types of a call. -/
structure CallNumbers where
  localdesc : Option LocalNumbers := none
  /-- Whatever a local description or a negotiated result had on a stream so far. -/
  assigned : Nat → List PayloadType := fun _ => []

inductive NumberingEvent
  /-- A local description is made. -/
  | offered (offer : OfferSettings)
  /-- The streams are updated with a result. -/
  | negotiated (resultDesc : SalMediaDescription)

namespace CallNumbers

def frozen (s : CallNumbers) (i : Nat) : List PayloadType :=
  (s.localdesc.map fun md => (md.streams i).alreadyAssignedPayloads).getD []

def step (s : CallNumbers) : NumberingEvent → CallNumbers
  | .offered offer =>
    let md := offer.makeLocalMediaDescription s.localdesc
    { localdesc := some md
      assigned := fun i => s.assigned i ++ (md.streams i).payloads }
  | .negotiated resultDesc =>
    match s.localdesc with
    | some md =>
      { localdesc := some (md.updateFrozenPayloads resultDesc)
        assigned := fun i =>
          if i < resultDesc.nbStreams then s.assigned i ++ (resultDesc.stream i).payloads
          else s.assigned i }
    | none => s -- nothing is negotiated without a local description

def run (events : List NumberingEvent) : CallNumbers := events.foldl step {}

/-- On every stream a number stands for one codec. -/
def Kept (s : CallNumbers) : Prop := ∀ i, NumbersKeepCodec (s.assigned i)

/-- What is frozen was assigned. -/
def FrozenAssigned (s : CallNumbers) : Prop := ∀ i, ∀ x ∈ s.frozen i, x ∈ s.assigned i

/-- The codecs of an offer find no number of another codec, nor does a result bring one. -/
def Meets (s : CallNumbers) : NumberingEvent → Prop
  | .offered offer => ∀ i, Admits (s.frozen i) (s.assigned i) (offer.gatheredFor s.localdesc i)
  | .negotiated resultDesc =>
    s.localdesc.isSome →
      ∀ i < resultDesc.nbStreams, NumbersKeepCodec (s.assigned i ++ (resultDesc.stream i).payloads)

theorem frozenAssigned_step {s : CallNumbers} (h : s.FrozenAssigned) (e : NumberingEvent) :
    (s.step e).FrozenAssigned := by
  intro i x hx
  cases e with
  | offered offer =>
    refine List.mem_append_left _ (h i x ?_)
    simp only [frozen, step, OfferSettings.makeLocalMediaDescription, Option.map_some,
      Option.getD_some] at hx
    cases hold : s.localdesc with
    | none => simp [hold] at hx
    | some md =>
      simp only [hold] at hx
      split at hx
      · simpa [frozen, hold] using hx
      · exact absurd hx List.not_mem_nil
  | negotiated resultDesc =>
    cases hold : s.localdesc with
    | none => simpa [step, hold] using h i x (by simpa [step, hold] using hx)
    | some md =>
      have hmd : ∀ y ∈ (md.streams i).alreadyAssignedPayloads, y ∈ s.assigned i :=
        fun y hy => h i y (by simpa [frozen, hold] using hy)
      simp only [frozen, step, hold, LocalNumbers.updateFrozenPayloads, Option.map_some,
        Option.getD_some] at hx ⊢
      split at hx
      · next hlt =>
        rw [if_pos hlt]
        rcases List.mem_append.mp (mem_freezePayloads _ _ hx) with hx | hx
        · exact List.mem_append_left _ (hmd x hx)
        · exact List.mem_append_right _ hx
      · next hlt =>
        rw [if_neg hlt]
        exact hmd x hx

/-- One step. -/
theorem kept_step {s : CallNumbers} (h : s.FrozenAssigned) (e : NumberingEvent) :
    (s.step e).Kept ↔ s.Kept ∧ s.Meets e := by
  cases e with
  | offered offer =>
    simp only [Kept, step, Meets, OfferSettings.makeLocalMediaDescription_payloads]
    rw [← forall_and]
    exact forall_congr' fun i => numbersKeepCodec_assign _ (h i)
  | negotiated resultDesc =>
    cases hold : s.localdesc with
    | none => simp [step, hold, Meets]
    | some md =>
      simp only [Kept, step, hold, Meets, Option.isSome_some, forall_const]
      constructor
      · intro hkept
        refine ⟨fun i => ?_, fun i hi => by simpa [hi] using hkept i⟩
        have hi := hkept i
        split at hi
        · exact hi.subset fun x hx => ⟨x, List.mem_append_left _ hx, rfl⟩
        · exact hi
      · rintro ⟨hkept, hmeets⟩ i
        split
        · next hlt => exact hmeets i hlt
        · exact hkept i

theorem run_append (events : List NumberingEvent) (e : NumberingEvent) :
    run (events ++ [e]) = (run events).step e := by
  rw [run, List.foldl_append]
  rfl

theorem frozenAssigned_run (events : List NumberingEvent) : (run events).FrozenAssigned := by
  induction events using List.reverseRecOn with
  | nil => exact fun i x hx => absurd hx List.not_mem_nil
  | append_singleton events e ih => exact run_append events e ▸ frozenAssigned_step ih e

/-- Every step of a run meets the condition. -/
def AllMeet (events : List NumberingEvent) : Prop :=
  ∀ before e, before ++ [e] <+: events → (run before).Meets e

end CallNumbers

open CallNumbers in
/-- **A number keeps its codec** in every state of a run exactly when every step meets the
condition. -/
theorem numbers_keep_their_codec (events : List NumberingEvent) :
    (∀ before, before <+: events → (run before).Kept) ↔ AllMeet events := by
  constructor
  · intro h before e hbegin
    have hkept := h (before ++ [e]) hbegin
    rw [run_append] at hkept
    exact ((kept_step (frozenAssigned_run before) e).mp hkept).2
  · intro h before
    induction before using List.reverseRecOn with
    | nil => exact fun _ _ x hx => absurd hx List.not_mem_nil
    | append_singleton before e ih =>
      intro hbegin
      rw [run_append]
      exact (kept_step (frozenAssigned_run before) e).mpr
        ⟨ih ((List.prefix_append before [e]).trans hbegin), h before e hbegin⟩

/-- `opus` was 96 when it was negotiated; `speex`, enabled alone for the next offer, gets 96. -/
theorem number_given_to_another_codec :
    let opus : PayloadType :=
      { mimeType := "opus", clockRate := 48000, channels := 2, number := -1
        flags := { enabled := true } }
    let speex : PayloadType :=
      { mimeType := "speex", clockRate := 8000, channels := 1, number := -1
        flags := { enabled := true } }
    let negotiated : SalMediaDescription :=
      SalMediaDescription.setStream { nbStreams := 1 } 0
        { payloads := [{ opus with number := 96 }] }
    ¬∀ before, before <+: [NumberingEvent.offered { lc := { audioCodecs := [opus] } },
        .negotiated negotiated, .offered { lc := { audioCodecs := [speex] } }] →
      (CallNumbers.run before).Kept := by
  intro opus speex negotiated h
  have hkept := h _ List.prefix_rfl 0
  have hcodec := hkept { opus with number := 96 } (by decide +kernel)
    { speex with number := 96 } (by decide +kernel) rfl (by decide)
  exact absurd hcodec (by decide +kernel)

end Linphone
