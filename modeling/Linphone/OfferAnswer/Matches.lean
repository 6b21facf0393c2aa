import Linphone.OfferAnswer.Payloads
import Mathlib.Data.List.Nodup

/-!
# What the matchers find

The matchers of `coreapi/offeranswer.c` in closed form. All a matcher can do to the local list is
to make every `opus` entry mono, so during a run of `match_payloads` the list is either the one
it began with or its `toMono` image; and which entry a payload type is matched with can be told
from the list alone.

`matchedPairs` lists what `match_payloads` matches with what. Both modes of the function build their
result from it: `matchPayloads_answering` for the answerer, `matchPayloads_reading` for the
offerer.
-/

namespace Linphone

variable (lib : MediaLib)

/-! ## Codecs -/

/-- What makes two payload types the same codec. -/
def PayloadType.codec (pt : PayloadType) : List Char × Int × Int :=
  (pt.mimeType.toList.map Char.toLower, pt.clockRate, pt.channels)

theorem sameCodec_iff {pt refpt : PayloadType} :
    sameCodec pt refpt = true ↔ pt.codec = refpt.codec := by
  simp [sameCodec, PayloadType.codec, strcasecmp, and_assoc]

/-- An `opus` entry. -/
def PayloadType.isOpus (pt : PayloadType) : Bool := strcasecmp pt.mimeType "opus"

/-- `pt->channels = 1`, where `opus_match` does it. -/
def PayloadType.toMono (pt : PayloadType) : PayloadType :=
  if pt.isOpus then { pt with channels := 1 } else pt

theorem toMono_of_opus {pt : PayloadType} (h : pt.isOpus) :
    pt.toMono = { pt with channels := 1 } := if_pos h

theorem toMono_of_not_opus {pt : PayloadType} (h : ¬pt.isOpus) : pt.toMono = pt := if_neg h

@[simp] theorem toMono_mimeType (pt : PayloadType) : pt.toMono.mimeType = pt.mimeType := by
  unfold PayloadType.toMono; split <;> rfl

@[simp] theorem toMono_number (pt : PayloadType) : pt.toMono.number = pt.number := by
  unfold PayloadType.toMono; split <;> rfl

@[simp] theorem toMono_clockRate (pt : PayloadType) : pt.toMono.clockRate = pt.clockRate := by
  unfold PayloadType.toMono; split <;> rfl

@[simp] theorem toMono_recvFmtp (pt : PayloadType) : pt.toMono.recvFmtp = pt.recvFmtp := by
  unfold PayloadType.toMono; split <;> rfl

@[simp] theorem toMono_isOpus (pt : PayloadType) : pt.toMono.isOpus = pt.isOpus := by
  simp only [PayloadType.isOpus, toMono_mimeType]

@[simp] theorem toMono_toMono (pt : PayloadType) : pt.toMono.toMono = pt.toMono := by
  by_cases h : pt.isOpus = true
  · have h' : pt.toMono.isOpus = true := by simpa using h
    rw [toMono_of_opus h', toMono_of_opus h]
  · have h' : ¬pt.toMono.isOpus = true := by simpa using h
    rw [toMono_of_not_opus h']

theorem map_toMono_toMono (l : List PayloadType) :
    (l.map PayloadType.toMono).map PayloadType.toMono = l.map PayloadType.toMono := by
  simp [Function.comp_def]

theorem strcasecmp_of_codec {pt refpt : PayloadType} (h : pt.codec = refpt.codec) (s : String) :
    strcasecmp pt.mimeType s = strcasecmp refpt.mimeType s := by
  simp only [PayloadType.codec, Prod.mk.injEq] at h
  simp only [strcasecmp, h.1]

theorem isOpus_of_codec {pt refpt : PayloadType} (h : pt.codec = refpt.codec) :
    pt.isOpus = refpt.isOpus := strcasecmp_of_codec h "opus"

theorem strcasecmp_comm (s t : String) : strcasecmp s t = strcasecmp t s := by
  simp only [strcasecmp]
  exact Bool.beq_comm

/-! ## The matchers in closed form -/

/-- The first `opus` entry. -/
def firstOpus (l : List PayloadType) : Option PayloadType := l.find? (·.isOpus)

/-- The last `opus` entry. -/
def lastOpus (l : List PayloadType) : Option PayloadType := (l.filter (·.isOpus)).getLast?

/-- Asked for mono, `opus_match` makes every entry mono and matchedPairs with the last. -/
theorem opusMatch_mono {refpt : PayloadType} (h : refpt.channels = 1) (l : List PayloadType)
    (c : Option PayloadType) :
    opusMatch refpt l c =
      (l.map PayloadType.toMono, ((lastOpus l).map PayloadType.toMono).or c) := by
  induction l generalizing c with
  | nil => rfl
  | cons pt l ih =>
      by_cases hpt : pt.isOpus = true
      · have hpt' : strcasecmp pt.mimeType "opus" = true := hpt
        simp only [opusMatch, hpt', h, if_true, ih, List.map_cons, toMono_of_opus hpt]
        congr 1
        simp only [lastOpus, List.filter_cons_of_pos hpt]
        cases hl : l.filter (·.isOpus) with
        | nil => simp [toMono_of_opus hpt]
        | cons b l' => simp [List.getLast?_cons]
      · have hpt' : strcasecmp pt.mimeType "opus" = false := by simpa [PayloadType.isOpus] using hpt
        simp only [opusMatch, hpt', Bool.false_eq_true, if_false, ih, List.map_cons,
          toMono_of_not_opus hpt, lastOpus, List.filter_cons_of_neg hpt]

/-- Asked for stereo, it matchedPairs with the first entry. -/
theorem opusMatch_stereo {refpt : PayloadType} (h : refpt.channels = 2) (l : List PayloadType) :
    opusMatch refpt l none = (l, firstOpus l) := by
  induction l with
  | nil => rfl
  | cons pt l ih =>
      by_cases hpt : pt.isOpus = true
      · have hpt' : strcasecmp pt.mimeType "opus" = true := hpt
        have hne : ¬refpt.channels = 1 := by omega
        simp [opusMatch, hpt', h, firstOpus, hpt]
      · have hpt' : strcasecmp pt.mimeType "opus" = false := by simpa [PayloadType.isOpus] using hpt
        simp [opusMatch, hpt', ih, firstOpus, hpt]

theorem opusMatch_other {refpt : PayloadType} (h1 : refpt.channels ≠ 1) (h2 : refpt.channels ≠ 2)
    (l : List PayloadType) : opusMatch refpt l none = (l, none) := by
  induction l with
  | nil => rfl
  | cons pt l ih => simp [opusMatch, h1, h2, ih]

/-- The match of `refpt` in `l`. -/
def bestMatch (l : List PayloadType) (refpt : PayloadType) : Option PayloadType :=
  (findPayloadTypeBestMatch lib l refpt).2

section

variable {l : List PayloadType} {refpt m : PayloadType}

theorem dispatch_opus : (strcasecmp "opus" refpt.mimeType = true) = (refpt.isOpus = true) := by
  rw [strcasecmp_comm]
  rfl

/-- The local list after a matcher ran on it. -/
theorem findPayloadTypeBestMatch_locals (l : List PayloadType) (refpt : PayloadType) :
    (findPayloadTypeBestMatch lib l refpt).1 =
      if refpt.isOpus ∧ refpt.channels = 1 then l.map PayloadType.toMono else l := by
  unfold findPayloadTypeBestMatch
  simp only [dispatch_opus]
  by_cases hopus : refpt.isOpus = true
  · by_cases h1 : refpt.channels = 1
    · simp [hopus, h1, opusMatch_mono]
    · by_cases h2 : refpt.channels = 2
      · simp [hopus, h2, opusMatch_stereo]
      · simp [hopus, h1, opusMatch_other h1 h2]
  · simp only [hopus]
    split
    · rename_i h; exact absurd h Bool.false_ne_true
    · split
      · simp
      · split
        · simp
        · split <;> simp

theorem bestMatch_mono (l : List PayloadType) (hopus : refpt.isOpus) (h : refpt.channels = 1) :
    bestMatch lib l refpt = (lastOpus l).map PayloadType.toMono := by
  simp only [bestMatch, findPayloadTypeBestMatch, dispatch_opus, hopus, if_true,
    opusMatch_mono h, Option.or_none]

theorem bestMatch_stereo (l : List PayloadType) (hopus : refpt.isOpus)
    (h : refpt.channels = 2) : bestMatch lib l refpt = firstOpus l := by
  simp only [bestMatch, findPayloadTypeBestMatch, dispatch_opus, hopus, if_true,
    opusMatch_stereo h]

theorem bestMatch_other (l : List PayloadType) (hopus : refpt.isOpus) (h1 : refpt.channels ≠ 1)
    (h2 : refpt.channels ≠ 2) : bestMatch lib l refpt = none := by
  simp only [bestMatch, findPayloadTypeBestMatch, dispatch_opus, hopus, if_true,
    opusMatch_other h1 h2]

/-- The name one matcher takes for `G729`. -/
def PayloadType.isG729A (pt : PayloadType) : Bool := strcasecmp "G729A" pt.mimeType

/-- The names matched by their `octet-align` parameter too. -/
def PayloadType.isAmr (pt : PayloadType) : Bool :=
  strcasecmp "AMR" pt.mimeType || strcasecmp "AMR-WB" pt.mimeType

theorem bestMatch_g729A (l : List PayloadType) (hopus : ¬refpt.isOpus) (h : refpt.isG729A) :
    bestMatch lib l refpt = g729AMatch l refpt := by
  have h' : strcasecmp "G729A" refpt.mimeType = true := h
  simp only [bestMatch, findPayloadTypeBestMatch, dispatch_opus, hopus, h', if_true]
  rfl

theorem bestMatch_amr (l : List PayloadType) (hopus : ¬refpt.isOpus) (hg729A : ¬refpt.isG729A)
    (h : refpt.isAmr) : bestMatch lib l refpt = amrMatch lib l refpt := by
  have hg729A' : ¬strcasecmp "G729A" refpt.mimeType = true := hg729A
  simp only [PayloadType.isAmr, Bool.or_eq_true] at h
  simp only [bestMatch, findPayloadTypeBestMatch, dispatch_opus, hopus, hg729A']
  split
  · rename_i h; exact absurd h Bool.false_ne_true
  · rcases h with h | h
    · simp [h]
    · simp [h]

theorem bestMatch_generic (l : List PayloadType) (hopus : ¬refpt.isOpus)
    (hg729A : ¬refpt.isG729A) (h : ¬refpt.isAmr) :
    bestMatch lib l refpt = genericMatch l refpt := by
  have hg729A' : ¬strcasecmp "G729A" refpt.mimeType = true := hg729A
  simp only [PayloadType.isAmr, Bool.or_eq_true, not_or] at h
  simp only [bestMatch, findPayloadTypeBestMatch, dispatch_opus, hopus, hg729A', h]
  rfl

end

/-! ## What a match says -/

section

variable {l : List PayloadType} {refpt m : PayloadType}

theorem find?_toMono {p : PayloadType → Bool} (hsame : ∀ pt, p pt.toMono = p pt)
    (hopus : ∀ pt, p pt = true → ¬pt.isOpus = true) (l : List PayloadType) :
    (l.map PayloadType.toMono).find? p = l.find? p := by
  induction l with
  | nil => rfl
  | cons pt l ih =>
      rw [List.map_cons, List.find?_cons, List.find?_cons, hsame, ih]
      cases hp : p pt with
      | true => simp only [toMono_of_not_opus (hopus pt hp)]
      | false => rfl

theorem not_opus_of_sameCodec {pt : PayloadType} (hopus : ¬refpt.isOpus)
    (h : sameCodec pt refpt = true) : ¬pt.isOpus = true := by
  rw [isOpus_of_codec (sameCodec_iff.mp h)]
  exact hopus

theorem sameCodec_toMono (hopus : ¬refpt.isOpus) (pt : PayloadType) :
    sameCodec pt.toMono refpt = sameCodec pt refpt := by
  by_cases hpt : pt.isOpus = true
  · have hne : ∀ pt : PayloadType, pt.isOpus = true → sameCodec pt refpt = false := by
      intro pt hpt
      rw [← Bool.not_eq_true]
      exact fun h => not_opus_of_sameCodec hopus h hpt
    rw [hne _ hpt, hne _ (by simpa using hpt)]
  · rw [toMono_of_not_opus hpt]

/-- `g729A_match` finds the last entry of that name and channel count. -/
theorem g729AMatch_eq (l : List PayloadType) (refpt : PayloadType) :
    g729AMatch l refpt = (l.filter fun pt =>
      strcasecmp pt.mimeType "G729" && refpt.channels == pt.channels).getLast? := by
  suffices h : ∀ c : Option PayloadType, l.foldl (fun candidate pt =>
        if strcasecmp pt.mimeType "G729" && refpt.channels == pt.channels then some pt
        else candidate) c =
      (l.filter fun pt =>
        strcasecmp pt.mimeType "G729" && refpt.channels == pt.channels).getLast?.or c by
    rw [g729AMatch, h, Option.or_none]
  induction l with
  | nil => intro c; rfl
  | cons pt l ih =>
      intro c
      rw [List.foldl_cons, ih]
      by_cases hpt : (strcasecmp pt.mimeType "G729" && refpt.channels == pt.channels) = true
      · simp only [List.filter_cons, hpt, if_true, List.getLast?_cons]
        cases (l.filter fun pt =>
          strcasecmp pt.mimeType "G729" && refpt.channels == pt.channels).getLast? <;> rfl
      · simp only [List.filter_cons, hpt, if_false, Bool.false_eq_true]

theorem not_opus_of_g729 {pt : PayloadType} (h : strcasecmp pt.mimeType "G729" = true) :
    ¬pt.isOpus = true := by
  rw [strcasecmp_iff] at h
  simp only [PayloadType.isOpus, strcasecmp, h]
  decide

theorem filter_toMono {p : PayloadType → Bool} (hsame : ∀ pt, p pt.toMono = p pt)
    (hopus : ∀ pt, p pt = true → ¬pt.isOpus = true) (l : List PayloadType) :
    (l.map PayloadType.toMono).filter p = l.filter p := by
  induction l with
  | nil => rfl
  | cons pt l ih =>
      rw [List.map_cons, List.filter_cons, List.filter_cons, hsame, ih]
      cases hp : p pt with
      | true => simp only [toMono_of_not_opus (hopus pt hp)]
      | false => rfl

/-- A match other than one for `opus` does not see what a mono `opus` did to the list. -/
theorem bestMatch_toMono (hopus : ¬refpt.isOpus) (l : List PayloadType) :
    bestMatch lib (l.map PayloadType.toMono) refpt = bestMatch lib l refpt := by
  by_cases hg729A : refpt.isG729A = true
  · rw [bestMatch_g729A lib _ hopus hg729A, bestMatch_g729A lib _ hopus hg729A, g729AMatch_eq,
      g729AMatch_eq, filter_toMono]
    · intro pt
      by_cases hpt : strcasecmp pt.mimeType "G729" = true
      · rw [toMono_of_not_opus (not_opus_of_g729 hpt)]
      · simp [hpt]
    · intro pt hpt
      exact not_opus_of_g729 (Bool.and_eq_true_iff.mp hpt).1
  · by_cases hamr : refpt.isAmr = true
    · rw [bestMatch_amr lib _ hopus hg729A hamr, bestMatch_amr lib _ hopus hg729A hamr]
      refine find?_toMono (fun pt => ?_) (fun pt hpt => ?_) l
      · rw [sameCodec_toMono hopus, toMono_recvFmtp]
      · exact not_opus_of_sameCodec hopus (Bool.and_eq_true_iff.mp hpt).1
    · rw [bestMatch_generic lib _ hopus hg729A hamr, bestMatch_generic lib _ hopus hg729A hamr]
      exact find?_toMono (sameCodec_toMono hopus) (fun pt => not_opus_of_sameCodec hopus) l

/-- A match other than one for `opus` is an entry of the list, of the same codec unless the name
is `G729A`. -/
theorem bestMatch_spec (hopus : ¬refpt.isOpus) (h : bestMatch lib l refpt = some m) :
    m ∈ l ∧ (if refpt.isG729A then strcasecmp m.mimeType "G729" = true else m.codec = refpt.codec) ∧
      (refpt.isAmr → ¬refpt.isG729A →
        octetAlign lib m.recvFmtp = octetAlign lib refpt.sendFmtp) := by
  by_cases hg729A : refpt.isG729A = true
  · rw [bestMatch_g729A lib _ hopus hg729A, g729AMatch_eq] at h
    have hm := List.mem_filter.mp (List.mem_of_getLast? h)
    rw [if_pos hg729A]
    exact ⟨hm.1, (Bool.and_eq_true_iff.mp hm.2).1, fun _ hne => absurd hg729A hne⟩
  · rw [if_neg hg729A]
    by_cases hamr : refpt.isAmr = true
    · rw [bestMatch_amr lib _ hopus hg729A hamr, amrMatch] at h
      have hm := List.find?_some h
      simp only [Bool.and_eq_true, beq_iff_eq] at hm
      exact ⟨List.mem_of_find?_eq_some h, sameCodec_iff.mp hm.1, fun _ _ => hm.2⟩
    · rw [bestMatch_generic lib _ hopus hg729A hamr, genericMatch] at h
      have hm := List.find?_some h
      exact ⟨List.mem_of_find?_eq_some h, sameCodec_iff.mp hm, fun hamr' => absurd hamr' hamr⟩

/-- An entry of the same codec, and for AMR of the same packing, is found. -/
theorem bestMatch_exists (hopus : ¬refpt.isOpus) (hg729A : ¬refpt.isG729A) {o : PayloadType}
    (ho : o ∈ l) (hcodec : o.codec = refpt.codec)
    (hpacking : refpt.isAmr → octetAlign lib o.recvFmtp = octetAlign lib refpt.sendFmtp) :
    ∃ m, bestMatch lib l refpt = some m := by
  rw [← Option.isSome_iff_exists]
  by_cases hamr : refpt.isAmr = true
  · rw [bestMatch_amr lib _ hopus hg729A hamr, amrMatch, List.find?_isSome]
    exact ⟨o, ho, Bool.and_eq_true_iff.mpr
      ⟨sameCodec_iff.mpr hcodec, beq_iff_eq.mpr (hpacking hamr)⟩⟩
  · rw [bestMatch_generic lib _ hopus hg729A hamr, genericMatch, List.find?_isSome]
    exact ⟨o, ho, sameCodec_iff.mpr hcodec⟩

end

theorem mem_of_firstOpus {l : List PayloadType} {m : PayloadType} (h : firstOpus l = some m) :
    m ∈ l ∧ m.isOpus := by
  have hm := List.find?_some h
  exact ⟨List.mem_of_find?_eq_some h, hm⟩

theorem mem_of_lastOpus {l : List PayloadType} {m : PayloadType} (h : lastOpus l = some m) :
    m ∈ l ∧ m.isOpus :=
  List.mem_filter.mp (List.mem_of_getLast? h)

theorem lastOpus_toMono (l : List PayloadType) :
    (lastOpus (l.map PayloadType.toMono)).map PayloadType.toMono =
      (lastOpus l).map PayloadType.toMono := by
  have hfilter : (l.map PayloadType.toMono).filter (·.isOpus) =
      (l.filter (·.isOpus)).map PayloadType.toMono := by
    rw [List.filter_map]
    simp [Function.comp_def]
  rw [lastOpus, hfilter, List.getLast?_map, Option.map_map]
  simp [lastOpus, Function.comp_def]

/-- A match for `opus` is one, and no other is. -/
theorem bestMatch_isOpus {l : List PayloadType} {refpt m : PayloadType}
    (h : bestMatch lib l refpt = some m) : m.isOpus = refpt.isOpus := by
  by_cases hopus : refpt.isOpus = true
  · rw [hopus]
    by_cases h1 : refpt.channels = 1
    · rw [bestMatch_mono lib l hopus h1] at h
      obtain ⟨o, ho, rfl⟩ := Option.map_eq_some_iff.mp h
      rw [toMono_isOpus]
      exact (mem_of_lastOpus ho).2
    · by_cases h2 : refpt.channels = 2
      · rw [bestMatch_stereo lib l hopus h2] at h
        exact (mem_of_firstOpus h).2
      · rw [bestMatch_other lib l hopus h1 h2] at h
        exact absurd h (by simp)
  · have hspec := (bestMatch_spec lib hopus h).2.1
    split at hspec
    · rw [Bool.eq_iff_iff]
      exact iff_of_false (not_opus_of_g729 hspec) hopus
    · exact isOpus_of_codec hspec

/-! ## What is matched with what -/

/-- The pairs `match_payloads` adds to its result, a payload type of the remote list with its
match; the loop with its two variables. -/
def matchedPairs (oneMatchingCodec : Bool) :
    List PayloadType → Bool → List PayloadType → List (PayloadType × PayloadType)
  | _, _, [] => []
  | locals, foundCodec, p2 :: remote =>
      let r := findPayloadTypeBestMatch lib locals p2
      match r.2 with
      | none => matchedPairs oneMatchingCodec r.1 foundCodec remote
      | some matched =>
          let isCodec := !strcasecmp matched.mimeType "telephone-event"
          if oneMatchingCodec && isCodec && foundCodec then
            matchedPairs oneMatchingCodec r.1 foundCodec remote
          else
            (p2, matched) ::
              matchedPairs oneMatchingCodec r.1 (foundCodec || (oneMatchingCodec && isCodec)) remote

theorem matchedPairs_cons (one found : Bool) (locals remote : List PayloadType) (p2 : PayloadType) :
    matchedPairs lib one locals found (p2 :: remote) =
      match (findPayloadTypeBestMatch lib locals p2).2 with
      | none => matchedPairs lib one (findPayloadTypeBestMatch lib locals p2).1 found remote
      | some m =>
          if one && !strcasecmp m.mimeType "telephone-event" && found then
            matchedPairs lib one (findPayloadTypeBestMatch lib locals p2).1 found remote
          else
            (p2, m) :: matchedPairs lib one (findPayloadTypeBestMatch lib locals p2).1
              (found || (one && !strcasecmp m.mimeType "telephone-event")) remote := rfl

/-- The entries for one pair: ours under the remote number, and when a response is read under
our own number too if it is another. -/
def entries (readingResponse : Bool) (pair : PayloadType × PayloadType) : List PayloadType :=
  let newp := negotiatedPayload lib pair.2 pair.1
  newp ::
    if readingResponse && pair.1.number != pair.2.number then
      [{ newp with number := pair.2.number }]
    else []

theorem foldl_matchPayload (reading one : Bool) (remote : List PayloadType) (s : MatchState) :
    (remote.foldl (matchPayload lib reading one) s).res =
      s.res ++ (matchedPairs lib one s.locals s.foundCodec remote).flatMap
        (entries lib reading) := by
  induction remote generalizing s with
  | nil => simp [matchedPairs]
  | cons p2 remote ih =>
      rw [List.foldl_cons, ih, matchedPairs_cons]
      cases h : (findPayloadTypeBestMatch lib s.locals p2).2 with
      | none => rw [matchPayload_none lib reading one h]
      | some m =>
          simp only [matchPayload, h]
          split
          · rfl
          · simp [entries]

/-- The local list is left as it was, or mono. -/
theorem foldl_matchPayload_locals (reading one : Bool) (remote : List PayloadType)
    (s : MatchState) :
    (remote.foldl (matchPayload lib reading one) s).locals = s.locals ∨
      (remote.foldl (matchPayload lib reading one) s).locals =
        s.locals.map PayloadType.toMono := by
  induction remote generalizing s with
  | nil => exact .inl rfl
  | cons p2 remote ih =>
      have hstep := matchPayload_locals lib reading one s p2
      rw [findPayloadTypeBestMatch_locals] at hstep
      rw [List.foldl_cons]
      rcases ih (matchPayload lib reading one s p2) with h | h <;> rw [h, hstep] <;> split
      · exact .inr rfl
      · exact .inl rfl
      · exact .inr (map_toMono_toMono _)
      · exact .inr rfl

/-- **The answerer's list**: one entry for each pair. -/
theorem matchPayloads_answering (locals remote : List PayloadType) (one : Bool) :
    (matchPayloads lib locals remote false one).2 =
      (matchedPairs lib one locals false remote).map fun pair =>
        negotiatedPayload lib pair.2 pair.1 := by
  simp only [matchPayloads, foldl_matchPayload, Bool.false_eq_true, if_false, List.nil_append]
  rw [List.map_eq_flatMap]
  rfl

/-- **The offerer's list**: the entries for each pair, and the rest of its own list. -/
theorem matchPayloads_reading (locals remote : List PayloadType) (one : Bool) :
    ∃ l, (l = locals ∨ l = locals.map PayloadType.toMono) ∧
      (matchPayloads lib locals remote true one).2 =
        addRemaining l ((matchedPairs lib one locals false remote).flatMap (entries lib true)) := by
  refine ⟨_, foldl_matchPayload_locals lib true one remote { locals := locals }, ?_⟩
  simp only [matchPayloads, foldl_matchPayload, if_true, List.nil_append]

/-! ## Which pairs there are -/

/-- A list whose `opus` entries are mono. -/
def AllMono (l : List PayloadType) : Prop := ∀ pt ∈ l, pt.isOpus → pt.channels = 1

theorem allMono_toMono (l : List PayloadType) : AllMono (l.map PayloadType.toMono) := by
  intro pt hpt hopus
  obtain ⟨o, -, rfl⟩ := List.mem_map.mp hpt
  rw [toMono_of_opus (by simpa using hopus)]

theorem AllMono.map_toMono {l : List PayloadType} (h : AllMono l) :
    l.map PayloadType.toMono = l := by
  conv_rhs => rw [← List.map_id l]
  apply List.map_congr_left
  intro pt hpt
  by_cases hopus : pt.isOpus = true
  · rw [toMono_of_opus hopus, ← h pt hpt hopus]
    rfl
  · exact toMono_of_not_opus hopus

section

variable {one found : Bool} {l remote : List PayloadType} {p2 : PayloadType}
  {pair : PayloadType × PayloadType}

/-- What a round adds to the pairs. -/
theorem matchedPairs_cons_cases (one found : Bool) (l remote : List PayloadType)
    (p2 : PayloadType) :
    ∃ found',
      matchedPairs lib one l found (p2 :: remote) =
          matchedPairs lib one (findPayloadTypeBestMatch lib l p2).1 found' remote ∨
        ∃ m, bestMatch lib l p2 = some m ∧
          matchedPairs lib one l found (p2 :: remote) =
            (p2, m) ::
              matchedPairs lib one (findPayloadTypeBestMatch lib l p2).1 found' remote := by
  rw [matchedPairs_cons]
  cases h : (findPayloadTypeBestMatch lib l p2).2 with
  | none => exact ⟨found, .inl rfl⟩
  | some m =>
      dsimp only
      split
      · exact ⟨found, .inl rfl⟩
      · exact ⟨_, .inr ⟨m, h, rfl⟩⟩

theorem locals_cases (l : List PayloadType) (p2 : PayloadType) :
    (findPayloadTypeBestMatch lib l p2).1 = l ∨
      (findPayloadTypeBestMatch lib l p2).1 = l.map PayloadType.toMono := by
  rw [findPayloadTypeBestMatch_locals]
  split
  · exact .inr rfl
  · exact .inl rfl

theorem matchedPairs_sublist (one found : Bool) (l remote : List PayloadType) :
    ((matchedPairs lib one l found remote).map Prod.fst).Sublist remote := by
  induction remote generalizing l found with
  | nil => exact List.Sublist.refl _
  | cons p2 remote ih =>
      obtain ⟨found', h | ⟨m, -, h⟩⟩ := matchedPairs_cons_cases lib one found l remote p2
      · rw [h]
        exact (ih _ _).cons p2
      · rw [h, List.map_cons]
        exact (ih _ _).cons_cons p2

/-- Each pair is a match in the local list, as it was or mono. -/
theorem bestMatch_of_mem_matchedPairs (h : pair ∈ matchedPairs lib one l found remote) :
    bestMatch lib l pair.1 = some pair.2 ∨
      bestMatch lib (l.map PayloadType.toMono) pair.1 = some pair.2 := by
  induction remote generalizing l found with
  | nil => exact absurd h List.not_mem_nil
  | cons p2 remote ih =>
      have hrest : ∀ found', pair ∈ matchedPairs lib one
        (findPayloadTypeBestMatch lib l p2).1 found'
          remote → bestMatch lib l pair.1 = some pair.2 ∨
            bestMatch lib (l.map PayloadType.toMono) pair.1 = some pair.2 := by
        intro found' h
        rcases locals_cases lib l p2 with hl | hl
        · rw [hl] at h
          exact ih h
        · rw [hl] at h
          have := ih h
          rw [map_toMono_toMono, or_self] at this
          exact .inr this
      obtain ⟨found', hr | ⟨m, hm, hr⟩⟩ := matchedPairs_cons_cases lib one found l remote p2
      · exact hrest found' (hr ▸ h)
      · rcases List.mem_cons.mp (hr ▸ h) with rfl | h
        · exact .inl hm
        · exact hrest found' h

theorem isOpus_of_mem_matchedPairs (h : pair ∈ matchedPairs lib one l found remote) :
    pair.2.isOpus = pair.1.isOpus := by
  rcases bestMatch_of_mem_matchedPairs lib h with h | h
  · exact bestMatch_isOpus lib h
  · exact bestMatch_isOpus lib h

/-- A match in a mono list is mono. -/
theorem bestMatch_allMono (hl : AllMono l) {m : PayloadType} (h : bestMatch lib l p2 = some m)
    (hopus : p2.isOpus) : m.channels = 1 := by
  by_cases h1 : p2.channels = 1
  · rw [bestMatch_mono lib l hopus h1] at h
    obtain ⟨o, ho, rfl⟩ := Option.map_eq_some_iff.mp h
    rw [toMono_of_opus (mem_of_lastOpus ho).2]
  · by_cases h2 : p2.channels = 2
    · rw [bestMatch_stereo lib l hopus h2] at h
      exact hl m (mem_of_firstOpus h).1 (mem_of_firstOpus h).2
    · rw [bestMatch_other lib l hopus h1 h2] at h
      exact absurd h (by simp)

/-- An `opus` pair is mono, or the first local entry for a stereo one. -/
theorem opus_of_mem_matchedPairs (h : pair ∈ matchedPairs lib one l found remote)
    (hopus : pair.1.isOpus) :
    pair.2.channels = 1 ∨ pair.1.channels = 2 ∧ firstOpus l = some pair.2 := by
  rcases bestMatch_of_mem_matchedPairs lib h with h | h
  · by_cases h1 : pair.1.channels = 1
    · rw [bestMatch_mono lib l hopus h1] at h
      obtain ⟨o, ho, hm⟩ := Option.map_eq_some_iff.mp h
      rw [← hm, toMono_of_opus (mem_of_lastOpus ho).2]
      exact .inl rfl
    · by_cases h2 : pair.1.channels = 2
      · exact .inr ⟨h2, (bestMatch_stereo lib l hopus h2).symm.trans h⟩
      · rw [bestMatch_other lib l hopus h1 h2] at h
        exact absurd h (by simp)
  · exact .inl (bestMatch_allMono lib (allMono_toMono l) h hopus)

/-- No stereo `opus` comes after a mono one. -/
def MonoStays (p q : PayloadType) : Prop :=
  p.isOpus → q.isOpus → p.channels = 1 → q.channels ≠ 2

/-- **Once an `opus` pair is mono, all later ones are.** -/
theorem matchedPairs_monoStays (one found : Bool) (l remote : List PayloadType) :
    (matchedPairs lib one l found remote).Pairwise fun x y => MonoStays x.2 y.2 := by
  induction remote generalizing l found with
  | nil => exact List.Pairwise.nil
  | cons p2 remote ih =>
      obtain ⟨found', h | ⟨m, hm, h⟩⟩ := matchedPairs_cons_cases lib one found l remote p2
      · rw [h]
        exact ih _ _
      · rw [h]
        refine List.Pairwise.cons (fun y hy hx hyo hmono hstereo => ?_) (ih _ _)
        have hp2 : p2.isOpus = true := (bestMatch_isOpus lib hm).symm.trans hx
        have hy1 : y.1.isOpus = true := (isOpus_of_mem_matchedPairs lib hy).symm.trans hyo
        have hlater := opus_of_mem_matchedPairs lib hy hy1
        rw [findPayloadTypeBestMatch_locals] at hlater
        by_cases h1 : p2.channels = 1
        · -- the local list is mono from here on
          rw [if_pos ⟨hp2, h1⟩] at hlater
          rcases hlater with hlater | ⟨-, hlater⟩
          · omega
          · have := allMono_toMono l y.2 (mem_of_firstOpus hlater).1 (mem_of_firstOpus hlater).2
            omega
        · -- the first entry of the local list is mono, and stays the first
          rw [if_neg fun h => h1 h.2] at hlater
          by_cases h2 : p2.channels = 2
          · rw [bestMatch_stereo lib l hp2 h2] at hm
            rcases hlater with hlater | ⟨-, hlater⟩
            · omega
            · rw [hm, Option.some.injEq] at hlater
              rw [← hlater] at hstereo
              exact absurd (hmono.symm.trans hstereo) (by decide)
          · rw [bestMatch_other lib l hp2 h1 h2] at hm
            exact absurd hm (by simp)

theorem bestMatch_toMono_of (hstereo : p2.isOpus → p2.channels ≠ 2) (l : List PayloadType) :
    bestMatch lib (l.map PayloadType.toMono) p2 = bestMatch lib l p2 := by
  by_cases hopus : p2.isOpus = true
  · by_cases h1 : p2.channels = 1
    · rw [bestMatch_mono lib _ hopus h1, bestMatch_mono lib _ hopus h1, lastOpus_toMono]
    · rw [bestMatch_other lib _ hopus h1 (hstereo hopus),
        bestMatch_other lib _ hopus h1 (hstereo hopus)]
  · exact bestMatch_toMono lib hopus l

/-- **When no stereo `opus` comes after a mono one, the matches are those of the list as it was.**
-/
theorem matchedPairs_eq_filterMap (found : Bool) (l : List PayloadType)
    (hremote : remote.Pairwise MonoStays) :
    matchedPairs lib false l found remote =
      remote.filterMap fun p2 => (bestMatch lib l p2).map (p2, ·) := by
  induction remote generalizing l found with
  | nil => rfl
  | cons p2 remote ih =>
      obtain ⟨hhead, htail⟩ := List.pairwise_cons.mp hremote
      have hnext : (remote.filterMap fun q =>
            (bestMatch lib (findPayloadTypeBestMatch lib l p2).1 q).map (q, ·)) =
          remote.filterMap fun q => (bestMatch lib l q).map (q, ·) := by
        apply List.filterMap_congr
        intro q hq
        rw [findPayloadTypeBestMatch_locals]
        split
        · rename_i hmono
          rw [bestMatch_toMono_of lib (fun hopus => hhead q hq hmono.1 hopus hmono.2)]
        · rfl
      rw [matchedPairs_cons, List.filterMap_cons, bestMatch]
      cases (findPayloadTypeBestMatch lib l p2).2 with
      | none => exact (ih _ _ htail).trans hnext
      | some m => exact congrArg _ ((ih _ _ htail).trans hnext)

end

end Linphone
