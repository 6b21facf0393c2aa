import Linphone.OfferAnswer.Matches
import Linphone.OfferAnswer.Outgoing

/-!
# Both ends agree on the payload types

The answerer matches its capabilities with the offer, the offerer its offer with the answer, and
both run `match_payloads`. In between the lists cross as SDP: `stream_description_to_sdp` writes
the number, the codec and the reception parameters of a payload type, and
`sdp_parse_payload_types` reads these parameters as the ones for sending.

What the offerer ends up with should be what was answered. `payloads_agree_iff` says when: each
capability that an offered payload type is answered with has to be in the offer under its own
name, so that the offerer finds it again.
-/

namespace Linphone

variable (lib : MediaLib)

/-! ## The exchange -/

/-- What the other end reads of a payload type. -/
structure Carried (pt read : PayloadType) : Prop where
  number : read.number = pt.number
  codec : read.codec = pt.codec
  sendFmtp : read.sendFmtp = pt.recvFmtp

/-- The way from one end to the other. -/
structure Wire where
  carry : PayloadType → PayloadType
  carried : ∀ pt, Carried pt (carry pt)

variable (there back : Wire) (caps offer : List PayloadType) (one : Bool)

/-- What the answerer makes of the offer. -/
def answerPayloads : List PayloadType :=
  (matchPayloads lib caps (offer.map there.carry) false one).2

/-- What the offerer makes of the answer. -/
def offererPayloads : List PayloadType :=
  (matchPayloads lib offer ((answerPayloads lib there caps offer one).map back.carry) true
    false).2

/-- `used_pt` of `make_profile`: the first payload type to send with. -/
def usedPt (payloads : List PayloadType) : Option PayloadType :=
  payloads.find? (·.flags.canSend)

/-- The entry to send with under a number. -/
def sendEntry (payloads : List PayloadType) (number : Int) : Option PayloadType :=
  payloads.find? fun pt => pt.number == number && pt.flags.canSend

/-- The offerer's list says the same as the answer. -/
structure PayloadsAgree (answer result : List PayloadType) : Prop where
  /-- Each answered number is sent with the answered codec. -/
  used : ∀ a ∈ answer, ∃ r, sendEntry result a.number = some r ∧ sameCodec r a
  /-- The offerer selects what the answerer put first. -/
  selected : ∀ a, answer.head? = some a →
    ∃ r, usedPt result = some r ∧ r.number = a.number ∧ sameCodec r a
  /-- No number stands for two codecs. -/
  unambiguous : ∀ r ∈ result, ∀ r' ∈ result, r.number = r'.number → sameCodec r r'

/-- An offer with `m` under its own name: a mono `opus` is compared with the last one of the
offer, a stereo one with the first, and any other codec has to be there. -/
def FoundBack (offer : List PayloadType) (m : PayloadType) : Prop :=
  if m.isOpus then
    m.channels = 1 ∧ (∃ o, lastOpus offer = some o ∧ o.clockRate = m.clockRate) ∨
      m.channels = 2 ∧ ∃ o, firstOpus offer = some o ∧ sameCodec o m
  else ∃ o ∈ offer, sameCodec o m

/-! ## What the two lists hold -/

section

variable (matched p2 : PayloadType)

@[simp] theorem negotiatedPayload_codec :
    (negotiatedPayload lib matched p2).codec = matched.codec := by
  unfold negotiatedPayload
  cases p2.sendFmtp <;> cases p2.flags.rtcpFeedbackEnabled <;> rfl

@[simp] theorem negotiatedPayload_number :
    (negotiatedPayload lib matched p2).number = p2.number := rfl

@[simp] theorem negotiatedPayload_canSend :
    (negotiatedPayload lib matched p2).flags.canSend = true := by
  unfold negotiatedPayload
  cases p2.sendFmtp <;> cases p2.flags.rtcpFeedbackEnabled <;> rfl

@[simp] theorem negotiatedPayload_recvFmtp :
    (negotiatedPayload lib matched p2).recvFmtp = matched.recvFmtp := by
  unfold negotiatedPayload
  cases p2.sendFmtp <;> cases p2.flags.rtcpFeedbackEnabled <;> rfl

end

theorem mem_entries {pair : PayloadType × PayloadType} {r : PayloadType} {reading : Bool}
    (h : r ∈ entries lib reading pair) :
    r.codec = pair.2.codec ∧ r.flags.canSend = true ∧
      (r.number = pair.1.number ∨ r.number = pair.2.number) := by
  unfold entries at h
  rcases List.mem_cons.mp h with rfl | h
  · exact ⟨negotiatedPayload_codec .., negotiatedPayload_canSend .., .inl rfl⟩
  · split at h
    · rw [List.mem_singleton.mp h]
      exact ⟨negotiatedPayload_codec .., negotiatedPayload_canSend .., .inr rfl⟩
    · exact absurd h List.not_mem_nil

/-- What `addRemaining` adds has a number that was not there. -/
theorem mem_addRemaining {locals res : List PayloadType} {r : PayloadType}
    (h : r ∈ addRemaining locals res) :
    r ∈ res ∨ ∃ p ∈ locals, r.number = p.number ∧ r.codec = p.codec ∧
      ∀ q ∈ res, q.number ≠ p.number := by
  induction locals generalizing res with
  | nil => exact .inl h
  | cons p locals ih =>
      unfold addRemaining at h
      rw [List.foldl_cons] at h
      split at h
      · rcases ih h with h | ⟨p', hp', hr⟩
        · exact .inl h
        · exact .inr ⟨p', .tail _ hp', hr⟩
      · rename_i hnew
        have hnew' : ∀ q ∈ res, q.number ≠ p.number := by
          simpa using hnew
        rcases ih h with h | ⟨p', hp', hn, hc, hr⟩
        · rcases List.mem_append.mp h with h | h
          · exact .inl h
          · rw [List.mem_singleton.mp h]
            exact .inr ⟨p, .head _, rfl, rfl, hnew'⟩
        · exact .inr ⟨p', .tail _ hp', hn, hc, fun q hq => hr q (List.mem_append_left _ hq)⟩

theorem subset_addRemaining (locals res : List PayloadType) : res <+: addRemaining locals res := by
  induction locals generalizing res with
  | nil => exact List.prefix_rfl
  | cons p locals ih =>
      unfold addRemaining
      rw [List.foldl_cons]
      split
      · exact ih res
      · exact (List.prefix_append _ _).trans (ih _)

/-! ## The pairs of the two ends -/

/-- What is matched with what at the answerer. -/
def answeredPairs : List (PayloadType × PayloadType) :=
  matchedPairs lib one caps false (offer.map there.carry)

/-- The entry of the answer for a pair, as the offerer reads it. -/
def readAnswer (pair : PayloadType × PayloadType) : PayloadType :=
  back.carry (negotiatedPayload lib pair.2 pair.1)

@[simp] theorem readAnswer_number (pair : PayloadType × PayloadType) :
    (readAnswer lib back pair).number = pair.1.number :=
  (back.carried _).number

@[simp] theorem readAnswer_codec (pair : PayloadType × PayloadType) :
    (readAnswer lib back pair).codec = pair.2.codec :=
  (back.carried _).codec.trans (negotiatedPayload_codec ..)

theorem readAnswer_sendFmtp (pair : PayloadType × PayloadType) :
    (readAnswer lib back pair).sendFmtp = pair.2.recvFmtp :=
  (back.carried _).sendFmtp.trans (negotiatedPayload_recvFmtp ..)

theorem answerPayloads_eq :
    answerPayloads lib there caps offer one =
      (answeredPairs lib there caps offer one).map fun pair =>
        negotiatedPayload lib pair.2 pair.1 :=
  matchPayloads_answering lib caps _ one

theorem channels_of_codec {p q : PayloadType} (h : p.codec = q.codec) :
    p.channels = q.channels := by
  simp only [PayloadType.codec, Prod.mk.injEq] at h
  exact h.2.2

theorem clockRate_of_codec {p q : PayloadType} (h : p.codec = q.codec) :
    p.clockRate = q.clockRate := by
  simp only [PayloadType.codec, Prod.mk.injEq] at h
  exact h.2.1

/-- Two `opus` codecs. -/
theorem codec_of_opus {p q : PayloadType} (hp : p.isOpus) (hq : q.isOpus)
    (hclock : p.clockRate = q.clockRate) (hchannels : p.channels = q.channels) :
    p.codec = q.codec := by
  have hname : p.mimeType.toList.map Char.toLower = q.mimeType.toList.map Char.toLower :=
    (strcasecmp_iff.mp hp).trans (strcasecmp_iff.mp hq).symm
  rw [PayloadType.codec, hname, hclock, hchannels]
  rfl

theorem MonoStays.congr {p q p' q' : PayloadType} (h : MonoStays p q) (hp : p'.codec = p.codec)
    (hq : q'.codec = q.codec) : MonoStays p' q' := by
  unfold MonoStays
  rw [isOpus_of_codec hp, isOpus_of_codec hq, channels_of_codec hp, channels_of_codec hq]
  exact h

theorem readAnswer_monoStays :
    ((answeredPairs lib there caps offer one).map (readAnswer lib back)).Pairwise MonoStays := by
  rw [List.pairwise_map]
  exact (matchedPairs_monoStays lib one false caps _).imp fun h =>
    h.congr (readAnswer_codec ..) (readAnswer_codec ..)

/-- **What the offerer matches with what.** -/
theorem offererPairs_eq :
    matchedPairs lib false offer false
        ((answerPayloads lib there caps offer one).map back.carry) =
      ((answeredPairs lib there caps offer one).map (readAnswer lib back)).filterMap fun a =>
        (bestMatch lib offer a).map (a, ·) := by
  have hread : (answerPayloads lib there caps offer one).map back.carry =
      (answeredPairs lib there caps offer one).map (readAnswer lib back) := by
    rw [answerPayloads_eq, List.map_map]
    rfl
  rw [hread]
  exact matchedPairs_eq_filterMap lib false offer (readAnswer_monoStays ..)

section

variable {lib there back caps offer one} {pair pair' : PayloadType × PayloadType}

theorem answered_from (h : pair ∈ answeredPairs lib there caps offer one) :
    ∃ o ∈ offer, pair.1 = there.carry o := by
  have hmem := (matchedPairs_sublist lib one false caps (offer.map there.carry)).subset
    (List.mem_map_of_mem h)
  obtain ⟨o, ho, hcarry⟩ := List.mem_map.mp hmem
  exact ⟨o, ho, hcarry.symm⟩

/-- The match of a pair other than an `opus` one. -/
theorem answered_spec (h : pair ∈ answeredPairs lib there caps offer one)
    (hopus : ¬pair.1.isOpus) :
    (if pair.1.isG729A then strcasecmp pair.2.mimeType "G729" = true
      else pair.2.codec = pair.1.codec) ∧
      (pair.1.isAmr → ¬pair.1.isG729A →
        octetAlign lib pair.2.recvFmtp = octetAlign lib pair.1.sendFmtp) := by
  rcases bestMatch_of_mem_matchedPairs lib h with h | h
  · exact (bestMatch_spec lib hopus h).2
  · exact (bestMatch_spec lib hopus h).2

theorem isG729A_of_codec {p q : PayloadType} (h : p.codec = q.codec) :
    p.isG729A = q.isG729A := by
  rw [PayloadType.isG729A, PayloadType.isG729A, strcasecmp_comm, strcasecmp_of_codec h,
    strcasecmp_comm]

theorem isAmr_of_codec {p q : PayloadType} (h : p.codec = q.codec) : p.isAmr = q.isAmr := by
  rw [PayloadType.isAmr, PayloadType.isAmr, strcasecmp_comm "AMR", strcasecmp_comm "AMR-WB",
    strcasecmp_of_codec h, strcasecmp_of_codec h, strcasecmp_comm "AMR",
    strcasecmp_comm "AMR-WB"]

/-- Nothing is ever answered under the name `G729A`. -/
theorem answered_not_g729A (h : pair ∈ answeredPairs lib there caps offer one)
    (hopus : ¬pair.1.isOpus) : ¬pair.2.isG729A = true := by
  have hspec := (answered_spec h hopus).1
  split at hspec
  · intro hname
    rw [PayloadType.isG729A, strcasecmp_iff] at hname
    rw [strcasecmp_iff, ← hname] at hspec
    exact absurd hspec (by decide)
  · rename_i hg729A
    rw [isG729A_of_codec hspec]
    exact hg729A

/-- A match is an entry of the list, or its mono form. -/
theorem bestMatch_mem {l : List PayloadType} {refpt m : PayloadType}
    (h : bestMatch lib l refpt = some m) : ∃ o ∈ l, m = o ∨ m = o.toMono := by
  by_cases hopus : refpt.isOpus = true
  · by_cases h1 : refpt.channels = 1
    · rw [bestMatch_mono lib l hopus h1] at h
      obtain ⟨o, ho, rfl⟩ := Option.map_eq_some_iff.mp h
      exact ⟨o, (mem_of_lastOpus ho).1, .inr rfl⟩
    · by_cases h2 : refpt.channels = 2
      · rw [bestMatch_stereo lib l hopus h2] at h
        exact ⟨m, (mem_of_firstOpus h).1, .inl rfl⟩
      · rw [bestMatch_other lib l hopus h1 h2] at h
        exact absurd h (by simp)
  · exact ⟨m, (bestMatch_spec lib hopus h).1, .inl rfl⟩

theorem number_of_eq_or_toMono {m o : PayloadType} (h : m = o ∨ m = o.toMono) :
    m.number = o.number := by
  rcases h with rfl | rfl
  · rfl
  · exact toMono_number o

theorem lastOpus_exists {l : List PayloadType} {o : PayloadType} (ho : o ∈ l) (hopus : o.isOpus) :
    ∃ x, lastOpus l = some x := by
  have hmem : o ∈ l.filter (·.isOpus) := List.mem_filter.mpr ⟨ho, hopus⟩
  rw [lastOpus, List.getLast?_eq_getLast_of_ne_nil (List.ne_nil_of_mem hmem)]
  exact ⟨_, rfl⟩

theorem firstOpus_exists {l : List PayloadType} {o : PayloadType} (ho : o ∈ l)
    (hopus : o.isOpus) : ∃ x, firstOpus l = some x := by
  rw [← Option.isSome_iff_exists, firstOpus, List.find?_isSome]
  exact ⟨o, ho, hopus⟩

/-- **The offerer finds the codec of a pair exactly when the offer has it.** -/
theorem foundBack_iff (back : Wire) (h : pair ∈ answeredPairs lib there caps offer one) :
    FoundBack offer pair.2 ↔
      ∃ m, bestMatch lib offer (readAnswer lib back pair) = some m ∧
        m.codec = pair.2.codec := by
  have hcodec : (readAnswer lib back pair).codec = pair.2.codec := readAnswer_codec ..
  unfold FoundBack
  by_cases hopus : pair.2.isOpus = true
  · rw [if_pos hopus]
    have hread : (readAnswer lib back pair).isOpus = true := (isOpus_of_codec hcodec).trans hopus
    by_cases h1 : pair.2.channels = 1
    · rw [bestMatch_mono lib offer hread ((channels_of_codec hcodec).trans h1)]
      constructor
      · rintro (⟨-, o, ho, hclock⟩ | ⟨h2, -⟩)
        · refine ⟨o.toMono, by rw [ho]; rfl, ?_⟩
          have ho' : o.isOpus = true := (mem_of_lastOpus ho).2
          refine codec_of_opus (by simpa using ho') hopus (by simpa using hclock) ?_
          rw [toMono_of_opus ho', h1]
        · omega
      · rintro ⟨m, hm, hmc⟩
        obtain ⟨o, ho, rfl⟩ := Option.map_eq_some_iff.mp hm
        exact .inl ⟨h1, o, ho, by simpa using clockRate_of_codec hmc⟩
    · by_cases h2 : pair.2.channels = 2
      · rw [bestMatch_stereo lib offer hread ((channels_of_codec hcodec).trans h2)]
        constructor
        · rintro (⟨h, -⟩ | ⟨-, o, ho, hsame⟩)
          · omega
          · exact ⟨o, ho, sameCodec_iff.mp hsame⟩
        · rintro ⟨m, hm, hmc⟩
          exact .inr ⟨h2, m, hm, sameCodec_iff.mpr hmc⟩
      · have hchannels := channels_of_codec hcodec
        rw [bestMatch_other lib offer hread (by omega) (by omega)]
        simp [h1, h2]
  · rw [if_neg hopus]
    have hopus1 : ¬pair.1.isOpus = true := by
      rw [← isOpus_of_mem_matchedPairs lib h]
      exact hopus
    have hread : ¬(readAnswer lib back pair).isOpus = true := by
      rw [isOpus_of_codec hcodec]
      exact hopus
    have hg729A : ¬(readAnswer lib back pair).isG729A = true := by
      rw [isG729A_of_codec hcodec]
      exact answered_not_g729A h hopus1
    constructor
    · rintro ⟨o, ho, hsame⟩
      have hfound : ∃ m, bestMatch lib offer (readAnswer lib back pair) = some m := by
        by_cases hamr : (readAnswer lib back pair).isAmr = true
        · -- the payload type that was offered has the packing that was answered
          obtain ⟨o', ho', hfrom⟩ := answered_from h
          obtain ⟨hspec, hpacking⟩ := answered_spec h hopus1
          rw [isAmr_of_codec hcodec] at hamr
          have hnot : ¬pair.1.isG729A = true := by
            intro hname
            rw [if_pos hname, strcasecmp_iff] at hspec
            simp only [PayloadType.isAmr, strcasecmp, hspec] at hamr
            exact absurd hamr (by decide)
          rw [if_neg hnot] at hspec
          have hcarried := there.carried o'
          rw [← hfrom] at hcarried
          refine bestMatch_exists lib hread hg729A ho' ?_ fun _ => ?_
          · rw [hcodec, hspec, hcarried.codec]
          · rw [readAnswer_sendFmtp, hpacking (isAmr_of_codec hspec ▸ hamr) hnot,
              hcarried.sendFmtp]
        · exact bestMatch_exists lib hread hg729A ho
            ((sameCodec_iff.mp hsame).trans hcodec.symm) fun hamr' => absurd hamr' hamr
      obtain ⟨m, hm⟩ := hfound
      have hspec := (bestMatch_spec lib hread hm).2.1
      rw [if_neg hg729A] at hspec
      exact ⟨m, hm, hspec.trans hcodec⟩
    · rintro ⟨m, hm, hmc⟩
      exact ⟨m, (bestMatch_spec lib hread hm).1, sameCodec_iff.mpr hmc⟩

end

/-! ## Positions in the offer -/

theorem rel_or_rel_of_pairwise {α : Type} {R : α → α → Prop} {l : List α} (h : l.Pairwise R)
    {a b : α} (ha : a ∈ l) (hb : b ∈ l) (hne : a ≠ b) : R a b ∨ R b a := by
  induction h with
  | nil => exact absurd ha List.not_mem_nil
  | @cons c l hc _ ih =>
      rcases List.mem_cons.mp ha with rfl | ha'
      · rcases List.mem_cons.mp hb with rfl | hb'
        · exact absurd rfl hne
        · exact .inl (hc b hb')
      · rcases List.mem_cons.mp hb with rfl | hb'
        · exact .inr (hc a ha')
        · exact ih ha' hb'

/-- No `opus` entry comes after the last one, nor before the first. -/
def AroundOpus (first last : Int) (u v : PayloadType) : Prop :=
  (v.isOpus → u.number ≠ last) ∧ (u.isOpus → v.number ≠ first)

section

variable {l : List PayloadType} {x y : PayloadType}

theorem pairwise_lastOpus (hdistinct : (l.map (·.number)).Nodup) (h : lastOpus l = some x) :
    l.Pairwise fun u v => v.isOpus → u.number ≠ x.number := by
  induction l with
  | nil => exact List.Pairwise.nil
  | cons a l ih =>
      obtain ⟨hnew, hrest⟩ := List.nodup_cons.mp hdistinct
      rcases hlast : lastOpus l with _ | x'
      · -- no `opus` entry is left
        have hnone : ∀ v ∈ l, ¬v.isOpus = true := by
          intro v hv hvo
          obtain ⟨z, hz⟩ := lastOpus_exists hv hvo
          rw [hlast] at hz
          exact absurd hz (by simp)
        refine List.Pairwise.cons (fun v hv hvo => absurd hvo (hnone v hv)) ?_
        exact List.pairwise_of_forall_mem_list fun u _ v hv hvo => absurd hvo (hnone v hv)
      · have hx : x' = x := by
          unfold lastOpus at h hlast
          rw [List.filter_cons] at h
          split at h
          · rw [List.getLast?_cons, hlast] at h
            exact Option.some.inj h
          · exact Option.some.inj (hlast.symm.trans h)
        subst hx
        refine List.Pairwise.cons (fun v _ _ hnumber => hnew ?_) (ih hrest hlast)
        exact List.mem_map.mpr ⟨x', (mem_of_lastOpus hlast).1, hnumber.symm⟩

theorem pairwise_firstOpus (hdistinct : (l.map (·.number)).Nodup) (h : firstOpus l = some x) :
    l.Pairwise fun u v => u.isOpus → v.number ≠ x.number := by
  induction l with
  | nil => exact List.Pairwise.nil
  | cons a l ih =>
      obtain ⟨hnew, hrest⟩ := List.nodup_cons.mp hdistinct
      by_cases ha : a.isOpus = true
      · have hx : a = x := by
          rw [firstOpus, List.find?_cons_of_pos ha] at h
          exact Option.some.inj h
        subst hx
        have hother : ∀ v ∈ l, v.number ≠ a.number := fun v hv hnumber =>
          hnew (List.mem_map.mpr ⟨v, hv, hnumber⟩)
        refine List.Pairwise.cons (fun v hv _ => hother v hv) ?_
        exact List.pairwise_of_forall_mem_list fun _ _ v hv _ => hother v hv
      · rw [firstOpus, List.find?_cons_of_neg ha] at h
        exact List.Pairwise.cons (fun _ _ hao => absurd hao ha) (ih hrest h)

theorem pairwise_aroundOpus (hdistinct : (l.map (·.number)).Nodup)
    (hfirst : firstOpus l = some x) (hlast : lastOpus l = some y) :
    l.Pairwise (AroundOpus x.number y.number) :=
  (pairwise_lastOpus hdistinct hlast).and (pairwise_firstOpus hdistinct hfirst)

/-- When the first `opus` entry is the last, it is the only one. -/
theorem eq_of_first_eq_last (hdistinct : (l.map (·.number)).Nodup)
    (hfirst : firstOpus l = some x) (hlast : lastOpus l = some y) (hsame : x.number = y.number)
    {o : PayloadType} (ho : o ∈ l) (hopus : o.isOpus) : o.number = x.number := by
  by_contra hne
  have hx := mem_of_firstOpus hfirst
  have haround := pairwise_aroundOpus hdistinct hfirst hlast
  rcases rel_or_rel_of_pairwise haround ho hx.1 (fun h => hne (h ▸ rfl)) with h | h
  · exact h.2 hopus rfl
  · exact h.1 hopus hsame

end

/-! ## One number, one codec -/

section

variable {lib there back caps offer one} {pair pair' : PayloadType × PayloadType}

/-- Payload types are answered once. -/
theorem answered_inj (hdistinct : (offer.map (·.number)).Nodup)
    (h : pair ∈ answeredPairs lib there caps offer one)
    (h' : pair' ∈ answeredPairs lib there caps offer one)
    (hnumber : pair.1.number = pair'.1.number) : pair = pair' := by
  have hsub := matchedPairs_sublist lib one false caps (offer.map there.carry)
  have hnodup : ((answeredPairs lib there caps offer one).map fun x => x.1.number).Nodup := by
    have hnumbers : (offer.map there.carry).map (·.number) = offer.map (·.number) := by
      rw [List.map_map]
      exact List.map_congr_left fun o _ => (there.carried o).number
    have hsub' := hsub.map (·.number)
    rw [List.map_map] at hsub'
    exact (hnumbers ▸ hdistinct).sublist hsub'
  exact List.inj_on_of_nodup_map hnodup h h' hnumber

/-- Two pairs by their places: around the first and last `opus` entries, and mono staying. -/
theorem answered_places {x y : PayloadType} (hdistinct : (offer.map (·.number)).Nodup)
    (hfirst : firstOpus offer = some x) (hlast : lastOpus offer = some y) :
    (answeredPairs lib there caps offer one).Pairwise fun u v =>
      AroundOpus x.number y.number u.1 v.1 ∧ MonoStays u.2 v.2 := by
  refine List.Pairwise.and ?_ (matchedPairs_monoStays lib one false caps _)
  have haround : (offer.map there.carry).Pairwise (AroundOpus x.number y.number) := by
    rw [List.pairwise_map]
    refine (pairwise_aroundOpus hdistinct hfirst hlast).imp fun {u v} h => ?_
    simpa only [AroundOpus, isOpus_of_codec (there.carried _).codec, (there.carried _).number]
      using h
  exact List.pairwise_map.mp
    (haround.sublist (matchedPairs_sublist lib one false caps (offer.map there.carry)))

/-- The number of a pair is that of an entry of the offer, `opus` like it. -/
theorem answered_origin (h : pair ∈ answeredPairs lib there caps offer one) :
    ∃ o ∈ offer, o.number = pair.1.number ∧ o.codec = pair.1.codec ∧
      o.isOpus = pair.2.isOpus := by
  obtain ⟨o, ho, hfrom⟩ := answered_from h
  have hcarried := there.carried o
  rw [← hfrom] at hcarried
  exact ⟨o, ho, hcarried.number.symm, hcarried.codec.symm,
    (isOpus_of_codec hcarried.codec.symm).trans (isOpus_of_mem_matchedPairs lib h).symm⟩

/-- The cases of `FoundBack` for an `opus` pair. -/
theorem foundBack_opus {m : PayloadType} (h : FoundBack offer m) (hopus : m.isOpus) :
    m.channels = 1 ∧ (∃ o, lastOpus offer = some o ∧ o.clockRate = m.clockRate) ∨
      m.channels = 2 ∧ ∃ o, firstOpus offer = some o ∧ sameCodec o m := by
  unfold FoundBack at h
  rwa [if_pos hopus] at h

/-- Two `opus` pairs found back with one channel count have one codec. -/
theorem codec_of_foundBack (hback : FoundBack offer pair.2) (hback' : FoundBack offer pair'.2)
    (hopus : pair.2.isOpus) (hopus' : pair'.2.isOpus)
    (hchannels : pair.2.channels = pair'.2.channels) : pair.2.codec = pair'.2.codec := by
  rcases foundBack_opus hback hopus with ⟨h1, o, ho, hclock⟩ | ⟨h2, o, ho, hsame⟩
  · rcases foundBack_opus hback' hopus' with ⟨h1', o', ho', hclock'⟩ | ⟨h2', -⟩
    · rw [ho, Option.some.injEq] at ho'
      subst ho'
      exact codec_of_opus hopus hopus' (hclock.symm.trans hclock') hchannels
    · omega
  · rcases foundBack_opus hback' hopus' with ⟨h1', -⟩ | ⟨h2', o', ho', hsame'⟩
    · omega
    · rw [ho, Option.some.injEq] at ho'
      subst ho'
      exact (sameCodec_iff.mp hsame).symm.trans (sameCodec_iff.mp hsame')

/-- Which entry of the offer an `opus` pair is matched with. -/
theorem matched_opus {m : PayloadType} (hopus : pair.2.isOpus)
    (hm : bestMatch lib offer (readAnswer lib back pair) = some m) :
    pair.2.channels = 1 ∧ (∃ y, lastOpus offer = some y ∧ m.number = y.number) ∨
      pair.2.channels = 2 ∧ firstOpus offer = some m := by
  have hcodec : (readAnswer lib back pair).codec = pair.2.codec := readAnswer_codec ..
  have hread : (readAnswer lib back pair).isOpus = true := (isOpus_of_codec hcodec).trans hopus
  rw [← channels_of_codec hcodec]
  by_cases h1 : (readAnswer lib back pair).channels = 1
  · rw [bestMatch_mono lib offer hread h1] at hm
    obtain ⟨y, hy, rfl⟩ := Option.map_eq_some_iff.mp hm
    exact .inl ⟨h1, y, hy, toMono_number y⟩
  · by_cases h2 : (readAnswer lib back pair).channels = 2
    · exact .inr ⟨h2, (bestMatch_stereo lib offer hread h2).symm.trans hm⟩
    · rw [bestMatch_other lib offer hread h1 h2] at hm
      exact absurd hm (by simp)

/-- Any other pair is matched with an entry of its codec. -/
theorem matched_other (h : pair ∈ answeredPairs lib there caps offer one)
    (hopus : ¬pair.2.isOpus) {m : PayloadType}
    (hm : bestMatch lib offer (readAnswer lib back pair) = some m) :
    m ∈ offer ∧ m.codec = pair.2.codec := by
  have hcodec : (readAnswer lib back pair).codec = pair.2.codec := readAnswer_codec ..
  have hread : ¬(readAnswer lib back pair).isOpus = true := by
    rw [isOpus_of_codec hcodec]
    exact hopus
  have hspec := bestMatch_spec lib hread hm
  rw [if_neg] at hspec
  · exact ⟨hspec.1, hspec.2.1.trans hcodec⟩
  · rw [isG729A_of_codec hcodec]
    refine answered_not_g729A h ?_
    rw [← isOpus_of_mem_matchedPairs lib h]
    exact hopus

theorem eq_of_number (hdistinct : (offer.map (·.number)).Nodup) {o o' : PayloadType}
    (ho : o ∈ offer) (ho' : o' ∈ offer) (h : o.number = o'.number) : o = o' :=
  List.inj_on_of_nodup_map hdistinct ho ho' h

section

variable (hdistinct : (offer.map (·.number)).Nodup)
  (h : pair ∈ answeredPairs lib there caps offer one)
  (h' : pair' ∈ answeredPairs lib there caps offer one)
  (hback : FoundBack offer pair.2) (hback' : FoundBack offer pair'.2)
include hdistinct h h' hback hback'

/-- When one pair is matched with the entry that another was offered as, their codecs are one. -/
theorem codec_of_matched_number {m : PayloadType}
    (hm : bestMatch lib offer (readAnswer lib back pair') = some m)
    (hnumber : m.number = pair.1.number) : pair.2.codec = pair'.2.codec := by
  obtain ⟨o, ho, honumber, hocodec, hoopus⟩ := answered_origin h
  obtain ⟨o', ho', hm'⟩ := bestMatch_mem hm
  have hoo' : o' = o := eq_of_number hdistinct ho' ho
    ((number_of_eq_or_toMono hm').symm.trans (hnumber.trans honumber.symm))
  by_cases hopus' : pair'.2.isOpus = true
  · have hopus : pair.2.isOpus = true := by
      have hmo : m.isOpus = true := by
        rw [bestMatch_isOpus lib hm, isOpus_of_codec (readAnswer_codec ..)]
        exact hopus'
      rw [← hoopus, ← hoo', ← hmo]
      rcases hm' with rfl | rfl
      · rfl
      · exact (toMono_isOpus o').symm
    by_cases hchannels : pair.2.channels = pair'.2.channels
    · exact codec_of_foundBack hback hback' hopus hopus' hchannels
    · -- one of them is stereo and the other mono: their places in the offer forbid it
      exfalso
      have hopus1 : pair.1.isOpus = true := (isOpus_of_mem_matchedPairs lib h).symm.trans hopus
      have hopus1' : pair'.1.isOpus = true :=
        (isOpus_of_mem_matchedPairs lib h').symm.trans hopus'
      obtain ⟨x, hx⟩ := firstOpus_exists ho (hoopus.trans hopus)
      obtain ⟨y, hy⟩ := lastOpus_exists ho (hoopus.trans hopus)
      have hplaces := rel_or_rel_of_pairwise (answered_places hdistinct hx hy) h h'
        (fun e => hchannels (e ▸ rfl))
      rcases matched_opus hopus' hm with ⟨h1', y', hy', hny⟩ | ⟨h2', hx'⟩
      · rw [hy, Option.some.injEq] at hy'
        subst hy'
        have h2 : pair.2.channels = 2 := by
          rcases foundBack_opus hback hopus with ⟨h1, -⟩ | ⟨h2, -⟩
          · omega
          · exact h2
        rcases hplaces with hp | hp
        · exact hp.1.1 hopus1' (hnumber.symm.trans hny)
        · exact hp.2 hopus' hopus h1' h2
      · rw [hx, Option.some.injEq] at hx'
        subst hx'
        have h1 : pair.2.channels = 1 := by
          rcases foundBack_opus hback hopus with ⟨h1, -⟩ | ⟨h2, -⟩
          · exact h1
          · omega
        rcases hplaces with hp | hp
        · exact hp.2 hopus hopus' h1 h2'
        · exact hp.1.2 hopus1' hnumber.symm
  · obtain ⟨hmo, hmc⟩ := matched_other h' hopus' hm
    have hmo' : m = o := eq_of_number hdistinct hmo ho (hnumber.trans honumber.symm)
    have hcodec1 : pair.1.codec = pair'.2.codec := by rw [← hocodec, ← hmo', hmc]
    have hopus1 : ¬pair.1.isOpus = true := by
      rw [isOpus_of_codec hcodec1]
      exact hopus'
    have hg729A : ¬pair.1.isG729A = true := by
      rw [isG729A_of_codec hcodec1]
      refine answered_not_g729A h' ?_
      rw [← isOpus_of_mem_matchedPairs lib h']
      exact hopus'
    have hspec := (answered_spec h hopus1).1
    rw [if_neg hg729A] at hspec
    exact hspec.trans hcodec1

/-- Pairs that are matched with one entry have one codec. -/
theorem codec_of_matched_same {m m' : PayloadType}
    (hm : bestMatch lib offer (readAnswer lib back pair) = some m)
    (hm' : bestMatch lib offer (readAnswer lib back pair') = some m')
    (hnumber : m.number = m'.number) : pair.2.codec = pair'.2.codec := by
  obtain ⟨o, ho, hmo⟩ := bestMatch_mem hm
  obtain ⟨o', ho', hmo'⟩ := bestMatch_mem hm'
  have hoo' : o = o' := eq_of_number hdistinct ho ho'
    ((number_of_eq_or_toMono hmo).symm.trans (hnumber.trans (number_of_eq_or_toMono hmo')))
  subst hoo'
  have hkind : ∀ {m : PayloadType}, m = o ∨ m = o.toMono → m.isOpus = o.isOpus := by
    rintro m (rfl | rfl)
    · rfl
    · exact toMono_isOpus o
  have hread : ∀ {pair : PayloadType × PayloadType} {m : PayloadType},
      bestMatch lib offer (readAnswer lib back pair) = some m → m.isOpus = pair.2.isOpus :=
    fun hm => (bestMatch_isOpus lib hm).trans (isOpus_of_codec (readAnswer_codec ..))
  have hopusEq : pair.2.isOpus = pair'.2.isOpus := by
    rw [← hread hm, ← hread hm', hkind hmo, hkind hmo']
  by_cases hopus : pair.2.isOpus = true
  · have hopus' : pair'.2.isOpus = true := hopusEq ▸ hopus
    by_cases hchannels : pair.2.channels = pair'.2.channels
    · exact codec_of_foundBack hback hback' hopus hopus' hchannels
    · -- the first `opus` entry is the last, so both pairs were offered as it
      exfalso
      obtain ⟨x, hx⟩ := firstOpus_exists ho ((hkind hmo).symm.trans ((hread hm).trans hopus))
      obtain ⟨y, hy⟩ := lastOpus_exists ho ((hkind hmo).symm.trans ((hread hm).trans hopus))
      have hxy : x.number = y.number := by
        rcases matched_opus hopus hm with ⟨h1, y', hy', hny⟩ | ⟨h2, hx'⟩ <;>
          rcases matched_opus hopus' hm' with ⟨h1', y'', hy'', hny'⟩ | ⟨h2', hx''⟩
        · omega
        · rw [hy, Option.some.injEq] at hy'
          rw [hx, Option.some.injEq] at hx''
          rw [hx'', hy', ← hny, hnumber]
        · rw [hy, Option.some.injEq] at hy''
          rw [hx, Option.some.injEq] at hx'
          rw [hx', hy'', ← hny', hnumber]
        · omega
      obtain ⟨p, hp, hpnumber, -, hpopus⟩ := answered_origin h
      obtain ⟨p', hp', hpnumber', -, hpopus'⟩ := answered_origin h'
      have hsame := eq_of_first_eq_last hdistinct hx hy hxy hp (hpopus.trans hopus)
      have hsame' := eq_of_first_eq_last hdistinct hx hy hxy hp' (hpopus'.trans hopus')
      exact hchannels (answered_inj hdistinct h h'
        (hpnumber.symm.trans (hsame.trans (hsame'.symm.trans hpnumber'))) ▸ rfl)
  · obtain ⟨hmem, hcodec⟩ := matched_other h hopus hm
    obtain ⟨hmem', hcodec'⟩ := matched_other h' (hopusEq ▸ hopus) hm'
    rw [← hcodec, ← hcodec', eq_of_number hdistinct hmem hmem' hnumber]

end

end

/-! ## The offerer's list -/

section

variable {lib there back caps offer one}

variable (lib there back caps offer one) in
/-- The entries for the pairs of the offerer. -/
def pairEntries : List PayloadType :=
  (((answeredPairs lib there caps offer one).map (readAnswer lib back)).filterMap fun a =>
    (bestMatch lib offer a).map (a, ·)).flatMap (entries lib true)

theorem mem_pairEntries {r : PayloadType} :
    r ∈ pairEntries lib there back caps offer one ↔
      ∃ pair ∈ answeredPairs lib there caps offer one, ∃ m,
        bestMatch lib offer (readAnswer lib back pair) = some m ∧
          r ∈ entries lib true (readAnswer lib back pair, m) := by
  simp only [pairEntries, List.mem_flatMap, List.mem_filterMap, List.mem_map,
    Option.map_eq_some_iff]
  constructor
  · rintro ⟨-, ⟨-, ⟨pair, hpair, rfl⟩, m, hm, rfl⟩, hr⟩
    exact ⟨pair, hpair, m, hm, hr⟩
  · rintro ⟨pair, hpair, m, hm, hr⟩
    exact ⟨_, ⟨_, ⟨pair, hpair, rfl⟩, m, hm, rfl⟩, hr⟩

variable (lib there back caps offer one) in
theorem offererPayloads_eq :
    ∃ l, (l = offer ∨ l = offer.map PayloadType.toMono) ∧
      offererPayloads lib there back caps offer one =
        addRemaining l (pairEntries lib there back caps offer one) := by
  obtain ⟨l, hl, h⟩ := matchPayloads_reading lib offer
    ((answerPayloads lib there caps offer one).map back.carry) false
  rw [offererPairs_eq] at h
  exact ⟨l, hl, h⟩

theorem entries_numbers (lib : MediaLib) (pair : PayloadType × PayloadType) :
    (∃ r ∈ entries lib true pair, r.number = pair.1.number) ∧
      ∃ r ∈ entries lib true pair, r.number = pair.2.number := by
  have hown : negotiatedPayload lib pair.2 pair.1 ∈ entries lib true pair := .head _
  refine ⟨⟨_, hown, rfl⟩, ?_⟩
  by_cases hnumber : pair.1.number = pair.2.number
  · exact ⟨_, hown, hnumber⟩
  · refine ⟨{ negotiatedPayload lib pair.2 pair.1 with number := pair.2.number }, ?_, rfl⟩
    simp only [entries, Bool.true_and, bne_iff_ne, ne_eq, hnumber, not_false_eq_true, if_true]
    exact .tail _ (.head _)

/-- What an entry of the offerer's list is: from a pair that is matched, or left of the offer. -/
theorem mem_offererPayloads {r : PayloadType}
    (hr : r ∈ offererPayloads lib there back caps offer one) :
    (∃ pair ∈ answeredPairs lib there caps offer one, ∃ m,
        bestMatch lib offer (readAnswer lib back pair) = some m ∧ r.codec = m.codec ∧
          (r.number = pair.1.number ∨ r.number = m.number)) ∨
      ∃ o ∈ offer, r.number = o.number ∧ (r.codec = o.codec ∨ r.codec = o.toMono.codec) ∧
        ∀ q ∈ pairEntries lib there back caps offer one, r.number ≠ q.number := by
  obtain ⟨l, hl, heq⟩ := offererPayloads_eq lib there back caps offer one
  rw [heq] at hr
  rcases mem_addRemaining hr with hr | ⟨p, hp, hnumber, hcodec, hnew⟩
  · obtain ⟨pair, hpair, m, hm, hr⟩ := mem_pairEntries.mp hr
    obtain ⟨hcodec, -, hnumber⟩ := mem_entries lib hr
    rw [readAnswer_number] at hnumber
    exact .inl ⟨pair, hpair, m, hm, hcodec, hnumber⟩
  · have hnew' : ∀ q ∈ pairEntries lib there back caps offer one, r.number ≠ q.number :=
      fun q hq h => hnew q hq (h.symm.trans hnumber)
    rcases hl with rfl | rfl
    · exact .inr ⟨p, hp, hnumber, .inl hcodec, hnew'⟩
    · obtain ⟨o, ho, rfl⟩ := List.mem_map.mp hp
      exact .inr ⟨o, ho, hnumber.trans (toMono_number o), .inr hcodec, hnew'⟩

theorem mem_offererPayloads_of_entries {pair : PayloadType × PayloadType} {m r : PayloadType}
    (hpair : pair ∈ answeredPairs lib there caps offer one)
    (hm : bestMatch lib offer (readAnswer lib back pair) = some m)
    (hr : r ∈ entries lib true (readAnswer lib back pair, m)) :
    r ∈ offererPayloads lib there back caps offer one := by
  obtain ⟨l, -, heq⟩ := offererPayloads_eq lib there back caps offer one
  rw [heq]
  exact (subset_addRemaining l _).subset (mem_pairEntries.mpr ⟨pair, hpair, m, hm, hr⟩)

/-- What is left of the offer keeps its codec, or all of it is mono. -/
theorem rest_codec {r r' : PayloadType}
    (hdistinct : (offer.map (·.number)).Nodup)
    (hr : r ∈ offererPayloads lib there back caps offer one)
    (hr' : r' ∈ offererPayloads lib there back caps offer one)
    (hnew : ∀ q ∈ pairEntries lib there back caps offer one, r.number ≠ q.number)
    (hnumber : r.number = r'.number) : r.codec = r'.codec := by
  obtain ⟨l, hl, heq⟩ := offererPayloads_eq lib there back caps offer one
  have hnodup : (l.map (·.number)).Nodup := by
    rcases hl with rfl | rfl
    · exact hdistinct
    · simpa [Function.comp_def] using hdistinct
  have hfrom : ∀ r ∈ offererPayloads lib there back caps offer one,
      (∀ q ∈ pairEntries lib there back caps offer one, r.number ≠ q.number) →
        ∃ p ∈ l, r.number = p.number ∧ r.codec = p.codec := by
    intro r hr hnew
    rw [heq] at hr
    rcases mem_addRemaining hr with hr | ⟨p, hp, hnumber, hcodec, -⟩
    · exact absurd rfl (hnew r hr)
    · exact ⟨p, hp, hnumber, hcodec⟩
  obtain ⟨p, hp, hpn, hpc⟩ := hfrom r hr hnew
  obtain ⟨p', hp', hpn', hpc'⟩ := hfrom r' hr' fun q hq => hnumber ▸ hnew q hq
  rw [hpc, hpc', List.inj_on_of_nodup_map hnodup hp hp' (hpn.symm.trans (hnumber.trans hpn'))]

end

/-! ## Agreement -/

/-- Only mono and stereo `opus` is answered. -/
theorem channels_of_answered {lib : MediaLib} {there : Wire} {caps offer : List PayloadType}
    {one : Bool} {pair : PayloadType × PayloadType}
    (h : pair ∈ answeredPairs lib there caps offer one) (hopus : pair.1.isOpus) :
    pair.1.channels = 1 ∨ pair.1.channels = 2 := by
  by_contra hnot
  rw [not_or] at hnot
  rcases bestMatch_of_mem_matchedPairs lib h with h | h
  · rw [bestMatch_other lib _ hopus hnot.1 hnot.2] at h
    exact absurd h (by simp)
  · rw [bestMatch_other lib _ hopus hnot.1 hnot.2] at h
    exact absurd h (by simp)

variable {lib there back caps offer one} in
/-- What is found back is agreed on. -/
theorem agree_of_foundBack (hdistinct : (offer.map (·.number)).Nodup)
    (hback : ∀ pair ∈ answeredPairs lib there caps offer one, FoundBack offer pair.2) :
    PayloadsAgree (answerPayloads lib there caps offer one)
      (offererPayloads lib there back caps offer one) := by
  have hmatch : ∀ pair ∈ answeredPairs lib there caps offer one, ∃ m,
      bestMatch lib offer (readAnswer lib back pair) = some m ∧ m.codec = pair.2.codec :=
    fun pair hpair => (foundBack_iff back hpair).mp (hback pair hpair)
  have hunambiguous : ∀ r ∈ offererPayloads lib there back caps offer one,
      ∀ r' ∈ offererPayloads lib there back caps offer one, r.number = r'.number →
        r.codec = r'.codec := by
    intro r hr r' hr' hnumber
    rcases mem_offererPayloads hr with ⟨pair, hp, m, hm, hcodec, hn⟩ | ⟨o, ho, -, -, hnew⟩
    · rcases mem_offererPayloads hr' with
        ⟨pair', hp', m', hm', hcodec', hn'⟩ | ⟨o', ho', -, -, hnew'⟩
      · have hpc : m.codec = pair.2.codec := by
          obtain ⟨m₀, hm₀, hc⟩ := hmatch pair hp
          rwa [Option.some.inj (hm.symm.trans hm₀)]
        have hpc' : m'.codec = pair'.2.codec := by
          obtain ⟨m₀, hm₀, hc⟩ := hmatch pair' hp'
          rwa [Option.some.inj (hm'.symm.trans hm₀)]
        rw [hcodec, hcodec', hpc, hpc']
        rcases hn with hn | hn <;> rcases hn' with hn' | hn'
        · rw [answered_inj hdistinct hp hp' (hn.symm.trans (hnumber.trans hn'))]
        · exact codec_of_matched_number hdistinct hp hp' (hback _ hp) (hback _ hp') hm'
            (hn'.symm.trans (hnumber.symm.trans hn))
        · exact (codec_of_matched_number hdistinct hp' hp (hback _ hp') (hback _ hp) hm
            (hn.symm.trans (hnumber.trans hn'))).symm
        · exact codec_of_matched_same hdistinct hp hp' (hback _ hp) (hback _ hp') hm hm'
            (hn.symm.trans (hnumber.trans hn'))
      · exact (rest_codec hdistinct hr' hr hnew' hnumber.symm).symm
    · exact rest_codec hdistinct hr hr' hnew hnumber
  constructor
  · intro a ha
    rw [answerPayloads_eq] at ha
    obtain ⟨pair, hpair, rfl⟩ := List.mem_map.mp ha
    obtain ⟨m, hm, hmc⟩ := hmatch pair hpair
    obtain ⟨r₀, hr₀, hn₀⟩ := (entries_numbers lib (readAnswer lib back pair, m)).1
    obtain ⟨hc₀, hs₀, -⟩ := mem_entries lib hr₀
    rw [readAnswer_number] at hn₀
    have hmem₀ := mem_offererPayloads_of_entries hpair hm hr₀
    have hfound : ∃ r, sendEntry (offererPayloads lib there back caps offer one)
        pair.1.number = some r := by
      rw [← Option.isSome_iff_exists, sendEntry, List.find?_isSome]
      exact ⟨r₀, hmem₀, by simp [hn₀, hs₀]⟩
    obtain ⟨r, hr⟩ := hfound
    refine ⟨r, hr, sameCodec_iff.mpr ?_⟩
    have hrn := List.find?_some hr
    simp only [Bool.and_eq_true, beq_iff_eq] at hrn
    rw [hunambiguous r (List.mem_of_find?_eq_some hr) r₀ hmem₀ (hrn.1.trans hn₀.symm), hc₀, hmc,
      negotiatedPayload_codec]
  · intro a ha
    rw [answerPayloads_eq, List.head?_map, Option.map_eq_some_iff] at ha
    obtain ⟨pair, hpair, rfl⟩ := ha
    obtain ⟨rest, hrest⟩ := List.head?_eq_some_iff.mp hpair
    have hmem : pair ∈ answeredPairs lib there caps offer one := hrest ▸ List.mem_cons_self
    obtain ⟨m, hm, hmc⟩ := hmatch pair hmem
    obtain ⟨l, -, heq⟩ := offererPayloads_eq lib there back caps offer one
    have hhead : ∃ more, pairEntries lib there back caps offer one =
        negotiatedPayload lib m (readAnswer lib back pair) :: more := by
      simp only [pairEntries, hrest, List.map_cons, List.filterMap_cons, hm, Option.map_some,
        List.flatMap_cons, entries, List.cons_append]
      exact ⟨_, rfl⟩
    obtain ⟨more, hmore⟩ := hhead
    obtain ⟨tail, htail⟩ := subset_addRemaining l (pairEntries lib there back caps offer one)
    refine ⟨negotiatedPayload lib m (readAnswer lib back pair), ?_, ?_, ?_⟩
    · rw [usedPt, heq, ← htail, hmore, List.cons_append]
      simp only [List.find?_cons, negotiatedPayload_canSend]
    · rw [negotiatedPayload_number, readAnswer_number, negotiatedPayload_number]
    · rw [sameCodec_iff, negotiatedPayload_codec, hmc, negotiatedPayload_codec]
  · intro r hr r' hr' hnumber
    exact sameCodec_iff.mpr (hunambiguous r hr r' hr' hnumber)

variable {lib there back caps offer one} in
/-- What is agreed on is found back. -/
theorem foundBack_of_agree (hdistinct : (offer.map (·.number)).Nodup)
    (hagree : PayloadsAgree (answerPayloads lib there caps offer one)
      (offererPayloads lib there back caps offer one))
    {pair : PayloadType × PayloadType}
    (hpair : pair ∈ answeredPairs lib there caps offer one) : FoundBack offer pair.2 := by
  have ha : negotiatedPayload lib pair.2 pair.1 ∈ answerPayloads lib there caps offer one := by
    rw [answerPayloads_eq]
    exact List.mem_map_of_mem (f := fun pair => negotiatedPayload lib pair.2 pair.1) hpair
  obtain ⟨r, hr, hsame⟩ := hagree.used _ ha
  have hrn := List.find?_some hr
  simp only [Bool.and_eq_true, beq_iff_eq, negotiatedPayload_number] at hrn
  have hrc : r.codec = pair.2.codec :=
    (sameCodec_iff.mp hsame).trans (negotiatedPayload_codec ..)
  have hrmem := List.mem_of_find?_eq_some hr
  rw [foundBack_iff back hpair]
  cases hm : bestMatch lib offer (readAnswer lib back pair) with
  | some m =>
      -- the entry for the pair has its number, and no number stands for two codecs
      obtain ⟨r₀, hr₀, hn₀⟩ := (entries_numbers lib (readAnswer lib back pair, m)).1
      rw [readAnswer_number] at hn₀
      have hmem₀ := mem_offererPayloads_of_entries hpair hm hr₀
      have hsame₀ := sameCodec_iff.mp (hagree.unambiguous r₀ hmem₀ r hrmem
        (hn₀.trans hrn.1.symm))
      exact ⟨m, rfl, ((mem_entries lib hr₀).1.symm.trans hsame₀).trans hrc⟩
  | none =>
      exfalso
      obtain ⟨o, ho, honumber, hocodec, hoopus⟩ := answered_origin hpair
      have hfrom : r.codec = o.codec ∨ r.codec = o.toMono.codec := by
        rcases mem_offererPayloads hrmem with ⟨pair', hp', m', hm', hcodec, hn | hn⟩ | h
        · rw [answered_inj hdistinct hp' hpair (hn.symm.trans hrn.1), hm] at hm'
          exact absurd hm' (by simp)
        · obtain ⟨o', ho', hmo⟩ := bestMatch_mem hm'
          have hoo' : o' = o := eq_of_number hdistinct ho' ho
            ((number_of_eq_or_toMono hmo).symm.trans (hn.symm.trans (hrn.1.trans honumber.symm)))
          subst hoo'
          rcases hmo with rfl | rfl
          · exact .inl hcodec
          · exact .inr hcodec
        · obtain ⟨o', ho', hn, hcodec, -⟩ := h
          rwa [eq_of_number hdistinct ho' ho (hn.symm.trans (hrn.1.trans honumber.symm))]
            at hcodec
      by_cases hopus : pair.2.isOpus = true
      · -- only mono and stereo entries are ever answered, and those are found
        have hread : (readAnswer lib back pair).isOpus = true :=
          (isOpus_of_codec (readAnswer_codec ..)).trans hopus
        have hochannels : o.channels = 1 ∨ o.channels = 2 := by
          rw [channels_of_codec hocodec]
          exact channels_of_answered hpair ((isOpus_of_mem_matchedPairs lib hpair).symm.trans hopus)
        have hchannels : (readAnswer lib back pair).channels = 1 ∨
            (readAnswer lib back pair).channels = 2 := by
          rw [channels_of_codec (readAnswer_codec ..), ← channels_of_codec hrc]
          rcases hfrom with h | h
          · rw [channels_of_codec h]
            exact hochannels
          · rw [channels_of_codec h, toMono_of_opus (hoopus.trans hopus)]
            exact .inl rfl
        rcases hchannels with h | h
        · obtain ⟨y, hy⟩ := lastOpus_exists ho (hoopus.trans hopus)
          rw [bestMatch_mono lib offer hread h, hy] at hm
          exact absurd hm (by simp)
        · obtain ⟨x, hx⟩ := firstOpus_exists ho (hoopus.trans hopus)
          rw [bestMatch_stereo lib offer hread h, hx] at hm
          exact absurd hm (by simp)
      · have hrc' : r.codec = o.codec := by
          rcases hfrom with h | h
          · exact h
          · rwa [toMono_of_not_opus (by rw [hoopus]; exact hopus)] at h
        have hfound : FoundBack offer pair.2 := by
          unfold FoundBack
          rw [if_neg hopus]
          exact ⟨o, ho, sameCodec_iff.mpr (hrc'.symm.trans hrc)⟩
        obtain ⟨m, hm', -⟩ := (foundBack_iff back hpair).mp hfound
        rw [hm] at hm'
        exact absurd hm' (by simp)

/-- **The two ends agree exactly when the offerer can find again whatever was answered.** -/
theorem payloads_agree_iff (hdistinct : (offer.map (·.number)).Nodup) :
    PayloadsAgree (answerPayloads lib there caps offer one)
        (offererPayloads lib there back caps offer one) ↔
      ∀ pair ∈ answeredPairs lib there caps offer one, FoundBack offer pair.2 :=
  ⟨fun h _ hpair => foundBack_of_agree hdistinct h hpair, agree_of_foundBack hdistinct⟩

/-- What a payload type keeps on the way. -/
def plainWire : Wire where
  carry pt :=
    { number := pt.number, mimeType := pt.mimeType, clockRate := pt.clockRate
      channels := pt.channels, sendFmtp := pt.recvFmtp }
  carried _ := ⟨rfl, rfl, rfl⟩

/-- A payload type of 8000 Hz, under a number. -/
def narrowband (name : String) (number : Int) : PayloadType :=
  { mimeType := name, clockRate := 8000, channels := 1, number := number }

theorem payloads_agree_pcmu :
    PayloadsAgree
      (answerPayloads plainLib plainWire [narrowband "PCMU" 0] [narrowband "PCMU" 0] false)
      (offererPayloads plainLib plainWire plainWire [narrowband "PCMU" 0] [narrowband "PCMU" 0]
        false) := by
  refine (payloads_agree_iff plainLib plainWire plainWire _ _ false (by decide)).mpr ?_
  intro pair hpair
  have hpairs : answeredPairs plainLib plainWire [narrowband "PCMU" 0] [narrowband "PCMU" 0]
      false = [(narrowband "PCMU" 0, narrowband "PCMU" 0)] := by decide
  rw [hpairs, List.mem_singleton] at hpair
  rw [hpair, FoundBack, if_neg (by decide)]
  exact ⟨_, List.mem_singleton_self _, by decide⟩

/-- `G729A` is answered as `G729`, which an offerer that calls it `G729A` only does not know. -/
theorem g729A_not_found_back :
    ¬PayloadsAgree (matchPayloads plainLib [narrowband "G729" 18] [narrowband "G729A" 18]
      false false).2
      (matchPayloads plainLib [narrowband "G729A" 18]
        (matchPayloads plainLib [narrowband "G729" 18] [narrowband "G729A" 18] false false).2
        true false).2 := by
  intro h
  obtain ⟨a, ha⟩ : ∃ a, (matchPayloads plainLib [narrowband "G729" 18] [narrowband "G729A" 18]
      false false).2.head? = some a := ⟨_, rfl⟩
  obtain ⟨r, hr, -⟩ := h.selected a ha
  have hnone : usedPt (matchPayloads plainLib [narrowband "G729A" 18]
      (matchPayloads plainLib [narrowband "G729" 18] [narrowband "G729A" 18] false false).2
      true false).2 = none := by decide
  rw [hnone] at hr
  exact absurd hr (by simp)

/-! ## Ordinary lists -/

/-- A mono `opus` at the head of the offered ones makes all answers mono. -/
theorem mono_of_firstOpus {lib : MediaLib} {one found : Bool} {l remote : List PayloadType}
    {x : PayloadType} (hfirst : firstOpus remote = some x) (hmono : x.channels = 1)
    {pair : PayloadType × PayloadType} (h : pair ∈ matchedPairs lib one l found remote)
    (hopus : pair.1.isOpus) : pair.2.channels = 1 := by
  induction remote generalizing l found with
  | nil => exact absurd h List.not_mem_nil
  | cons p2 remote ih =>
      obtain ⟨found', hr⟩ := matchedPairs_cons_cases lib one found l remote p2
      by_cases hp2 : p2.isOpus = true
      · have hx : p2 = x := by
          rw [firstOpus, List.find?_cons_of_pos hp2] at hfirst
          exact Option.some.inj hfirst
        subst hx
        have hrest : pair ∈ matchedPairs lib one (findPayloadTypeBestMatch lib l p2).1 found'
            remote → pair.2.channels = 1 := by
          intro h
          have hall := allMono_toMono l
          rw [findPayloadTypeBestMatch_locals, if_pos ⟨hp2, hmono⟩] at h
          rcases bestMatch_of_mem_matchedPairs lib h with h | h
          · exact bestMatch_allMono lib hall h hopus
          · rw [hall.map_toMono] at h
            exact bestMatch_allMono lib hall h hopus
        rcases hr with hr | ⟨m, hm, hr⟩
        · exact hrest (hr ▸ h)
        · rcases List.mem_cons.mp (hr ▸ h) with rfl | h
          · rw [bestMatch_mono lib l hp2 hmono] at hm
            obtain ⟨o, ho, rfl⟩ := Option.map_eq_some_iff.mp hm
            show o.toMono.channels = 1
            rw [toMono_of_opus (mem_of_lastOpus ho).2]
          · exact hrest h
      · rw [firstOpus, List.find?_cons_of_neg hp2] at hfirst
        rcases hr with hr | ⟨m, hm, hr⟩
        · exact ih hfirst (hr ▸ h)
        · rcases List.mem_cons.mp (hr ▸ h) with rfl | h
          · exact absurd hopus hp2
          · exact ih hfirst h

/-- The `opus` entries have one clock rate and are mono or stereo. -/
def OrdinaryOpus (rate : Int) (l : List PayloadType) : Prop :=
  ∀ pt ∈ l, pt.isOpus → pt.clockRate = rate ∧ (pt.channels = 1 ∨ pt.channels = 2)

theorem OrdinaryOpus.toMono {rate : Int} {l : List PayloadType} (h : OrdinaryOpus rate l) :
    OrdinaryOpus rate (l.map PayloadType.toMono) := by
  intro pt hpt hopus
  obtain ⟨o, ho, rfl⟩ := List.mem_map.mp hpt
  have hoopus : o.isOpus = true := by simpa using hopus
  exact ⟨by simpa using (h o ho hoopus).1, .inl (allMono_toMono l _ hpt hopus)⟩

/-- **Ordinary lists are always agreed on**, also when codecs are offered twice or the numbers
are swapped: `opus` is what it should be, and `G729` is not called `G729A`. -/
theorem payloads_agree_of_ordinary {rate : Int} (hdistinct : (offer.map (·.number)).Nodup)
    (hname : ∀ pt ∈ offer, ¬pt.isG729A) (hoffer : OrdinaryOpus rate offer)
    (hcaps : OrdinaryOpus rate caps) :
    PayloadsAgree (answerPayloads lib there caps offer one)
      (offererPayloads lib there back caps offer one) := by
  refine agree_of_foundBack hdistinct fun pair hpair => ?_
  obtain ⟨o, ho, -, hocodec, hoopus⟩ := answered_origin hpair
  unfold FoundBack
  split
  · rename_i hopus
    have hopus1 := (isOpus_of_mem_matchedPairs lib hpair).symm.trans hopus
    obtain ⟨x, hx⟩ := firstOpus_exists ho (hoopus.trans hopus)
    obtain ⟨y, hy⟩ := lastOpus_exists ho (hoopus.trans hopus)
    have hfirst := hoffer x (mem_of_firstOpus hx).1 (mem_of_firstOpus hx).2
    have hlast := hoffer y (mem_of_lastOpus hy).1 (mem_of_lastOpus hy).2
    have hanswered : pair.2.clockRate = rate ∧ (pair.2.channels = 1 ∨ pair.2.channels = 2) := by
      have hmatched : pair.2 ∈ caps ∨ pair.2 ∈ caps.map PayloadType.toMono := by
        rcases bestMatch_of_mem_matchedPairs lib hpair with h | h
        · obtain ⟨c, hc, h | h⟩ := bestMatch_mem h
          · exact .inl (h ▸ hc)
          · exact .inr (h ▸ List.mem_map_of_mem hc)
        · obtain ⟨c, hc, h | h⟩ := bestMatch_mem h
          · exact .inr (h ▸ hc)
          · obtain ⟨c', hc', rfl⟩ := List.mem_map.mp hc
            rw [toMono_toMono] at h
            exact .inr (h ▸ List.mem_map_of_mem hc')
      rcases hmatched with hmem | hmem
      · exact hcaps _ hmem hopus
      · exact hcaps.toMono _ hmem hopus
    rcases hanswered with ⟨hclock, hchannels | hchannels⟩
    · exact .inl ⟨hchannels, y, hy, hlast.1.trans hclock.symm⟩
    · refine .inr ⟨hchannels, x, hx, sameCodec_iff.mpr ?_⟩
      refine codec_of_opus (mem_of_firstOpus hx).2 hopus (hfirst.1.trans hclock.symm) ?_
      rcases hfirst.2 with hmono | hstereo
      · -- had the first one been offered as mono, so would the answers be
        have hcarried : firstOpus (offer.map there.carry) = some (there.carry x) := by
          have hsame : (fun pt : PayloadType => pt.isOpus) ∘ there.carry = (·.isOpus) :=
            funext fun pt => isOpus_of_codec (there.carried pt).codec
          rw [firstOpus, List.find?_map, hsame]
          exact congrArg (Option.map there.carry) hx
        have := mono_of_firstOpus hcarried
          ((channels_of_codec (there.carried x).codec).trans hmono) hpair hopus1
        omega
      · rw [hstereo, hchannels]
  · rename_i hopus
    have hopus1 : ¬pair.1.isOpus = true := by
      rw [← isOpus_of_mem_matchedPairs lib hpair]
      exact hopus
    have hspec := (answered_spec hpair hopus1).1
    rw [if_neg (by rw [← isG729A_of_codec hocodec]; exact hname o ho)] at hspec
    exact ⟨o, ho, sameCodec_iff.mpr (hocodec.trans hspec.symm)⟩

/-- A codec that is offered twice, the second time under the number of another capability. -/
theorem payloads_agree_offered_twice :
    let caps := [narrowband "PCMA" 8, narrowband "PCMU" 0]
    let offer := [narrowband "PCMU" 0, narrowband "PCMU" 8]
    PayloadsAgree (answerPayloads plainLib plainWire caps offer false)
      (offererPayloads plainLib plainWire plainWire caps offer false) := by
  intro caps offer
  have hcaps : OrdinaryOpus 48000 caps := by unfold OrdinaryOpus; decide
  have hoffer : OrdinaryOpus 48000 offer := by unfold OrdinaryOpus; decide
  exact payloads_agree_of_ordinary plainLib plainWire plainWire caps offer false (by decide)
    (by decide) hoffer hcaps

end Linphone
