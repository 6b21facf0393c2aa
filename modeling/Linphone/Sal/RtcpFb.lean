import Linphone.Sal.Dtls
import Mathlib.Data.List.Nodup

/-!
# RTCP feedback attributes

The `rtcp-fb` half of `bellesip_sal/sal_sdp.c`. `stream_description_to_sdp` announces the AVPF
parameters of the payload types of a stream, and `sdp_to_stream_description` reads them: first
the attributes for all payload types, those with the number -1, then the ones for each number.

An attribute holds its number in eight bits, so it reaches the payload types of its number after
that conversion. `rtcp_fb_round_trip_iff` says what is read back, for all numbers, and
`keptParams_iff` what that comes to for the numbers RTP has.
-/

namespace Linphone

/-! ## Attributes -/

inductive RtcpFbType
  | ack | nack | trrInt | ccm
deriving DecidableEq

inductive RtcpFbParam
  | none | pli | sli | rpsi | fir
deriving DecidableEq

/-- A `belle_sdp_rtcp_fb_attribute_t`. -/
structure RtcpFbAttribute where
  id : Int8
  type : RtcpFbType
  param : RtcpFbParam := .none
  trrInt : UInt16 := 0
deriving DecidableEq

/-- `PAYLOAD_TYPE_AVPF_FIR` -/
abbrev avpfFir : UInt8 := 1

/-- `PAYLOAD_TYPE_AVPF_PLI` -/
abbrev avpfPli : UInt8 := 2

/-- `PAYLOAD_TYPE_AVPF_SLI` -/
abbrev avpfSli : UInt8 := 4

/-- `PAYLOAD_TYPE_AVPF_RPSI` -/
abbrev avpfRpsi : UInt8 := 8

/-! ## Writing -/

/-- `is_rtcp_fb_trr_int_the_same_for_all_payloads`: whether it is, and `trr_int`. Only the payload
types with the feedback flag count. -/
def sameTrrInt : List PayloadType → Bool → UInt16 → Bool × UInt16
  | [], _, trrInt => (true, trrInt)
  | pt :: l, first, trrInt =>
      if pt.flags.rtcpFeedbackEnabled then
        if first then sameTrrInt l false pt.avpf.trrInterval
        else if pt.avpf.trrInterval ≠ trrInt then (false, trrInt)
        else sameTrrInt l first trrInt
      else sameTrrInt l first trrInt

/-- The number of a payload type as an attribute holds it. -/
def PayloadType.fbId (pt : PayloadType) : Int8 := Int8.ofInt pt.number

/-- The body of the loop of `add_rtcp_fb_attributes`. -/
def payloadAttributes (general : Bool) (pt : PayloadType) : List RtcpFbAttribute :=
  (if general then [] else
    [{ id := pt.fbId, type := .trrInt, trrInt := pt.avpf.trrInterval }]) ++
  (if pt.avpf.features &&& avpfPli ≠ 0 then [{ id := pt.fbId, type := .nack, param := .pli }]
    else []) ++
  (if pt.avpf.features &&& avpfSli ≠ 0 then [{ id := pt.fbId, type := .nack, param := .sli }]
    else []) ++
  (if pt.avpf.features &&& avpfRpsi ≠ 0 then
    [{ id := pt.fbId, type := if pt.avpf.rpsiCompatibility then .nack else .ack, param := .rpsi }]
    else []) ++
  (if pt.avpf.features &&& avpfFir ≠ 0 then [{ id := pt.fbId, type := .ccm, param := .fir }]
    else [])

/-- The general attribute `add_rtcp_fb_attributes` starts with. -/
def generalAttributes (general : Bool) (trrInt : UInt16) : List RtcpFbAttribute :=
  if general then [{ id := -1, type := .trrInt, trrInt := trrInt }] else []

/-- `payload_type_set_flag(pt, PAYLOAD_TYPE_RTCP_FEEDBACK_ENABLED)` -/
def PayloadType.enableFeedback (pt : PayloadType) : PayloadType :=
  { pt with flags := { pt.flags with rtcpFeedbackEnabled := true } }

/-- `add_rtcp_fb_attributes`: the payload types after it, and what it adds. -/
def addRtcpFbAttributes (payloads : List PayloadType) :
    List PayloadType × List RtcpFbAttribute :=
  let general := sameTrrInt payloads true 0
  (payloads.map PayloadType.enableFeedback,
    generalAttributes general.1 general.2 ++ payloads.flatMap (payloadAttributes general.1))

/-- The transports both ends of the SDP handle. -/
def feedbackProto (proto : SalMediaProto) : Bool := proto == .rtpAvpf || proto == .rtpSavpf

/-- The `rtcp-fb` attributes `stream_description_to_sdp` writes. -/
def rtcpFbAttributes (stream : SalStreamDescription) : List RtcpFbAttribute :=
  if stream.rtpPort ≠ 0 ∧ feedbackProto stream.proto then
    (addRtcpFbAttributes stream.payloads).2
  else []

/-! ## Reading -/

/-- `apply_rtcp_fb_attribute_to_payload`, on the parameters it changes. -/
def applyRtcpFbAttribute (attr : RtcpFbAttribute) (avpf : PayloadTypeAvpfParams) :
    PayloadTypeAvpfParams :=
  match attr.type, attr.param with
  | .ack, .rpsi => { avpf with features := avpf.features ||| avpfRpsi }
  | .nack, .pli => { avpf with features := avpf.features ||| avpfPli }
  | .nack, .sli => { avpf with features := avpf.features ||| avpfSli }
  -- kept for versions that declared RPSI as negative feedback
  | .nack, .rpsi =>
      { avpf with features := avpf.features ||| avpfRpsi, rpsiCompatibility := true }
  | .trrInt, _ => { avpf with trrInterval := attr.trrInt }
  | .ccm, .fir => { avpf with features := avpf.features ||| avpfFir }
  | _, _ => avpf

/-- The same, on the payload type. -/
def PayloadType.applyRtcpFb (attr : RtcpFbAttribute) (pt : PayloadType) : PayloadType :=
  { pt with avpf := applyRtcpFbAttribute attr pt.avpf }

/-- `sdp_parse_rtcp_fb_parameters` -/
def sdpParseRtcpFbParameters (attrs : List RtcpFbAttribute) (payloads : List PayloadType) :
    List PayloadType :=
  let payloads := attrs.foldl (fun payloads attr =>
    if attr.id = -1 then payloads.map (PayloadType.applyRtcpFb attr) else payloads) payloads
  attrs.foldl (fun payloads attr =>
    payloads.map fun pt => if pt.number = attr.id.toInt then pt.applyRtcpFb attr else pt) payloads

/-- One round of `sdp_parse_payload_types`, on the m-line that was written for `pt`. A channel
count that is not positive is not written; `noChannels` is what is read then. -/
def sdpParsePayloadType (noChannels : Int) (pt : PayloadType) : PayloadType where
  number := pt.number
  clockRate := pt.clockRate
  mimeType := pt.mimeType
  channels := if pt.channels > 0 then pt.channels else noChannels
  sendFmtp := pt.recvFmtp

/-- The RTCP-FB block of `sdp_to_stream_description`. -/
def readRtcpFb (proto : SalMediaProto) (attrs : List RtcpFbAttribute)
    (payloads : List PayloadType) : List PayloadType :=
  if feedbackProto proto then
    sdpParseRtcpFbParameters attrs (payloads.map PayloadType.enableFeedback)
  else payloads

/-- The payload types read from the SDP of a stream. -/
def readPayloads (noChannels : Int) (stream : SalStreamDescription) : List PayloadType :=
  readRtcpFb (readProto (streamDescriptionToSdp stream).protocol) (rtcpFbAttributes stream)
    (stream.payloads.map (sdpParsePayloadType noChannels))

/-! ## What an attribute does -/

/-- The feature an attribute grants. -/
def RtcpFbAttribute.feature (attr : RtcpFbAttribute) : UInt8 :=
  match attr.type, attr.param with
  | .ack, .rpsi | .nack, .rpsi => avpfRpsi
  | .nack, .pli => avpfPli
  | .nack, .sli => avpfSli
  | .ccm, .fir => avpfFir
  | _, _ => 0

/-- RPSI declared as negative feedback. -/
def RtcpFbAttribute.negativeRpsi (attr : RtcpFbAttribute) : Bool :=
  match attr.type, attr.param with
  | .nack, .rpsi => true
  | _, _ => false

/-- The interval after an attribute. -/
def RtcpFbAttribute.interval (trrInterval : UInt16) (attr : RtcpFbAttribute) : UInt16 :=
  if attr.type = .trrInt then attr.trrInt else trrInterval

theorem applyRtcpFbAttribute_eq (attr : RtcpFbAttribute) (avpf : PayloadTypeAvpfParams) :
    applyRtcpFbAttribute attr avpf =
      { features := avpf.features ||| attr.feature
        rpsiCompatibility := avpf.rpsiCompatibility || attr.negativeRpsi
        trrInterval := attr.interval avpf.trrInterval } := by
  obtain ⟨id, type, param, trrInt⟩ := attr
  cases type <;> cases param <;>
    simp [applyRtcpFbAttribute, RtcpFbAttribute.feature, RtcpFbAttribute.negativeRpsi,
      RtcpFbAttribute.interval]

/-- The attributes one after the other. -/
def applyAll (attrs : List RtcpFbAttribute) (avpf : PayloadTypeAvpfParams) :
    PayloadTypeAvpfParams :=
  attrs.foldl (fun avpf attr => applyRtcpFbAttribute attr avpf) avpf

@[simp] theorem applyAll_nil (avpf : PayloadTypeAvpfParams) : applyAll [] avpf = avpf := rfl

@[simp] theorem applyAll_cons (attr : RtcpFbAttribute) (attrs : List RtcpFbAttribute)
    (avpf : PayloadTypeAvpfParams) :
    applyAll (attr :: attrs) avpf = applyAll attrs (applyRtcpFbAttribute attr avpf) := rfl

theorem applyAll_append (attrs more : List RtcpFbAttribute) (avpf : PayloadTypeAvpfParams) :
    applyAll (attrs ++ more) avpf = applyAll more (applyAll attrs avpf) :=
  List.foldl_append

theorem applyAll_features (attrs : List RtcpFbAttribute) (avpf : PayloadTypeAvpfParams) (i : Nat) :
    (applyAll attrs avpf).features.toNat.testBit i =
      (avpf.features.toNat.testBit i ||
        attrs.any fun attr => attr.feature.toNat.testBit i) := by
  induction attrs generalizing avpf with
  | nil => simp
  | cons attr attrs ih =>
      rw [applyAll_cons, ih, applyRtcpFbAttribute_eq, List.any_cons, UInt8.toNat_or,
        Nat.testBit_or, Bool.or_assoc]

theorem applyAll_rpsi (attrs : List RtcpFbAttribute) (avpf : PayloadTypeAvpfParams) :
    (applyAll attrs avpf).rpsiCompatibility =
      (avpf.rpsiCompatibility || attrs.any (·.negativeRpsi)) := by
  induction attrs generalizing avpf with
  | nil => simp
  | cons attr attrs ih =>
      rw [applyAll_cons, ih, applyRtcpFbAttribute_eq, List.any_cons, Bool.or_assoc]

theorem applyAll_trrInterval (attrs : List RtcpFbAttribute) (avpf : PayloadTypeAvpfParams) :
    (applyAll attrs avpf).trrInterval =
      attrs.foldl RtcpFbAttribute.interval avpf.trrInterval := by
  induction attrs generalizing avpf with
  | nil => rfl
  | cons attr attrs ih => rw [applyAll_cons, ih, applyRtcpFbAttribute_eq, List.foldl_cons]

/-! ## What a payload type hears -/

/-- The attributes that reach the payload type `number`, in the order they do. -/
def heard (number : Int) (attrs : List RtcpFbAttribute) : List RtcpFbAttribute :=
  attrs.filter (fun attr => attr.id == -1) ++ attrs.filter (fun attr => number == attr.id.toInt)

/-- The pass over the attributes for all payload types. -/
theorem foldl_general (attrs : List RtcpFbAttribute) (payloads : List PayloadType) :
    attrs.foldl (fun payloads attr =>
        if attr.id = -1 then payloads.map (PayloadType.applyRtcpFb attr) else payloads) payloads =
      payloads.map fun pt =>
        { pt with avpf := applyAll (attrs.filter fun attr => attr.id == -1) pt.avpf } := by
  induction attrs generalizing payloads with
  | nil => simp
  | cons attr attrs ih =>
      rw [List.foldl_cons, ih]
      by_cases h : attr.id = -1
      · simp [h, PayloadType.applyRtcpFb, Function.comp_def]
      · simp [h]

/-- The pass over the attributes for one number each. -/
theorem foldl_specific (attrs : List RtcpFbAttribute) (payloads : List PayloadType) :
    attrs.foldl (fun payloads attr => payloads.map fun pt =>
        if pt.number = attr.id.toInt then pt.applyRtcpFb attr else pt) payloads =
      payloads.map fun pt =>
        { pt with
          avpf := applyAll (attrs.filter fun attr => pt.number == attr.id.toInt) pt.avpf } := by
  induction attrs generalizing payloads with
  | nil => simp
  | cons attr attrs ih =>
      rw [List.foldl_cons, ih, List.map_map]
      apply List.map_congr_left
      intro pt _
      by_cases h : pt.number = attr.id.toInt
      · simp [h, PayloadType.applyRtcpFb]
      · simp [h]

/-- **Each payload type is left with what it hears.** -/
theorem sdpParseRtcpFbParameters_eq (attrs : List RtcpFbAttribute)
    (payloads : List PayloadType) :
    sdpParseRtcpFbParameters attrs payloads =
      payloads.map fun pt => { pt with avpf := applyAll (heard pt.number attrs) pt.avpf } := by
  unfold sdpParseRtcpFbParameters
  rw [foldl_general, foldl_specific, List.map_map]
  apply List.map_congr_left
  intro pt _
  simp only [Function.comp_apply, heard, applyAll_append]

/-! ## What a payload type announces -/

theorem avpf_bits (features : UInt8) :
    (features &&& avpfFir ≠ 0 ↔ features.toNat.testBit 0) ∧
      (features &&& avpfPli ≠ 0 ↔ features.toNat.testBit 1) ∧
      (features &&& avpfSli ≠ 0 ↔ features.toNat.testBit 2) ∧
      (features &&& avpfRpsi ≠ 0 ↔ features.toNat.testBit 3) := by
  obtain ⟨bits⟩ := features
  revert bits
  decide

section

variable (general : Bool) (pt : PayloadType)

theorem payloadAttributes_id :
    ∀ attr ∈ payloadAttributes general pt, attr.id = pt.fbId := by
  intro attr hattr
  simp only [payloadAttributes, List.mem_append] at hattr
  rcases hattr with (((h | h) | h) | h) | h <;> split at h <;>
    first | exact absurd h List.not_mem_nil | exact (List.mem_singleton.mp h) ▸ rfl

theorem any_ite_singleton {α : Type} (c : Prop) [Decidable c] (a : α) (f : α → Bool) :
    (if c then [a] else []).any f = (decide c && f a) := by
  split <;> simp [*]

theorem any_ite_nil {α : Type} (c : Prop) [Decidable c] (a : α) (f : α → Bool) :
    (if c then [] else [a]).any f = (!decide c && f a) := by
  split <;> simp [*]

/-- The features of the attributes of a payload type are the ones it has. -/
theorem payloadAttributes_features (i : Nat) :
    ((payloadAttributes general pt).any fun attr => attr.feature.toNat.testBit i) =
      (decide (i < 4) && pt.avpf.features.toNat.testBit i) := by
  obtain ⟨hfir, hpli, hsli, hrpsi⟩ := avpf_bits pt.avpf.features
  have hfeature : RtcpFbAttribute.feature
      { id := pt.fbId, type := if pt.avpf.rpsiCompatibility then .nack else .ack,
        param := .rpsi } = avpfRpsi := by
    cases pt.avpf.rpsiCompatibility <;> rfl
  have hbits : ((payloadAttributes general pt).any fun attr => attr.feature.toNat.testBit i) =
      (pt.avpf.features.toNat.testBit 1 && (2 ^ 1).testBit i ||
        pt.avpf.features.toNat.testBit 2 && (2 ^ 2).testBit i ||
        pt.avpf.features.toNat.testBit 3 && (2 ^ 3).testBit i ||
        pt.avpf.features.toNat.testBit 0 && (2 ^ 0).testBit i) := by
    simp only [payloadAttributes, List.any_append, any_ite_singleton, any_ite_nil, hfeature,
      decide_eq_decide.mpr hfir, decide_eq_decide.mpr hpli, decide_eq_decide.mpr hsli,
      decide_eq_decide.mpr hrpsi, Bool.decide_eq_true]
    show (_ && Nat.testBit 0 i || _ && (2 ^ 1).testBit i || _ && (2 ^ 2).testBit i ||
      _ && (2 ^ 3).testBit i || _ && (2 ^ 0).testBit i) = _
    rw [Nat.zero_testBit, Bool.and_false, Bool.false_or]
  rw [hbits]
  simp only [Nat.testBit_two_pow]
  by_cases hi : i < 4
  · have hcases : i = 0 ∨ i = 1 ∨ i = 2 ∨ i = 3 := by omega
    rcases hcases with rfl | rfl | rfl | rfl <;> simp
  · have hne : ¬1 = i ∧ ¬2 = i ∧ ¬3 = i ∧ ¬0 = i := by omega
    simp [hi, hne]

theorem payloadAttributes_rpsi :
    (payloadAttributes general pt).any (·.negativeRpsi) =
      (pt.avpf.features.toNat.testBit 3 && pt.avpf.rpsiCompatibility) := by
  obtain ⟨-, -, -, hrpsi⟩ := avpf_bits pt.avpf.features
  simp only [payloadAttributes, List.any_append, any_ite_singleton, any_ite_nil,
    decide_eq_decide.mpr hrpsi, RtcpFbAttribute.negativeRpsi, Bool.decide_eq_true]
  cases pt.avpf.rpsiCompatibility <;> simp

theorem payloadAttributes_interval (t : UInt16) :
    (payloadAttributes general pt).foldl RtcpFbAttribute.interval t =
      if general then t else pt.avpf.trrInterval := by
  have hkeep : ∀ (c : Prop) [Decidable c] (attr : RtcpFbAttribute) (t : UInt16),
      attr.type ≠ .trrInt →
        (if c then [attr] else []).foldl RtcpFbAttribute.interval t = t := by
    intro c _ attr t h
    split
    · exact if_neg h
    · rfl
  simp only [payloadAttributes, List.foldl_append]
  rw [hkeep _ _ _ (by simp), hkeep, hkeep _ _ _ (by simp), hkeep _ _ _ (by simp)]
  · cases general <;> rfl
  · cases pt.avpf.rpsiCompatibility <;> simp

end

/-! ## What is read back -/

/-- What a list of attributes comes to, part by part. -/
theorem applyAll_zero_eq_iff (attrs : List RtcpFbAttribute) (avpf : PayloadTypeAvpfParams) :
    applyAll attrs {} = avpf ↔
      (∀ i, avpf.features.toNat.testBit i = true ↔
        attrs.any (fun attr => attr.feature.toNat.testBit i) = true) ∧
      (avpf.rpsiCompatibility = true ↔ attrs.any (·.negativeRpsi) = true) ∧
      avpf.trrInterval = attrs.foldl RtcpFbAttribute.interval 0 := by
  have hfeatures := applyAll_features attrs {}
  have hrpsi := applyAll_rpsi attrs {}
  have hinterval := applyAll_trrInterval attrs {}
  constructor
  · rintro rfl
    refine ⟨fun i => ?_, ?_, hinterval⟩
    · rw [hfeatures]
      simp
    · rw [hrpsi]
      simp
  · rintro ⟨h, h', h''⟩
    obtain ⟨features, rpsi, interval⟩ := avpf
    generalize applyAll attrs {} = read at *
    obtain ⟨readFeatures, readRpsi, readInterval⟩ := read
    simp only [PayloadTypeAvpfParams.mk.injEq] at *
    refine ⟨?_, ?_, hinterval.trans h''.symm⟩
    · apply UInt8.toNat_inj.mp
      apply Nat.eq_of_testBit_eq
      intro i
      rw [Bool.eq_iff_iff, h i, hfeatures i]
      simp
    · rw [Bool.eq_iff_iff, h', hrpsi]
      simp

/-- The attribute of `p` reaches `q`: its number, in eight bits, is that of `q` or -1. -/
def Hears (q p : PayloadType) : Prop := p.fbId = -1 ∨ q.number = p.fbId.toInt

/-- The payload types that announce an interval of their own to `q`, in the order it is told. -/
def intervalsHeard (payloads : List PayloadType) (q : PayloadType) : List UInt16 :=
  (payloads.filter (fun p => p.fbId == -1) ++
    payloads.filter (fun p => q.number == p.fbId.toInt)).map (·.avpf.trrInterval)

/-- The parameters of `q` are what the payload types it hears announce: bit by bit the features
SDP has an attribute for, RPSI as negative feedback, and the interval. -/
structure KeptParams (payloads : List PayloadType) (q : PayloadType) : Prop where
  features : ∀ i, q.avpf.features.toNat.testBit i = true ↔
    i < 4 ∧ ∃ p ∈ payloads, Hears q p ∧ p.avpf.features.toNat.testBit i = true
  rpsi : q.avpf.rpsiCompatibility = true ↔
    ∃ p ∈ payloads, Hears q p ∧ p.avpf.features.toNat.testBit 3 = true ∧
      p.avpf.rpsiCompatibility = true
  interval : q.avpf.trrInterval =
    if (sameTrrInt payloads true 0).1 then (sameTrrInt payloads true 0).2
    else (intervalsHeard payloads q).getLastD 0

section

variable (payloads : List PayloadType) (q : PayloadType) (general : Bool) (trrInt : UInt16)

theorem filter_flatMap_id (f : Int8 → Bool) :
    (payloads.flatMap (payloadAttributes general)).filter (fun attr => f attr.id) =
      (payloads.filter fun p => f p.fbId).flatMap (payloadAttributes general) := by
  induction payloads with
  | nil => rfl
  | cons p payloads ih =>
      rw [List.flatMap_cons, List.filter_append, ih]
      cases hp : f p.fbId with
      | true =>
          rw [List.filter_cons_of_pos (by simp [hp]), List.flatMap_cons, List.filter_eq_self.mpr]
          intro attr hattr
          rw [payloadAttributes_id general p attr hattr, hp]
      | false =>
          rw [List.filter_cons_of_neg (by simp [hp]), List.filter_eq_nil_iff.mpr, List.nil_append]
          intro attr hattr
          rw [payloadAttributes_id general p attr hattr, hp]
          exact Bool.false_ne_true

/-- What `q` hears, in the order it does. -/
theorem heard_attributes :
    heard q.number (generalAttributes general trrInt ++
        payloads.flatMap (payloadAttributes general)) =
      generalAttributes general trrInt ++
        (payloads.filter fun p => p.fbId == -1).flatMap (payloadAttributes general) ++
        ((generalAttributes general trrInt).filter (fun attr => q.number == attr.id.toInt) ++
          (payloads.filter fun p => q.number == p.fbId.toInt).flatMap
            (payloadAttributes general)) := by
  have hself : (generalAttributes general trrInt).filter (fun attr => attr.id == -1) =
      generalAttributes general trrInt := by
    cases general <;> rfl
  rw [heard, List.filter_append, List.filter_append, hself,
    filter_flatMap_id payloads general (· == -1),
    filter_flatMap_id payloads general (fun id => q.number == id.toInt)]

/-- A property the general attribute lacks is heard from a payload type. -/
theorem any_heard (f : RtcpFbAttribute → Bool)
    (hgeneral : ∀ attr ∈ generalAttributes general trrInt, f attr = false) :
    (heard q.number (generalAttributes general trrInt ++
        payloads.flatMap (payloadAttributes general))).any f = true ↔
      ∃ p ∈ payloads, Hears q p ∧ (payloadAttributes general p).any f = true := by
  have hnone : (generalAttributes general trrInt).any f = false := by
    rw [List.any_eq_false]
    intro attr hattr
    rw [hgeneral attr hattr]
    exact Bool.false_ne_true
  have hfiltered : ((generalAttributes general trrInt).filter
      fun attr => q.number == attr.id.toInt).any f = false := by
    rw [List.any_eq_false]
    intro attr hattr
    rw [hgeneral attr (List.mem_filter.mp hattr).1]
    exact Bool.false_ne_true
  rw [heard_attributes, List.any_append, List.any_append, List.any_append, hnone, hfiltered,
    Bool.false_or, Bool.false_or, List.any_flatMap, List.any_flatMap]
  simp only [Bool.or_eq_true, List.any_eq_true, List.mem_filter, beq_iff_eq, Hears]
  constructor
  · rintro (⟨p, ⟨hp, hid⟩, hf⟩ | ⟨p, ⟨hp, hid⟩, hf⟩)
    · exact ⟨p, hp, .inl hid, hf⟩
    · exact ⟨p, hp, .inr hid, hf⟩
  · rintro ⟨p, hp, hid | hid, hf⟩
    · exact .inl ⟨p, ⟨hp, hid⟩, hf⟩
    · exact .inr ⟨p, ⟨hp, hid⟩, hf⟩

theorem interval_flatMap (l : List PayloadType) (t : UInt16) :
    (l.flatMap (payloadAttributes general)).foldl RtcpFbAttribute.interval t =
      if general then t else (l.map (·.avpf.trrInterval)).getLastD t := by
  induction l generalizing t with
  | nil => cases general <;> rfl
  | cons p l ih =>
      rw [List.flatMap_cons, List.foldl_append, ih, payloadAttributes_interval]
      cases general with
      | true => rfl
      | false => rw [List.map_cons, List.getLastD_cons]; rfl

/-- The interval `q` is left with. -/
theorem interval_heard :
    (heard q.number (generalAttributes general trrInt ++
        payloads.flatMap (payloadAttributes general))).foldl RtcpFbAttribute.interval 0 =
      if general then trrInt else (intervalsHeard payloads q).getLastD 0 := by
  rw [heard_attributes]
  simp only [List.foldl_append, interval_flatMap]
  cases general with
  | true =>
      simp only [generalAttributes, if_true, List.foldl_cons, List.foldl_nil,
        RtcpFbAttribute.interval]
      have hagain : ∀ attrs : List RtcpFbAttribute,
          (∀ attr ∈ attrs, attr.type = .trrInt ∧ attr.trrInt = trrInt) →
            attrs.foldl RtcpFbAttribute.interval trrInt = trrInt := by
        intro attrs hattrs
        induction attrs with
        | nil => rfl
        | cons attr attrs ih =>
            obtain ⟨htype, hint⟩ := hattrs attr (.head _)
            rw [List.foldl_cons, RtcpFbAttribute.interval, if_pos htype, hint]
            exact ih fun attr h => hattrs attr (.tail _ h)
      apply hagain
      intro attr hattr
      rw [List.mem_singleton.mp (List.mem_filter.mp hattr).1]
      exact ⟨rfl, rfl⟩
  | false =>
      simp only [generalAttributes, Bool.false_eq_true, if_false, List.foldl_nil,
        List.filter_nil, intervalsHeard, List.map_append, List.getLastD_eq_getLast?,
        List.getLast?_append, Option.getD_or]

/-- **What a payload type is left with is what it had exactly when that is kept.** -/
theorem applyAll_heard_eq_iff :
    applyAll (heard q.number (addRtcpFbAttributes payloads).2) {} = q.avpf ↔
      KeptParams payloads q := by
  have hgeneral : ∀ attr ∈ generalAttributes (sameTrrInt payloads true 0).1
      (sameTrrInt payloads true 0).2, attr.type = .trrInt := by
    intro attr hattr
    unfold generalAttributes at hattr
    split at hattr
    · rw [List.mem_singleton.mp hattr]
    · exact absurd hattr List.not_mem_nil
  have hfeatures : ∀ i, (heard q.number (addRtcpFbAttributes payloads).2).any
        (fun attr => attr.feature.toNat.testBit i) = true ↔
      i < 4 ∧ ∃ p ∈ payloads, Hears q p ∧ p.avpf.features.toNat.testBit i = true := by
    intro i
    refine (any_heard payloads q _ _ _ ?_).trans ?_
    · intro attr hattr
      rw [RtcpFbAttribute.feature, hgeneral attr hattr]
      exact Nat.zero_testBit i
    · simp only [payloadAttributes_features, Bool.and_eq_true, decide_eq_true_eq]
      constructor
      · rintro ⟨p, hp, hhears, hi, hbit⟩
        exact ⟨hi, p, hp, hhears, hbit⟩
      · rintro ⟨hi, p, hp, hhears, hbit⟩
        exact ⟨p, hp, hhears, hi, hbit⟩
  have hrpsi : (heard q.number (addRtcpFbAttributes payloads).2).any (·.negativeRpsi) = true ↔
      ∃ p ∈ payloads, Hears q p ∧ p.avpf.features.toNat.testBit 3 = true ∧
        p.avpf.rpsiCompatibility = true := by
    refine (any_heard payloads q _ _ _ ?_).trans ?_
    · intro attr hattr
      rw [RtcpFbAttribute.negativeRpsi, hgeneral attr hattr]
    · simp only [payloadAttributes_rpsi, Bool.and_eq_true]
  have hinterval := interval_heard payloads q (sameTrrInt payloads true 0).1
    (sameTrrInt payloads true 0).2
  rw [applyAll_zero_eq_iff]
  constructor
  · rintro ⟨h, h', h''⟩
    exact ⟨fun i => (h i).trans (hfeatures i), h'.trans hrpsi, h''.trans hinterval⟩
  · rintro ⟨h, h', h''⟩
    exact ⟨fun i => (h i).trans (hfeatures i).symm, h'.trans hrpsi.symm,
      h''.trans hinterval.symm⟩

end

/-! ## The round trip -/

/-- What the parameters of each number are, in the order of the payload types. -/
def fbParams (payloads : List PayloadType) : List (Int × PayloadTypeAvpfParams) :=
  payloads.map fun pt => (pt.number, pt.avpf)

/-- The parameters of a stream survive its SDP: its transport has the attributes and each payload
type is kept, or there is nothing to say. -/
def FbKept (stream : SalStreamDescription) : Prop :=
  ∀ q ∈ stream.payloads,
    if feedbackProto stream.proto then KeptParams stream.payloads q else q.avpf = {}

/-- **The feedback parameters are read back exactly when they are kept.** -/
theorem rtcp_fb_round_trip_iff (stream : SalStreamDescription) (noChannels : Int)
    (hport : stream.rtpPort ≠ 0) :
    fbParams (readPayloads noChannels stream) = fbParams stream.payloads ↔ FbKept stream := by
  have hproto : readProto (streamDescriptionToSdp stream).protocol = stream.proto :=
    readProto_salMediaProtoToString stream.proto
  unfold readPayloads readRtcpFb rtcpFbAttributes FbKept
  rw [hproto]
  by_cases hfb : feedbackProto stream.proto = true
  · simp only [hfb, if_true, and_true, ne_eq, hport, not_false_eq_true,
      sdpParseRtcpFbParameters_eq, fbParams, List.map_map]
    rw [List.map_inj_left]
    refine forall₂_congr fun q _ => ?_
    rw [← applyAll_heard_eq_iff]
    simp [sdpParsePayloadType, PayloadType.enableFeedback]
  · simp only [hfb, Bool.false_eq_true, if_false, fbParams, List.map_map]
    rw [List.map_inj_left]
    refine forall₂_congr fun q _ => ?_
    simp [sdpParsePayloadType, eq_comm]

/-- Two video codecs on a transport; the first has the feedback flag already. -/
def feedbackStream (proto : SalMediaProto) (trrInterval : UInt16) : SalStreamDescription :=
  { type := .video, proto := proto, rtpPort := 9078
    payloads := [
      { mimeType := "VP8", clockRate := 90000, number := 96
        flags := { rtcpFeedbackEnabled := true }
        avpf := { features := avpfPli ||| avpfRpsi, trrInterval := 3000 } },
      { mimeType := "H264", clockRate := 90000, number := 97
        avpf := { features := avpfPli ||| avpfFir, trrInterval := trrInterval } }] }

theorem rtcp_fb_round_trip_savpf : FbKept (feedbackStream .rtpSavpf 3000) :=
  (rtcp_fb_round_trip_iff (feedbackStream .rtpSavpf 3000) 1 (by decide)).mp (by decide)

/-- Over DTLS nothing is announced at all. -/
theorem rtcp_fb_lost_on_dtls :
    (feedbackStream .udpTlsRtpSavpf 3000).hasAvpf ∧
      (feedbackStream .udpTlsRtpSavpf 3000).rtpPort ≠ 0 ∧
      ((feedbackStream .udpTlsRtpSavpf 3000).payloads.map (·.number)).Nodup ∧
      fbParams (readPayloads 1 (feedbackStream .udpTlsRtpSavpf 3000)) ≠
        fbParams (feedbackStream .udpTlsRtpSavpf 3000).payloads := by
  decide

/-- An interval is announced for all payload types though only the flagged one has it. -/
example : fbParams (readPayloads 1 (feedbackStream .rtpSavpf 0)) =
    fbParams (feedbackStream .rtpSavpf 3000).payloads := by
  decide

/-! ## The numbers RTP has -/

section

variable {payloads : List PayloadType} {q : PayloadType}

theorem features_lt_iff (features : UInt8) :
    features < 16 ↔ ∀ i, features.toNat.testBit i = true → i < 4 := by
  rw [UInt8.lt_iff_toNat_lt]
  constructor
  · intro h i hi
    by_contra hge
    have hlow : features.toNat < 2 ^ i :=
      Nat.lt_of_lt_of_le h (Nat.pow_le_pow_right (n := 2) (by decide) (Nat.le_of_not_lt hge))
    exact absurd hi (by rw [Nat.testBit_lt_two_pow hlow]; exact Bool.false_ne_true)
  · intro h
    refine Nat.lt_pow_two_of_testBit (n := 4) _ fun i hi => ?_
    rw [← Bool.not_eq_true]
    exact fun hbit => absurd (h i hbit) (Nat.not_lt.mpr hi)

theorem getLastD_of_all {α : Type} {l : List α} {x d : α} (hl : l ≠ []) (h : ∀ y ∈ l, y = x) :
    l.getLastD d = x := by
  rw [List.getLastD_eq_getLast?, List.getLast?_eq_getLast_of_ne_nil hl]
  exact h _ (List.getLast_mem hl)

theorem fbId_toInt {p : PayloadType} (h : 0 ≤ p.number ∧ p.number < 128) :
    p.fbId.toInt = p.number :=
  Int8.toInt_ofInt_of_le (by omega) (by omega)

/-- A payload type with a number of seven bits is heard by that number only. -/
theorem hears_iff (hnumbers : ∀ p ∈ payloads, 0 ≤ p.number ∧ p.number < 128)
    (hdistinct : (payloads.map (·.number)).Nodup) (hq : q ∈ payloads)
    {p : PayloadType} (hp : p ∈ payloads) : Hears q p ↔ p = q := by
  have hid := fbId_toInt (hnumbers p hp)
  constructor
  · rintro (h | h)
    · rw [h] at hid
      have := hnumbers p hp
      have : (-1 : Int8).toInt = -1 := rfl
      omega
    · rw [hid] at h
      exact List.inj_on_of_nodup_map hdistinct hp hq h.symm
  · rintro rfl
    exact .inr hid.symm

/-- **For numbers of seven bits, no two alike, the parameters are kept when the features are known
ones, RPSI is not called negative where it is off, and an interval announced for all is the one
of each.** -/
theorem keptParams_iff (hnumbers : ∀ p ∈ payloads, 0 ≤ p.number ∧ p.number < 128)
    (hdistinct : (payloads.map (·.number)).Nodup) (hq : q ∈ payloads) :
    KeptParams payloads q ↔
      q.avpf.features < 16 ∧
        (q.avpf.rpsiCompatibility = true → q.avpf.features &&& avpfRpsi ≠ 0) ∧
        ((sameTrrInt payloads true 0).1 = true →
          q.avpf.trrInterval = (sameTrrInt payloads true 0).2) := by
  have hhears : ∀ f : PayloadType → Prop,
      (∃ p ∈ payloads, Hears q p ∧ f p) ↔ f q := by
    intro f
    constructor
    · rintro ⟨p, hp, hpq, hf⟩
      exact (hears_iff hnumbers hdistinct hq hp).mp hpq ▸ hf
    · intro hf
      exact ⟨q, hq, (hears_iff hnumbers hdistinct hq hq).mpr rfl, hf⟩
  have hinterval : (intervalsHeard payloads q).getLastD 0 = q.avpf.trrInterval := by
    apply getLastD_of_all
    · have hown : q.avpf.trrInterval ∈ intervalsHeard payloads q :=
        List.mem_map_of_mem (List.mem_append_right _ (List.mem_filter.mpr
          ⟨hq, beq_iff_eq.mpr (fbId_toInt (hnumbers q hq)).symm⟩))
      exact List.ne_nil_of_mem hown
    · intro t ht
      obtain ⟨p, hp, rfl⟩ := List.mem_map.mp ht
      have hpq : p ∈ payloads ∧ Hears q p := by
        rcases List.mem_append.mp hp with hp | hp
        · exact ⟨(List.mem_filter.mp hp).1, .inl (beq_iff_eq.mp (List.mem_filter.mp hp).2)⟩
        · exact ⟨(List.mem_filter.mp hp).1, .inr (beq_iff_eq.mp (List.mem_filter.mp hp).2)⟩
      rw [(hears_iff hnumbers hdistinct hq hpq.1).mp hpq.2]
  have hbit := (avpf_bits q.avpf.features).2.2.2
  constructor
  · rintro ⟨hfeatures, hrpsi, htrr⟩
    refine ⟨(features_lt_iff _).mpr fun i hi => ((hfeatures i).mp hi).1, fun h => ?_,
      fun h => ?_⟩
    · exact hbit.mpr ((hhears _).mp (hrpsi.mp h)).1
    · rw [htrr, if_pos h]
  · rintro ⟨hfeatures, hrpsi, htrr⟩
    refine ⟨fun i => ?_, ?_, ?_⟩
    · rw [hhears]
      exact ⟨fun h => ⟨(features_lt_iff _).mp hfeatures i h, h⟩, fun h => h.2⟩
    · rw [hhears fun p => p.avpf.features.toNat.testBit 3 = true ∧
        p.avpf.rpsiCompatibility = true]
      exact ⟨fun h => ⟨hbit.mp (hrpsi h), h⟩, fun h => h.2⟩
    · split
      · rename_i hsame
        exact htrr hsame
      · exact hinterval.symm

end

end Linphone
