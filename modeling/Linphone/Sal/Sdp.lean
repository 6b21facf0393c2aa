import Linphone.OfferAnswer.Incoming

/-!
# Rendering an answer

The `m=` lines of `bellesip_sal/sal_sdp.c`: `media_description_to_sdp` writes one for each stream
in use, in order, and `stream_description_to_sdp` takes its media type from
`sal_stream_description_get_type_as_string` and its transport from `sal_media_proto_to_string`.
The accessor `sal_stream_description_get_proto_as_string`, which knows the text of a transport
outside the enumeration, is not what the renderer calls.

An answer should repeat the m-lines of the offer. `echoes_iff` is the exact condition.
-/

namespace Linphone

/-! ## Texts -/

/-- `sal_stream_type_to_string` -/
def salStreamTypeToString : SalStreamType → String
  | .audio => "audio"
  | .video => "video"
  | .other => "other"

/-- `sal_media_proto_to_string` -/
def salMediaProtoToString : SalMediaProto → String
  | .rtpAvp => "RTP/AVP"
  | .rtpSavp => "RTP/SAVP"
  | .udpTlsRtpSavp => "UDP/TLS/RTP/SAVP"
  | .rtpAvpf => "RTP/AVPF"
  | .rtpSavpf => "RTP/SAVPF"
  | .udpTlsRtpSavpf => "UDP/TLS/RTP/SAVPF"
  | .other => "unknown"

namespace SalStreamDescription

variable (desc : SalStreamDescription)

/-- `sal_stream_description_get_type_as_string` -/
def typeAsString : String :=
  if desc.type = .other then desc.typeother else salStreamTypeToString desc.type

/-- `sal_stream_description_get_proto_as_string` -/
def protoAsString : String :=
  if desc.proto = .other then desc.protoOther else salMediaProtoToString desc.proto

end SalStreamDescription

/-! ## The m-lines -/

/-- An `m=` line, without its format list. -/
structure SdpMedia where
  mediaType : String
  port : Int
  protocol : String
deriving DecidableEq

/-- The `m=` line `stream_description_to_sdp` creates. -/
def streamDescriptionToSdp (stream : SalStreamDescription) : SdpMedia where
  mediaType := stream.typeAsString
  port := stream.rtpPort
  protocol := salMediaProtoToString stream.proto

/-- The `m=` lines of `media_description_to_sdp`. -/
def mediaDescriptionToSdp (desc : SalMediaDescription) : List SdpMedia :=
  (List.range desc.nbStreams).map fun i => streamDescriptionToSdp (desc.stream i)

/-! ## An answer repeats the offer -/

variable (lib : MediaLib) (cap remote : SalMediaDescription) (one : Bool)

/-- No local stream is active, of the offered type and of a compatible transport. -/
def NoCompatible (rs : SalStreamDescription) : Prop :=
  ∀ k < cap.nbStreams, compatible (cap.stream k) rs = false

/-- The line `line` answers the offered stream `rs`: same media type and transport, and declined
if the transport is unknown or no local stream is compatible. -/
structure EchoesLine (rs : SalStreamDescription) (line : SdpMedia) : Prop where
  mediaType : line.mediaType = rs.typeAsString
  protocol : line.protocol = rs.protoAsString
  declined : rs.proto = .other ∨ NoCompatible cap rs → line.port = 0

/-- The rendered lines answer the offer position by position. -/
structure Echoes (lines : List SdpMedia) : Prop where
  length : lines.length = remote.nbStreams
  line : ∀ i < remote.nbStreams, ∀ line, lines[i]? = some line →
    EchoesLine cap (remote.stream i) line

/-- The type text of a stream of type `ty` that names no other type. -/
def bareTypeText (ty : SalStreamType) : String :=
  ({ type := ty } : SalStreamDescription).typeAsString

/-- What position `i` has to satisfy. An m-line of unknown transport survives only if its
transport really reads `unknown` and the match it inherits, if any, cannot serve it and has its
type; an m-line of known transport only if it has no match or its type needs no text. -/
def LineKept (i : Nat) : Prop :=
  if (remote.stream i).proto = .other then
    (remote.stream i).protoOther = "unknown" ∧
      ∀ k, carried cap remote i = some k →
        acceptable lib (cap.stream k) (remote.stream i) = false ∧
          bareTypeText (cap.stream k).type = (remote.stream i).typeAsString
  else
    (remote.stream i).type = .other → (remote.stream i).typeother ≠ "" →
      matching cap (remote.stream i) = none

theorem matching_eq_none {rs : SalStreamDescription} :
    matching cap rs = none ↔ NoCompatible cap rs := by
  simp [matching, findLocalMatchingStream, NoCompatible, localStreamNotAlreadyUsed,
    SalMediaDescription.new]

theorem matching_type {rs : SalStreamDescription} {k : Nat} (h : matching cap rs = some k) :
    (cap.stream k).type = rs.type := by
  have hp := List.find?_some h
  simp only [compatible, Bool.and_eq_true, beq_iff_eq] at hp
  exact hp.1.1.2

/-- The rendered line of a stream served by `ls`. -/
theorem AnsweredWith.line {ls rs st : SalStreamDescription} (h : AnsweredWith lib one ls rs st) :
    streamDescriptionToSdp st =
      { mediaType := bareTypeText ls.type, port := st.rtpPort
        protocol := salMediaProtoToString rs.proto } := by
  have hm := h.mline lib one
  simp only [SalStreamDescription.mline, Prod.mk.injEq] at hm
  obtain ⟨hproto, htype, hto, -⟩ := hm
  simp only [streamDescriptionToSdp, SalStreamDescription.typeAsString, bareTypeText, hproto, htype,
    hto]

theorem declined_line (rs : SalStreamDescription) :
    streamDescriptionToSdp (declined rs {}) =
      { mediaType := rs.typeAsString, port := 0, protocol := salMediaProtoToString rs.proto } := by
  simp only [streamDescriptionToSdp, SalStreamDescription.typeAsString, declined]
  congr 1
  split <;> rfl

theorem protocol_kept (rs : SalStreamDescription) :
    salMediaProtoToString rs.proto = rs.protoAsString ↔
      (rs.proto = .other → rs.protoOther = "unknown") := by
  unfold SalStreamDescription.protoAsString
  by_cases h : rs.proto = .other
  · simp [h, salMediaProtoToString, eq_comm]
  · simp [h]

theorem bareTypeText_kept (rs : SalStreamDescription) :
    bareTypeText rs.type = rs.typeAsString ↔ (rs.type = .other → rs.typeother = "") := by
  unfold bareTypeText SalStreamDescription.typeAsString
  by_cases h : rs.type = .other
  · simp only [h, if_true, forall_const]
    exact eq_comm
  · simp [h]

/-- An answered m-line of unknown transport. -/
theorem echoesLine_other {i k : Nat} (hother : (remote.stream i).proto = .other)
    {st : SalStreamDescription}
    (h : AnsweredWith lib one (cap.stream k) (remote.stream i) st) :
    EchoesLine cap (remote.stream i) (streamDescriptionToSdp st) ↔
      (remote.stream i).protoOther = "unknown" ∧
        acceptable lib (cap.stream k) (remote.stream i) = false ∧
          bareTypeText (cap.stream k).type = (remote.stream i).typeAsString := by
  have hport : st.rtpPort = 0 ↔ acceptable lib (cap.stream k) (remote.stream i) = false := by
    rw [← Bool.not_eq_true, ← h.rtpPort, not_not]
  rw [h.line]
  constructor
  · intro he
    exact ⟨(protocol_kept _).mp he.protocol hother, hport.mp (he.declined (.inl hother)),
      he.mediaType⟩
  · rintro ⟨hp, hacc, htype⟩
    exact ⟨htype, (protocol_kept _).mpr fun _ => hp, fun _ => hport.mpr hacc⟩

/-- **Position `i` is answered as it should exactly when `LineKept` holds there.** -/
theorem echoesLine_iff {i : Nat} (hi : i < remote.nbStreams) :
    EchoesLine cap (remote.stream i)
        (streamDescriptionToSdp ((answerTo lib cap remote one).stream i)) ↔
      LineKept lib cap remote i := by
  have hst := incoming_stream lib cap remote one hi
  unfold LineKept
  by_cases hother : (remote.stream i).proto = .other
  · rw [if_pos hother]
    rw [served_of_other cap remote hother] at hst
    cases hk : carried cap remote i with
    | none =>
        rw [hk] at hst
        simp only at hst
        rw [hst, declined_line]
        constructor
        · intro he
          exact ⟨(protocol_kept _).mp he.protocol hother, by simp⟩
        · rintro ⟨hp, -⟩
          exact ⟨rfl, (protocol_kept _).mpr fun _ => hp, fun _ => rfl⟩
    | some k =>
        rw [hk] at hst
        simp only at hst
        rw [echoesLine_other lib cap remote one hother hst]
        simp
  · rw [if_neg hother]
    rw [served_of_known cap remote hother] at hst
    cases hk : matching cap (remote.stream i) with
    | none =>
        rw [hk] at hst
        simp only at hst
        rw [hst, declined_line]
        have hproto := (protocol_kept (remote.stream i)).mpr fun h => absurd h hother
        exact ⟨fun _ _ _ => rfl, fun _ => ⟨rfl, hproto, fun _ => rfl⟩⟩
    | some k =>
        rw [hk] at hst
        simp only at hst
        rw [hst.line, matching_type cap hk]
        have hproto := (protocol_kept (remote.stream i)).mpr fun h => absurd h hother
        have hcompat : ¬NoCompatible cap (remote.stream i) := by
          rw [← matching_eq_none, hk]
          simp
        constructor
        · intro he ht hne
          exact absurd ((bareTypeText_kept _).mp he.mediaType ht) hne
        · intro hkept
          refine ⟨(bareTypeText_kept _).mpr fun ht => ?_, hproto, ?_⟩
          · by_contra hne
            exact absurd (hkept ht hne) (by simp)
          · rintro (h | h)
            · exact absurd h hother
            · exact absurd h hcompat

/-- **The rendered answer repeats the offer exactly when every position is kept.** -/
theorem echoes_iff :
    Echoes cap remote (mediaDescriptionToSdp (answerTo lib cap remote one)) ↔
      ∀ i < remote.nbStreams, LineKept lib cap remote i := by
  have hnb : (answerTo lib cap remote one).nbStreams = remote.nbStreams := rfl
  have hget : ∀ i < remote.nbStreams,
      (mediaDescriptionToSdp (answerTo lib cap remote one))[i]? =
        some (streamDescriptionToSdp ((answerTo lib cap remote one).stream i)) := by
    intro i hi
    simp [mediaDescriptionToSdp, hnb, hi]
  constructor
  · intro h i hi
    exact (echoesLine_iff lib cap remote one hi).mp (h.line i hi _ (hget i hi))
  · intro h
    refine ⟨by simp [mediaDescriptionToSdp, hnb], fun i hi line hline => ?_⟩
    rw [hget i hi, Option.some.injEq] at hline
    exact hline ▸ (echoesLine_iff lib cap remote one hi).mpr (h i hi)

/-- An audio m-line, and one of a transport outside the enumeration after it. -/
def knownThenUnknown : SalMediaDescription where
  nbStreams := 2
  streams := #v[plainStream .audio .rtpAvp 9078 "PCMU",
    { plainStream .audio .other 9080 "PCMU" with protoOther := "TCP/RTP/AVP" },
    {}, {}, {}, {}, {}, {}]

/-- The unknown transport is accepted with the stream of the line before. -/
theorem unknown_transport_accepted :
    ¬Echoes (lines 1 localAudio) knownThenUnknown
      (mediaDescriptionToSdp (answerTo plainLib (lines 1 localAudio) knownThenUnknown false)) := by
  intro h
  have hline := h.line 1 (by decide) ⟨"audio", 7078, "unknown"⟩ (by decide)
  exact absurd (hline.declined (.inl (by decide))) (by decide)

end Linphone
