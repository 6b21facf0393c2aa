import Mathlib.Tactic.Common

/-!
# Session descriptions

The data the SIP abstraction layer negotiates on, following `include/sal/sal.h` and the
small queries of `coreapi/sal.c`. A `SalMediaDescription` is the fixed array of stream
descriptions of the C structure together with the count of the ones in use; the count never
exceeds the array, and the structure carries that bound. Everything is zero by default, as
after `sal_media_description_new`.

Fixed-size character buffers are `String`s: every copy in the modelled code is between
buffers of one size, so nothing is ever truncated by it. Functions of oRTP and mediastreamer2
that the negotiation calls are the fields of `MediaLib`.
-/

namespace Linphone

/-! ## Enumerations -/

inductive SalStreamType
  | audio | video | other
deriving DecidableEq, Inhabited

inductive SalMediaProto
  | rtpAvp | rtpSavp | rtpAvpf | rtpSavpf | udpTlsRtpSavp | udpTlsRtpSavpf | other
deriving DecidableEq, Inhabited

inductive SalStreamDir
  | sendRecv | sendOnly | recvOnly | inactive
deriving DecidableEq, Inhabited

inductive SalDtlsRole
  | invalid | isServer | isClient | unset
deriving DecidableEq, Inhabited

inductive SalMulticastRole
  | inactive | sender | receiver | senderReceiver
deriving DecidableEq, Inhabited

/-- The SRTP suites of mediastreamer2; `invalid` is the value `0` the code tests for. -/
inductive MSCryptoSuite
  | invalid | aes128Sha1_80 | aes128Sha1_32 | aes128NoAuth | noCipherSha1_80
  | aes256Sha1_80 | aes256Sha1_32
deriving DecidableEq, Inhabited

/-! ## Payload types -/

/-- The bits of `PayloadType.flags` the negotiation reads or writes. -/
structure PayloadFlags where
  /-- `PAYLOAD_TYPE_FLAG_CAN_RECV` -/
  canRecv : Bool := false
  /-- `PAYLOAD_TYPE_FLAG_CAN_SEND` -/
  canSend : Bool := false
  /-- `PAYLOAD_TYPE_RTCP_FEEDBACK_ENABLED` -/
  rtcpFeedbackEnabled : Bool := false
  /-- `PAYLOAD_TYPE_FROZEN_NUMBER` -/
  frozenNumber : Bool := false
  /-- `PAYLOAD_TYPE_ENABLED` -/
  enabled : Bool := false
deriving DecidableEq, Inhabited

structure PayloadTypeAvpfParams where
  features : UInt8 := 0
  rpsiCompatibility : Bool := false
  trrInterval : UInt16 := 0
deriving DecidableEq, Inhabited

structure PayloadType where
  type : Nat := 0
  clockRate : Int := 0
  mimeType : String := ""
  channels : Int := 0
  recvFmtp : Option String := none
  sendFmtp : Option String := none
  avpf : PayloadTypeAvpfParams := {}
  flags : PayloadFlags := {}
  number : Int := 0
deriving DecidableEq, Inhabited

/-- What the negotiation uses of oRTP and mediastreamer2. -/
structure MediaLib where
  /-- `fmtp_get_value` into a buffer of ten characters. -/
  fmtpGetValue : String → String → Option String
  /-- `payload_type_append_send_fmtp`, on the field it changes. -/
  appendSendFmtp : Option String → String → Option String
  /-- `ms_is_multicast` -/
  isMulticast : String → Bool
  /-- `ms_is_ipv6` -/
  isIpv6 : String → Bool

/-! ## Stream and media descriptions -/

/-- `SAL_CRYPTO_ALGO_MAX` -/
abbrev cryptoAlgoMax : Nat := 4

/-- `SAL_MEDIA_DESCRIPTION_MAX_STREAMS` -/
abbrev maxStreams : Nat := 8

theorem cryptoAlgoMax_pos : 0 < cryptoAlgoMax := by decide

theorem one_le_maxStreams : 1 ≤ maxStreams := by decide

theorem two_le_maxStreams : 2 ≤ maxStreams := by decide

structure SalSrtpCryptoAlgo where
  tag : UInt32 := 0
  algo : MSCryptoSuite := .invalid
  masterKey : String := ""
deriving DecidableEq, Inhabited

structure OrtpRtcpXrConfiguration where
  enabled : Bool := false
  statSummaryEnabled : Bool := false
  rcvrRttMode : Nat := 0
  rcvrRttMaxSize : Int := 0
  statSummaryFlags : Nat := 0
  voipMetricsEnabled : Bool := false
deriving DecidableEq, Inhabited

structure SalIceCandidate where
  addr : String := ""
  raddr : String := ""
  foundation : String := ""
  type : String := ""
  componentID : UInt32 := 0
  priority : UInt32 := 0
  port : Int := 0
  rport : Int := 0
deriving DecidableEq, Inhabited

structure SalIceRemoteCandidate where
  addr : String := ""
  port : Int := 0
deriving DecidableEq, Inhabited

structure SalStreamDescription where
  name : String := ""
  proto : SalMediaProto := .rtpAvp
  type : SalStreamType := .audio
  typeother : String := ""
  protoOther : String := ""
  rtpAddr : String := ""
  rtcpAddr : String := ""
  rtpSsrc : UInt32 := 0
  rtcpCname : String := ""
  rtpPort : Int := 0
  rtcpPort : Int := 0
  payloads : List PayloadType := []
  bandwidth : Int := 0
  ptime : Int := 0
  dir : SalStreamDir := .sendRecv
  crypto : Vector SalSrtpCryptoAlgo cryptoAlgoMax := Vector.replicate cryptoAlgoMax {}
  cryptoLocalTag : UInt32 := 0
  rtcpXr : OrtpRtcpXrConfiguration := {}
  iceCandidates : List SalIceCandidate := []
  iceRemoteCandidates : List SalIceRemoteCandidate := []
  iceUfrag : String := ""
  icePwd : String := ""
  iceMismatch : Bool := false
  iceCompleted : Bool := false
  dtlsFingerprint : String := ""
  dtlsRole : SalDtlsRole := .invalid
  ttl : Int := 0
  multicastRole : SalMulticastRole := .inactive
deriving DecidableEq

/-- A zeroed stream description. -/
instance : Inhabited SalStreamDescription := ⟨{}⟩

structure SalMediaDescription where
  name : String := ""
  addr : String := ""
  username : String := ""
  nbStreams : Nat := 0
  bandwidth : Int := 0
  sessionVer : UInt32 := 0
  sessionId : UInt32 := 0
  dir : SalStreamDir := .sendRecv
  streams : Vector SalStreamDescription maxStreams := Vector.replicate maxStreams {}
  rtcpXr : OrtpRtcpXrConfiguration := {}
  iceUfrag : String := ""
  icePwd : String := ""
  iceLite : Bool := false
  iceCompleted : Bool := false
  /-- The streams in use fit the array. -/
  nb_le : nbStreams ≤ maxStreams := by
    first | exact one_le_maxStreams | exact two_le_maxStreams | decide
deriving DecidableEq

/-- `strcasecmp(s, t) == 0` -/
def strcasecmp (s t : String) : Bool :=
  s.toList.map Char.toLower == t.toList.map Char.toLower

namespace SalMediaDescription

variable (md : SalMediaDescription)

/-- `sal_media_description_new` -/
def new : SalMediaDescription := {}

/-- `md->streams[i]` -/
def stream (i : Nat) : SalStreamDescription := md.streams[i]?.getD default

/-- `md->streams[i] = s` -/
def setStream (i : Nat) (s : SalStreamDescription) : SalMediaDescription :=
  { md with streams := md.streams.setIfInBounds i s }

@[simp] theorem stream_setStream_self {i : Nat} (s : SalStreamDescription) (h : i < maxStreams) :
    (md.setStream i s).stream i = s := by
  simp [stream, setStream, h]

@[simp] theorem stream_setStream_ne {i j : Nat} (s : SalStreamDescription) (h : i ≠ j) :
    (md.setStream i s).stream j = md.stream j := by
  simp [stream, setStream, Vector.getElem?_setIfInBounds_ne h]

@[simp] theorem stream_new (i : Nat) : new.stream i = default := by
  by_cases h : i < maxStreams
  · simp only [stream, new, Vector.getElem?_replicate, h, if_true, Option.getD_some]
    rfl
  · simp [stream, new, h]

/-- The loop `for (i = 0; i < md->nb_streams; ++i)` that rewrites each stream in use. -/
def mapStreams (f : Nat → SalStreamDescription → SalStreamDescription) : SalMediaDescription :=
  { md with
    streams := Vector.ofFn fun i => if i < md.nbStreams then f i (md.stream i) else md.stream i }

@[simp] theorem mapStreams_nbStreams (f : Nat → SalStreamDescription → SalStreamDescription) :
    (md.mapStreams f).nbStreams = md.nbStreams := rfl

theorem lt_maxStreams {i : Nat} (h : i < md.nbStreams) : i < maxStreams :=
  Nat.lt_of_lt_of_le h md.nb_le

theorem stream_mapStreams (f : Nat → SalStreamDescription → SalStreamDescription) {i : Nat}
    (h : i < md.nbStreams) : (md.mapStreams f).stream i = f i (md.stream i) := by
  simp [mapStreams, stream, md.lt_maxStreams h, h]

end SalMediaDescription

/-! ## Queries on streams -/

namespace SalStreamDescription

variable (sd : SalStreamDescription)

/-- `sal_stream_description_active` -/
def active : Bool := sd.rtpPort > 0

/-- `sal_stream_description_has_srtp` -/
def hasSrtp : Bool := sd.proto == .rtpSavp || sd.proto == .rtpSavpf

/-- `sal_stream_description_has_dtls` -/
def hasDtls : Bool := sd.proto == .udpTlsRtpSavp || sd.proto == .udpTlsRtpSavpf

/-- `sal_stream_description_has_avpf` -/
def hasAvpf : Bool :=
  sd.proto == .rtpAvpf || sd.proto == .rtpSavpf || sd.proto == .udpTlsRtpSavpf

end SalStreamDescription

namespace SalMediaDescription

/-- `sal_media_description_find_stream`: the first active stream of that transport and type. The
pointer the source returns is the position of the stream. -/
def findStream (md : SalMediaDescription) (proto : SalMediaProto) (type : SalStreamType) :
    Option Nat :=
  (List.range md.nbStreams).find? fun i =>
    (md.stream i).active && (md.stream i).proto == proto && (md.stream i).type == type

theorem findStream_eq_some {md : SalMediaDescription} {proto : SalMediaProto}
    {type : SalStreamType} {k : Nat} :
    md.findStream proto type = some k ↔
      ((md.stream k).active ∧ (md.stream k).proto = proto ∧ (md.stream k).type = type) ∧
        k < md.nbStreams ∧
        ∀ j < k, ¬((md.stream j).active ∧ (md.stream j).proto = proto ∧
          (md.stream j).type = type) := by
  simp only [findStream, List.find?_range_eq_some, List.mem_range, Bool.and_eq_true, beq_iff_eq,
    Bool.not_eq_true', Bool.and_eq_false_iff, beq_eq_false_iff_ne, not_and_or, and_assoc, or_assoc,
    Bool.not_eq_true, ne_eq]

theorem findStream_eq_none {md : SalMediaDescription} {proto : SalMediaProto}
    {type : SalStreamType} :
    md.findStream proto type = none ↔
      ∀ j < md.nbStreams, ¬((md.stream j).active ∧ (md.stream j).proto = proto ∧
          (md.stream j).type = type) := by
  simp [findStream, and_assoc]

/-- `is_null_address` -/
def isNullAddress (addr : String) : Bool := addr == "0.0.0.0" || addr == "::0"

/-- `has_dir`: some active stream has the direction. A null address counts as `sendonly`, for
phones that use it instead of the attribute. -/
def someHasDir (md : SalMediaDescription) (dir : SalStreamDir) : Bool :=
  (List.range md.nbStreams).any fun i =>
    let ss := md.stream i
    ss.active && (ss.dir == dir || (ss.dir == .sendRecv && dir == .sendOnly &&
      (isNullAddress md.addr || isNullAddress ss.rtpAddr)))

/-- `sal_media_description_has_dir` -/
def hasDir (md : SalMediaDescription) : SalStreamDir → Bool
  | .recvOnly => !(md.someHasDir .sendOnly || md.someHasDir .sendRecv)
  | .sendOnly => !(md.someHasDir .recvOnly || md.someHasDir .sendRecv)
  | .sendRecv => md.someHasDir .sendRecv
  | .inactive =>
      !(md.someHasDir .sendOnly || md.someHasDir .sendRecv || md.someHasDir .recvOnly)

end SalMediaDescription

end Linphone
