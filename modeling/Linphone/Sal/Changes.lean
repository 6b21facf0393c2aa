import Linphone.Sal.Description

/-!
# Changes between descriptions

`sal_media_description_equals` of `coreapi/sal.c` compares two negotiations of one call and
returns a mask of what has to be done to the running streams. The mask is a structure with one
field for each `SAL_MEDIA_DESCRIPTION_*_CHANGED` bit, in the order of the bits.

What is not compared never reaches the streams of a call: the local crypto tag of a stream is one
such field, and the descriptions the mask calls unchanged can differ in it.
-/

namespace Linphone

/-- The bits of `SAL_MEDIA_DESCRIPTION_*`. -/
structure MediaChanges where
  network : Bool := false
  codec : Bool := false
  cryptoKeys : Bool := false
  cryptoPolicy : Bool := false
  streams : Bool := false
  networkXxxcast : Bool := false
  forceStreamReconstruction : Bool := false
deriving DecidableEq, Inhabited

namespace MediaChanges

/-- `SAL_MEDIA_DESCRIPTION_UNCHANGED` -/
def unchanged : MediaChanges := {}

instance : OrOp MediaChanges where
  or a b :=
    { network := a.network || b.network
      codec := a.codec || b.codec
      cryptoKeys := a.cryptoKeys || b.cryptoKeys
      cryptoPolicy := a.cryptoPolicy || b.cryptoPolicy
      streams := a.streams || b.streams
      networkXxxcast := a.networkXxxcast || b.networkXxxcast
      forceStreamReconstruction := a.forceStreamReconstruction || b.forceStreamReconstruction }

/-- `if (b) result |= c` -/
def when (b : Bool) (c : MediaChanges) : MediaChanges := if b then c else unchanged

/-- The changes that cannot be applied to running streams. -/
def restarts (c : MediaChanges) : Bool :=
  c.codec || c.streams || c.networkXxxcast || c.forceStreamReconstruction

@[simp] theorem or_cryptoKeys (a b : MediaChanges) :
    (a ||| b).cryptoKeys = (a.cryptoKeys || b.cryptoKeys) := rfl

@[simp] theorem when_false (c : MediaChanges) : when false c = unchanged := rfl

end MediaChanges

/-! ## Payload lists -/

/-- `payload_type_equals` -/
def payloadTypeEquals (p1 p2 : PayloadType) : Bool :=
  p1.type == p2.type && p1.mimeType == p2.mimeType && p1.clockRate == p2.clockRate &&
    p1.channels == p2.channels && p1.number == p2.number

/-- `is_recv_only` -/
def isRecvOnly (p : PayloadType) : Bool := p.flags.canRecv && !p.flags.canSend

/-- `payload_list_equals`: the first list may go on with payloads that are only received. -/
def payloadListEquals : List PayloadType → List PayloadType → Bool
  | p1 :: l1, p2 :: l2 => payloadTypeEquals p1 p2 && payloadListEquals l1 l2
  | l1, [] => l1.all isRecvOnly
  | [], _ :: _ => false

/-! ## Streams and descriptions -/

section

variable (lib : MediaLib)

/-- The comparison of one crypto entry. -/
def cryptoEquals (c1 c2 : SalSrtpCryptoAlgo) : MediaChanges :=
  .when (c1.tag != c2.tag || c1.algo != c2.algo) { cryptoPolicy := true } |||
    .when (c1.masterKey != c2.masterKey) { cryptoKeys := true }

/-- Two addresses, both present, of which one is a multicast address. -/
def xxxcastChanged (addr1 addr2 : String) : Bool :=
  addr1 != "" && addr2 != "" && lib.isMulticast addr1 != lib.isMulticast addr2

/-- `sal_stream_description_equals` -/
def salStreamDescriptionEquals (sd1 sd2 : SalStreamDescription) : MediaChanges :=
  -- the encryption change needs a stream restart for now
  .when (sd1.proto != sd2.proto) { codec := true } |||
    (List.finRange cryptoAlgoMax).foldl
      (fun result i => result ||| cryptoEquals sd1.crypto[i] sd2.crypto[i]) .unchanged |||
    .when (sd1.type != sd2.type) { codec := true } |||
    .when (sd1.rtpAddr != sd2.rtpAddr) { network := true } |||
    .when (xxxcastChanged lib sd1.rtpAddr sd2.rtpAddr) { networkXxxcast := true } |||
    .when (sd1.rtpPort != sd2.rtpPort)
      (if sd1.rtpPort = 0 ∨ sd2.rtpPort = 0 then { codec := true } else { network := true }) |||
    .when (sd1.rtcpAddr != sd2.rtcpAddr) { network := true } |||
    .when (sd1.rtcpPort != sd2.rtcpPort) { network := true } |||
    .when (!payloadListEquals sd1.payloads sd2.payloads) { codec := true } |||
    .when (sd1.bandwidth != sd2.bandwidth) { codec := true } |||
    .when (sd1.ptime != sd2.ptime) { codec := true } |||
    .when (sd1.dir != sd2.dir) { codec := true } |||
    -- DTLS
    .when (sd1.dtlsRole != sd2.dtlsRole) { cryptoKeys := true } |||
    .when (sd1.dtlsFingerprint != sd2.dtlsFingerprint) { cryptoKeys := true }

/-- `sal_media_description_equals`. The streams compared are those in use in the first one. -/
def salMediaDescriptionEquals (md1 md2 : SalMediaDescription) : MediaChanges :=
  .when (md1.addr != md2.addr) { network := true } |||
    .when (xxxcastChanged lib md1.addr md2.addr) { networkXxxcast := true } |||
    .when (md1.nbStreams != md2.nbStreams) { streams := true } |||
    .when (md1.bandwidth != md2.bandwidth) { codec := true } |||
    (List.range md1.nbStreams).foldl
      (fun result i => result ||| salStreamDescriptionEquals lib (md1.stream i) (md2.stream i))
      .unchanged

end

/-! ## Streams of a kind -/

namespace SalMediaDescription

variable (md : SalMediaDescription) (type : SalStreamType)

/-- `sal_media_description_find_secure_stream_of_type` -/
def findSecureStreamOfType : Option Nat :=
  md.findStream .rtpSavpf type <|> md.findStream .rtpSavp type

/-- `sal_media_description_find_best_stream` -/
def findBestStream : Option Nat :=
  md.findStream .udpTlsRtpSavpf type <|> md.findStream .udpTlsRtpSavp type <|>
    md.findSecureStreamOfType type <|> md.findStream .rtpAvpf type <|> md.findStream .rtpAvp type

theorem findStream_proto {md : SalMediaDescription} {proto : SalMediaProto} {type : SalStreamType}
    {k : Nat} (h : md.findStream proto type = some k) : (md.stream k).proto = proto :=
  (findStream_eq_some.mp h).1.2.1

/-- A best stream under SRTP is the secure stream of its type. -/
theorem findSecureStreamOfType_of_best {md : SalMediaDescription} {type : SalStreamType} {k : Nat}
    (h : md.findBestStream type = some k) (hs : (md.stream k).hasSrtp = true) :
    md.findSecureStreamOfType type = some k := by
  unfold findBestStream at h
  simp only [Option.orElse_eq_orElse, Option.orElse_eq_or, Option.or_eq_some_iff] at h
  rcases h with h | ⟨-, h | ⟨-, h | ⟨-, h | ⟨-, h⟩⟩⟩⟩
  · simp [SalStreamDescription.hasSrtp, findStream_proto h] at hs
  · simp [SalStreamDescription.hasSrtp, findStream_proto h] at hs
  · exact h
  · simp [SalStreamDescription.hasSrtp, findStream_proto h] at hs
  · simp [SalStreamDescription.hasSrtp, findStream_proto h] at hs

end SalMediaDescription

end Linphone
