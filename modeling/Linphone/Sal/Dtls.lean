import Linphone.Sal.Sdp

/-!
# Who opens the DTLS handshake

The `setup` and `fingerprint` attributes of `bellesip_sal/sal_sdp.c`: what
`sdp_to_media_description` takes from the session, what `sdp_to_stream_description` takes from
the m-line, and what `stream_description_to_sdp` writes. Together with `initiate_incoming` and
`initiate_outgoing` they are one exchange: an offer is read, answered, the answer written, read
and turned into the offerer's result.

Of the two ends of an accepted stream one has to be the client and the other the server.
`dtls_roles_complementary_iff` says for which offers they are.
-/

namespace Linphone

/-! ## Attributes -/

/-- An `a=` line. -/
structure SdpAttribute where
  name : String
  value : Option String := none
deriving DecidableEq

/-- `belle_sdp_media_description_get_attribute`: the first of that name. -/
def getAttribute (attributes : List SdpAttribute) (name : String) : Option SdpAttribute :=
  attributes.find? fun a => a.name == name

/-- `belle_sdp_session_description_get_attribute_value` -/
def getAttributeValue (attributes : List SdpAttribute) (name : String) : Option String :=
  (getAttribute attributes name).bind (·.value)

/-- `strncmp(value, s, strlen(s)) == 0` -/
def startsWith (value s : String) : Bool := s.toList.isPrefixOf value.toList

/-- The role a `setup` value stands for; any other value says nothing. -/
def setupRole (value : String) : Option SalDtlsRole :=
  if startsWith value "actpass" then some .unset
  else if startsWith value "active" then some .isClient
  else if startsWith value "passive" then some .isServer
  else none

/-! ## Reading -/

/-- The transport of an m-line in `sdp_to_stream_description`. -/
def readProto (protocol : String) : SalMediaProto :=
  if strcasecmp protocol "RTP/AVP" then .rtpAvp
  else if strcasecmp protocol "RTP/SAVP" then .rtpSavp
  else if strcasecmp protocol "RTP/AVPF" then .rtpAvpf
  else if strcasecmp protocol "RTP/SAVPF" then .rtpSavpf
  else if strcasecmp protocol "UDP/TLS/RTP/SAVP" then .udpTlsRtpSavp
  else if strcasecmp protocol "UDP/TLS/RTP/SAVPF" then .udpTlsRtpSavpf
  else .other

/-- What `sdp_to_media_description` puts into every stream before the m-lines are read. -/
def sessionDtls (session : List SdpAttribute) (stream : SalStreamDescription) :
    SalStreamDescription :=
  { stream with
    dtlsFingerprint := (getAttributeValue session "fingerprint").getD stream.dtlsFingerprint
    dtlsRole := ((getAttributeValue session "setup").bind setupRole).getD .invalid }

/-- The DTLS block of `sdp_to_stream_description`. -/
def mediaDtls (media : List SdpAttribute) (stream : SalStreamDescription) :
    SalStreamDescription :=
  if stream.hasDtls then
    let role := ((getAttributeValue media "setup").bind setupRole).getD stream.dtlsRole
    { stream with
      dtlsRole := role
      dtlsFingerprint :=
        match getAttribute media "fingerprint" with
        | some found => if role ≠ .invalid then found.value.getD "" else stream.dtlsFingerprint
        | none => stream.dtlsFingerprint }
  else stream

/-- The stream read from an m-line; `stream` is what the other lines make of it. -/
def sdpToStreamDescription (session : List SdpAttribute) (line : SdpMedia)
    (media : List SdpAttribute) (stream : SalStreamDescription) : SalStreamDescription :=
  mediaDtls media
    { sessionDtls session stream with rtpPort := line.port, proto := readProto line.protocol }

/-! ## Writing -/

/-- The `setup` value of a role. -/
def setupText : SalDtlsRole → String
  | .isClient => "active"
  | .isServer => "passive"
  | .unset | .invalid => "actpass"

/-- `htonl` on a little-endian machine. -/
def htonl (n : UInt32) : UInt32 :=
  let low : UInt32 := 0xff00
  (n <<< 24) ||| ((n &&& low) <<< 8) ||| ((n >>> 8) &&& low) ||| (n >>> 24)

/-- The DTLS block of `stream_description_to_sdp`. No other attribute it writes has one of these
names, and `media_description_to_sdp` writes none of them for the session. -/
def dtlsAttributes (stream : SalStreamDescription) : List SdpAttribute :=
  if stream.hasDtls then
    (if stream.dtlsRole ≠ .invalid ∧ stream.dtlsFingerprint ≠ "" then
      [{ name := "setup", value := some (setupText stream.dtlsRole) },
        { name := "fingerprint", value := some stream.dtlsFingerprint }]
    else []) ++
    [{ name := "ssrc"
       value := some (toString (htonl stream.rtpSsrc) ++ " cname:" ++ stream.rtcpCname) }]
  else []

/-! ## A written stream is read back -/

theorem readProto_salMediaProtoToString (proto : SalMediaProto) :
    readProto (salMediaProtoToString proto) = proto := by
  cases proto <;> decide

@[simp] theorem setupRole_actpass : setupRole "actpass" = some .unset := by decide

@[simp] theorem setupRole_active : setupRole "active" = some .isClient := by decide

@[simp] theorem setupRole_passive : setupRole "passive" = some .isServer := by decide

theorem setupRole_setupText {role : SalDtlsRole} (h : role ≠ .invalid) :
    setupRole (setupText role) = some role := by
  cases role with
  | invalid => exact absurd rfl h
  | isServer => exact setupRole_passive
  | isClient => exact setupRole_active
  | unset => exact setupRole_actpass

section

variable (stream rest : SalStreamDescription)

/-- A stream as the other end reads it. -/
def sdpReadBack : SalStreamDescription :=
  sdpToStreamDescription [] (streamDescriptionToSdp stream) (dtlsAttributes stream) rest

/-- What is read back, by what is written. -/
theorem sdpReadBack_eq (hproto : stream.hasDtls) :
    (sdpReadBack stream rest).dtlsRole =
        ((getAttributeValue (dtlsAttributes stream) "setup").bind setupRole).getD .invalid ∧
      ((sdpReadBack stream rest).dtlsRole ≠ .invalid →
        ∀ text, getAttribute (dtlsAttributes stream) "fingerprint" =
            some { name := "fingerprint", value := some text } →
          (sdpReadBack stream rest).dtlsFingerprint = text) := by
  have hread : SalStreamDescription.hasDtls
      { sessionDtls [] rest with
        rtpPort := (streamDescriptionToSdp stream).port
        proto := readProto (streamDescriptionToSdp stream).protocol } = true := by
    have h : readProto (streamDescriptionToSdp stream).protocol = stream.proto :=
      readProto_salMediaProtoToString stream.proto
    simpa only [SalStreamDescription.hasDtls, h] using hproto
  unfold sdpReadBack sdpToStreamDescription mediaDtls
  rw [if_pos hread]
  refine ⟨rfl, fun hrole text htext => ?_⟩
  simp only [htext]
  exact if_pos hrole

variable {stream}

/-- A stream with a role and a fingerprint is read back with both. -/
theorem sdpReadBack_dtls (hproto : stream.hasDtls) (hrole : stream.dtlsRole ≠ .invalid)
    (hprint : stream.dtlsFingerprint ≠ "") :
    (sdpReadBack stream rest).dtlsRole = stream.dtlsRole ∧
      (sdpReadBack stream rest).dtlsFingerprint = stream.dtlsFingerprint := by
  have hwritten : dtlsAttributes stream =
      [{ name := "setup", value := some (setupText stream.dtlsRole) },
        { name := "fingerprint", value := some stream.dtlsFingerprint },
        { name := "ssrc"
          value := some (toString (htonl stream.rtpSsrc) ++ " cname:" ++ stream.rtcpCname) }] := by
    simp only [dtlsAttributes, hproto, if_true, ne_eq, hrole, hprint, not_false_eq_true, and_self,
      List.cons_append, List.nil_append]
  obtain ⟨hreadRole, hreadPrint⟩ := sdpReadBack_eq stream rest hproto
  have hback : (sdpReadBack stream rest).dtlsRole = stream.dtlsRole := by
    rw [hreadRole, hwritten]
    simp [getAttributeValue, getAttribute, setupRole_setupText hrole]
  refine ⟨hback, hreadPrint (hback ▸ hrole) _ ?_⟩
  rw [hwritten]
  simp [getAttribute]

theorem sdpReadBack_dtlsRole_invalid (hproto : stream.hasDtls)
    (hrole : stream.dtlsRole = .invalid) :
    (sdpReadBack stream rest).dtlsRole = .invalid := by
  rw [(sdpReadBack_eq stream rest hproto).1]
  simp [dtlsAttributes, hproto, hrole, getAttributeValue, getAttribute]

end

/-! ## The two ends -/

variable (lib : MediaLib)

/-- A stream on a DTLS transport, with a role and a fingerprint. -/
structure UsesDtls (sd : SalStreamDescription) : Prop where
  proto : sd.hasDtls
  role : sd.dtlsRole ≠ .invalid
  fingerprint : sd.dtlsFingerprint ≠ ""

theorem bothDtls_iff {locals remote : SalStreamDescription} :
    bothDtls locals remote = true ↔
      (locals.dtlsRole ≠ .invalid ∧ locals.dtlsFingerprint ≠ "") ∧
        remote.dtlsRole ≠ .invalid ∧ remote.dtlsFingerprint ≠ "" := by
  simp only [bothDtls, Bool.and_eq_true, bne_iff_ne, ne_eq]
  tauto

/-- The role an accepted offer leaves the answerer with: the client when the offer leaves it
open, and none when the offer claims a role itself. -/
def answererRole (offered : SalDtlsRole) : SalDtlsRole :=
  if offered = .unset then .isClient else .invalid

/-- The role the offerer takes, by the one the answer announces. -/
def offererRole (answered : SalDtlsRole) : SalDtlsRole :=
  if answered = .isClient then .isServer else .isClient

section

variable (ls rs r : SalStreamDescription)

theorem selectCrypto_dtlsRole (locals remote : Vector SalSrtpCryptoAlgo cryptoAlgoMax)
    (useLocalKey : Bool) :
    (selectCrypto locals remote useLocalKey r).dtlsRole = r.dtlsRole := by
  unfold selectCrypto
  split
  · cases matchCryptoAlgo locals remote useLocalKey <;> rfl
  · rfl

theorem offeredDtls_of_both (hboth : bothDtls ls rs = true) (hr : r.dtlsRole = .invalid) :
    (offeredDtls ls rs r).dtlsRole = answererRole rs.dtlsRole ∧
      (offeredDtls ls rs r).dtlsFingerprint = ls.dtlsFingerprint := by
  unfold offeredDtls
  rw [if_pos hboth]
  refine ⟨?_, rfl⟩
  show (if rs.dtlsRole = .unset then SalDtlsRole.isClient else r.dtlsRole) = _
  rw [hr]
  rfl

theorem finishIncoming_dtls (hboth : bothDtls ls rs = true) (hr : r.dtlsRole = .invalid) :
    (finishIncoming ls rs r).dtlsRole = answererRole rs.dtlsRole ∧
      (finishIncoming ls rs r).dtlsFingerprint = ls.dtlsFingerprint := by
  unfold finishIncoming
  apply offeredDtls_of_both _ _ _ hboth
  show (selectCrypto ls.crypto rs.crypto true r).dtlsRole = .invalid
  rw [selectCrypto_dtlsRole, hr]

/-- **What an accepted offer says about DTLS in the answer.** -/
theorem initiateIncoming_dtls (one : Bool) (hboth : bothDtls ls rs = true)
    (haccept : (initiateIncoming lib ls rs {} one).2.rtpPort ≠ 0) :
    (initiateIncoming lib ls rs {} one).2.dtlsRole = answererRole rs.dtlsRole ∧
      (initiateIncoming lib ls rs {} one).2.dtlsFingerprint = ls.dtlsFingerprint := by
  unfold initiateIncoming at haccept ⊢
  dsimp only at haccept ⊢
  split
  · rename_i hreject
    rw [if_pos hreject] at haccept
    exact absurd rfl haccept
  · rename_i hreject
    rw [if_neg hreject] at haccept
    split
    · rename_i hmulticast
      rw [if_pos hmulticast] at haccept
      split
      · rename_i hsrtp
        rw [if_pos hsrtp] at haccept
        exact absurd rfl haccept
      · exact finishIncoming_dtls _ _ _ hboth rfl
    · exact finishIncoming_dtls _ _ _ hboth rfl

theorem answeredIdentity_dtlsRole :
    (answeredIdentity ls rs r).dtlsRole =
      if bothDtls ls rs then offererRole rs.dtlsRole else .invalid := by
  unfold answeredIdentity
  cases bothDtls ls rs <;> rfl

/-- **The role of the offerer of an accepted stream.** -/
theorem initiateOutgoing_dtlsRole (haccept : (initiateOutgoing lib ls rs {}).2.rtpPort ≠ 0) :
    (initiateOutgoing lib ls rs {}).2.dtlsRole =
      if bothDtls ls rs then offererRole rs.dtlsRole else .invalid := by
  unfold initiateOutgoing at haccept ⊢
  split
  · rename_i hport
    rw [if_pos hport] at haccept
    exact absurd rfl haccept
  · rename_i hport
    rw [if_neg hport] at haccept
    dsimp only at haccept ⊢
    split
    · rename_i hmulticast
      rw [if_pos hmulticast] at haccept
      split
      · rename_i hmismatch
        rw [if_pos hmismatch] at haccept
        exact absurd rfl haccept
      · exact answeredIdentity_dtlsRole ..
    · exact answeredIdentity_dtlsRole ..

end

/-! ## The exchange -/

/-- One end is the client and the other the server. -/
def Complementary (a b : SalDtlsRole) : Prop :=
  a = .isClient ∧ b = .isServer ∨ a = .isServer ∧ b = .isClient

/-- The `setup` attribute of an answer says what its sender is going to be. -/
def AnnouncesRole (answer : SalStreamDescription) : Prop :=
  (getAttributeValue (dtlsAttributes answer) "setup").bind setupRole = some answer.dtlsRole

/-- The answer to an offered stream. -/
def answerStream (cap offered : SalStreamDescription) (one : Bool) : SalStreamDescription :=
  (initiateIncoming lib cap offered {} one).2

/-- What the offerer runs the stream with once it has read `answer`. -/
def offererStream (offer answer rest : SalStreamDescription) : SalStreamDescription :=
  (initiateOutgoing lib offer (sdpReadBack answer rest) {}).2

theorem complementary_roles {offered : SalDtlsRole} :
    Complementary (answererRole offered)
        (if answererRole offered = .invalid then .invalid
        else offererRole (answererRole offered)) ↔ offered = .unset := by
  cases offered <;> simp [Complementary, answererRole, offererRole]

theorem answerStream_proto (cap offered : SalStreamDescription) (one : Bool) :
    (answerStream lib cap offered one).proto = offered.proto := by
  have h := initiateIncoming_mline lib cap offered {} one
  exact (Prod.mk.injEq ..).mp h |>.1

section

variable (session media : List SdpAttribute) (line : SdpMedia)
  (other cap offer rest : SalStreamDescription) (one : Bool)

/-- **The roles of an accepted stream are complementary, and the answer announces the answerer's,
exactly when the offer left its own role open.** The offer is any SDP, its attributes given for
the session, for the m-line or for both. -/
theorem dtls_roles_complementary_iff
    (hoffered : UsesDtls (sdpToStreamDescription session line media other))
    (hcap : UsesDtls cap) (hoffer : UsesDtls offer)
    (haccepted : (answerStream lib cap (sdpToStreamDescription session line media other)
      one).rtpPort ≠ 0)
    (hrunning : (offererStream lib offer
      (answerStream lib cap (sdpToStreamDescription session line media other) one)
      rest).rtpPort ≠ 0) :
    (Complementary
        (answerStream lib cap (sdpToStreamDescription session line media other) one).dtlsRole
        (offererStream lib offer
          (answerStream lib cap (sdpToStreamDescription session line media other) one)
          rest).dtlsRole ∧
      AnnouncesRole
        (answerStream lib cap (sdpToStreamDescription session line media other) one)) ↔
      (sdpToStreamDescription session line media other).dtlsRole = .unset := by
  generalize sdpToStreamDescription session line media other = offered at *
  have hboth : bothDtls cap offered = true :=
    bothDtls_iff.mpr ⟨⟨hcap.role, hcap.fingerprint⟩, hoffered.role, hoffered.fingerprint⟩
  obtain ⟨hrole, hprint⟩ := initiateIncoming_dtls lib cap offered one hboth haccepted
  have hproto : (answerStream lib cap offered one).hasDtls := by
    simpa only [SalStreamDescription.hasDtls, answerStream_proto] using hoffered.proto
  change (answerStream lib cap offered one).dtlsRole = _ at hrole
  change (answerStream lib cap offered one).dtlsFingerprint = _ at hprint
  have hresult := initiateOutgoing_dtlsRole lib offer _ hrunning
  change (offererStream lib offer (answerStream lib cap offered one) rest).dtlsRole = _ at hresult
  generalize answerStream lib cap offered one = answer at *
  have hoffererRole : (offererStream lib offer answer rest).dtlsRole =
      if answererRole offered.dtlsRole = .invalid then .invalid
      else offererRole (answererRole offered.dtlsRole) := by
    rw [hresult]
    by_cases hnone : answer.dtlsRole = .invalid
    · have hread := sdpReadBack_dtlsRole_invalid rest hproto hnone
      rw [← hrole, if_pos hnone, if_neg]
      simp [bothDtls, hread]
    · obtain ⟨hread, hreadPrint⟩ :=
        sdpReadBack_dtls rest hproto hnone (hprint ▸ hcap.fingerprint)
      rw [← hrole, if_neg hnone, hread, if_pos]
      refine bothDtls_iff.mpr ⟨⟨hoffer.role, hoffer.fingerprint⟩, hread ▸ hnone, ?_⟩
      rw [hreadPrint, hprint]
      exact hcap.fingerprint
  rw [hoffererRole, hrole, complementary_roles]
  constructor
  · intro h
    exact h.1
  · intro hunset
    refine ⟨hunset, ?_⟩
    have hnone : answer.dtlsRole ≠ .invalid := by
      rw [hrole, hunset]
      decide
    unfold AnnouncesRole
    simp only [getAttributeValue, getAttribute, dtlsAttributes, hproto, if_true, ne_eq, hnone,
      not_false_eq_true, hprint, hcap.fingerprint, and_self, List.cons_append, List.find?_cons,
      beq_self_eq_true, Option.bind_some, setupRole_setupText hnone]

end

/-- An audio stream secured by DTLS. -/
def dtlsAudio (role : SalDtlsRole) : SalStreamDescription :=
  { plainStream .audio .udpTlsRtpSavp 7078 "PCMU" with
    dtlsRole := role, dtlsFingerprint := "sha-1 4A:AD:B9" }

/-- The session-level attributes of an offer. -/
def sessionSetup (role : SalDtlsRole) : List SdpAttribute :=
  [{ name := "setup", value := some (setupText role) },
    { name := "fingerprint", value := some "sha-1 4A:AD:B9" }]

/-- The stream that the other end reads. -/
def dtlsAudioOffered (role : SalDtlsRole) : SalStreamDescription :=
  sdpToStreamDescription (sessionSetup role) (streamDescriptionToSdp (dtlsAudio role)) []
    (plainStream .audio .rtpAvp 0 "PCMU")

theorem dtls_roles_complementary_open :
    Complementary (answerStream plainLib (dtlsAudio .unset) (dtlsAudioOffered .unset)
        false).dtlsRole
      (offererStream plainLib (dtlsAudio .unset)
        (answerStream plainLib (dtlsAudio .unset) (dtlsAudioOffered .unset) false)
        (plainStream .audio .rtpAvp 0 "PCMU")).dtlsRole :=
  ((dtls_roles_complementary_iff plainLib (sessionSetup .unset) []
    (streamDescriptionToSdp (dtlsAudio .unset)) (plainStream .audio .rtpAvp 0 "PCMU")
    (dtlsAudio .unset) (dtlsAudio .unset) (plainStream .audio .rtpAvp 0 "PCMU") false
    ⟨by decide, by decide, by decide⟩ ⟨by decide, by decide, by decide⟩
    ⟨by decide, by decide, by decide⟩ (by decide) (by decide)).mpr (by decide)).1

/-- The offerer wants to be the client. Both ends accept the stream and neither gets a role. -/
theorem active_offer_without_roles :
    UsesDtls (dtlsAudioOffered .isClient) ∧ UsesDtls (dtlsAudio .unset) ∧
      UsesDtls (dtlsAudio .isClient) ∧
      (answerStream plainLib (dtlsAudio .unset) (dtlsAudioOffered .isClient)
        false).rtpPort ≠ 0 ∧
      (offererStream plainLib (dtlsAudio .isClient)
        (answerStream plainLib (dtlsAudio .unset) (dtlsAudioOffered .isClient) false)
        (plainStream .audio .rtpAvp 0 "PCMU")).rtpPort ≠ 0 ∧
      (answerStream plainLib (dtlsAudio .unset) (dtlsAudioOffered .isClient)
        false).dtlsRole = .invalid ∧
      (offererStream plainLib (dtlsAudio .isClient)
        (answerStream plainLib (dtlsAudio .unset) (dtlsAudioOffered .isClient) false)
        (plainStream .audio .rtpAvp 0 "PCMU")).dtlsRole = .invalid ∧
      ¬Complementary
        (answerStream plainLib (dtlsAudio .unset) (dtlsAudioOffered .isClient) false).dtlsRole
        (offererStream plainLib (dtlsAudio .isClient)
          (answerStream plainLib (dtlsAudio .unset) (dtlsAudioOffered .isClient) false)
          (plainStream .audio .rtpAvp 0 "PCMU")).dtlsRole :=
  ⟨⟨by decide, by decide, by decide⟩, ⟨by decide, by decide, by decide⟩,
    ⟨by decide, by decide, by decide⟩, by decide, by decide, by decide, by decide,
    fun h => h.elim (fun h => absurd h.1 (by decide)) (fun h => absurd h.1 (by decide))⟩

end Linphone
