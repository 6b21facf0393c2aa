import Linphone.Call.Core

/-!
# The local description of a call

`linphone_call_make_local_media_description` (`coreapi/linphonecall.c`) builds the description a
call offers: the transport of its streams follows from the parameters
(`get_proto_from_call_params`), secured streams get SDES keys, new ones or those of the description
before, and streams with DTLS the fingerprint of the call. Addresses, ports and codecs are given;
they are the ones that STUN and ICE leave.

`localMediaDescription_describes`: whatever the description before it, as long as that one follows
from the configured suites, a description offers what the parameters of the call say.
-/

namespace Linphone

/-! ## The transport -/

/-- `get_proto_from_call_params` -/
def getProtoFromCallParams (encryption : LinphoneMediaEncryption) (avpfEnabled : Bool) :
    SalMediaProto :=
  if encryption = .srtp ∧ avpfEnabled then .rtpSavpf
  else if encryption = .srtp then .rtpSavp
  else if encryption = .dtls ∧ avpfEnabled then .udpTlsRtpSavpf
  else if encryption = .dtls then .udpTlsRtpSavp
  else if avpfEnabled then .rtpAvpf
  else .rtpAvp

/-- What a transport offers: encrypted media, and feedback. -/
def SalMediaProto.features : SalMediaProto → Bool × Bool
  | .rtpAvp | .other => (false, false)
  | .rtpAvpf => (false, true)
  | .rtpSavp | .udpTlsRtpSavp => (true, false)
  | .rtpSavpf | .udpTlsRtpSavpf => (true, true)

theorem features_getProto (encryption : LinphoneMediaEncryption) (avpfEnabled : Bool) :
    (getProtoFromCallParams encryption avpfEnabled).features =
      (decide (encryption = .srtp ∨ encryption = .dtls), avpfEnabled) := by
  cases encryption <;> cases avpfEnabled <;> rfl

/-! ## Keys -/

/-- `setup_encryption_key`, when a key was generated for the suite, or not. -/
def setupEncryptionKey (suite : MSCryptoSuite) (tag : UInt32) (key : Option String) :
    SalSrtpCryptoAlgo :=
  match suite, key with
  | .invalid, _ | _, none => { tag := tag, algo := .invalid }
  | suite, some key => { tag := tag, algo := suite, masterKey := key }

/-- What the configuration and the call give for a stream. -/
structure StreamSettings where
  name : String := ""
  rtpAddr : String := ""
  rtcpAddr : String := ""
  rtpPort : Int := 0
  rtcpPort : Int := 0
  dir : SalStreamDir := .sendRecv
  ptime : Int := 0
  payloads : List PayloadType := []
  rtpSsrc : UInt32 := 0
  rtcpCname : String := ""
  ttl : Int := 0
  multicastRole : SalMulticastRole := .inactive

/-- What else a local description is built from. -/
structure LocalEnv where
  name : String := ""
  addr : String := ""
  username : String := ""
  bandwidth : Int := 0
  /-- The numbers of a first description. -/
  sessionId : UInt32 := 0
  sessionVer : UInt32 := 0
  audio : StreamSettings
  /-- Video is asked for, and was not declined. -/
  video : Option StreamSettings := none
  /-- The codecs of streams that are not used. -/
  unused : List PayloadType := []
  /-- `keep_srtp_keys` -/
  keepSrtpKeys : Bool := true
  /-- `linphone_core_get_srtp_crypto_suites`, up to its end. -/
  cryptoSuites : List MSCryptoSuite := []
  /-- `generate_b64_crypto_key`, for an entry of a stream. -/
  generateKey : Nat → Nat → Option String := fun _ _ => some ""
  dtlsCertificateFingerprint : String := ""
  avpfRrInterval : UInt16 := 0
  rtcpXr : OrtpRtcpXrConfiguration := {}

namespace LocalEnv

variable (env : LocalEnv) (d : CallData)

/-- The description before, `NULL` at first. -/
def oldMd : Option SalMediaDescription := if d.hasLocaldesc then some d.media.localdesc else none

def proto : SalMediaProto := getProtoFromCallParams d.mediaEncryption d.avpfEnabled

def nbActiveStreams : Nat := if env.video.isSome then 2 else 1

def nbStreams : Nat := max ((d.media.biggestdesc.map (·.nbStreams)).getD 1) env.nbActiveStreams

theorem nbStreams_le : env.nbStreams d ≤ maxStreams := by
  have hactive : env.nbActiveStreams ≤ maxStreams := by
    unfold nbActiveStreams
    split <;> decide
  have hbiggest : (d.media.biggestdesc.map (·.nbStreams)).getD 1 ≤ maxStreams := by
    cases d.media.biggestdesc with
    | none => decide
    | some md => exact md.nb_le
  exact Nat.max_le.mpr ⟨hbiggest, hactive⟩

/-- A stream that is offered. -/
def offered (type : SalStreamType) (settings : StreamSettings) : SalStreamDescription where
  name := settings.name
  proto := proto d
  type := type
  rtpAddr := settings.rtpAddr
  rtcpAddr := settings.rtcpAddr
  rtpSsrc := settings.rtpSsrc
  rtcpCname := settings.rtcpCname
  rtpPort := settings.rtpPort
  rtcpPort := settings.rtcpPort
  payloads := settings.payloads
  ptime := settings.ptime
  dir := settings.dir
  ttl := settings.ttl
  multicastRole := settings.multicastRole

/-- A stream of the past that is not. -/
def deactivated (old : SalStreamDescription) : SalStreamDescription where
  proto := old.proto
  type := old.type
  dir := .inactive
  payloads := env.unused

/-- The streams before keys are set up. -/
def streamAt (i : Nat) : SalStreamDescription :=
  if i = 0 then offered d .audio env.audio
  else match env.video with
    | some video => if i = 1 then offered d .video video else rest
    | none => rest
where
  rest : SalStreamDescription :=
    if i < env.nbStreams d then env.deactivated ((d.media.biggestdesc.getD .new).stream i)
    else default

/-- `setup_encryption_keys`, for one stream. -/
def setupEncryptionKeys (i : Nat) (s : SalStreamDescription) : SalStreamDescription :=
  if s.hasSrtp then
    { s with
      crypto :=
        match (oldMd d).filter fun old =>
            env.keepSrtpKeys && (old.stream i).active && (old.stream i).hasSrtp with
        | some old => (old.stream i).crypto -- keeping same crypto keys
        | none => Vector.ofFn fun j =>
            match env.cryptoSuites[j.val]? with
            | some suite => setupEncryptionKey suite (.ofNat (j + 1)) (env.generateKey i j)
            | none => getElem s.crypto j j.isLt }
  else s

/-- `setup_dtls_keys`, for one stream. -/
def setupDtlsKeys (s : SalStreamDescription) : SalStreamDescription :=
  if s.hasDtls then { s with dtlsFingerprint := env.dtlsCertificateFingerprint, dtlsRole := .unset }
  else { s with dtlsFingerprint := "", dtlsRole := .invalid }

/-- `setup_rtcp_fb`, for one stream. -/
def setupRtcpFb (s : SalStreamDescription) : SalStreamDescription :=
  { s with
    payloads := s.payloads.map fun pt =>
      { pt with
        flags := { pt.flags with rtcpFeedbackEnabled := d.avpfEnabled }
        avpf := if d.avpfEnabled then { pt.avpf with trrInterval := env.avpfRrInterval } else {} } }

/-- What the loops over the active streams set up. -/
def setup (i : Nat) (s : SalStreamDescription) : SalStreamDescription :=
  if s.active then
    { env.setupRtcpFb d (env.setupDtlsKeys (env.setupEncryptionKeys d i s)) with
      rtcpXr := env.rtcpXr }
  else s

end LocalEnv

/-- The description of `linphone_call_make_local_media_description`. -/
def localMediaDescription (env : LocalEnv) (d : CallData) : SalMediaDescription where
  name := env.name
  addr := env.addr
  username := env.username
  nbStreams := env.nbStreams d
  bandwidth := env.bandwidth
  sessionVer := ((LocalEnv.oldMd d).map (·.sessionVer + 1)).getD env.sessionVer
  sessionId := ((LocalEnv.oldMd d).map (·.sessionId)).getD env.sessionId
  streams := Vector.ofFn fun i => env.setup d i (env.streamAt d i)
  rtcpXr := env.rtcpXr
  nb_le := env.nbStreams_le d

/-! ## What is offered -/

/-- A crypto list that was set up for the suites, one entry each, in their order. -/
def FollowsSuites (suites : List MSCryptoSuite)
    (crypto : Vector SalSrtpCryptoAlgo cryptoAlgoMax) : Prop :=
  ∀ j : Fin cryptoAlgoMax, match suites[j.val]? with
    | some suite => ∃ key,
        getElem crypto j j.isLt = setupEncryptionKey suite (.ofNat (j + 1)) key
    | none => getElem crypto j j.isLt = {}

/-- A stream offers what parameters say: their transport, with keys for the suites under SRTP and
none otherwise, and a role under DTLS alone. -/
structure Describes (suites : List MSCryptoSuite) (encryption : LinphoneMediaEncryption)
    (avpfEnabled : Bool) (s : SalStreamDescription) : Prop where
  proto : s.proto = getProtoFromCallParams encryption avpfEnabled
  keys : encryption = .srtp → FollowsSuites suites s.crypto
  noKeys : encryption ≠ .srtp → s.crypto = Vector.replicate _ {}
  role : s.dtlsRole = if encryption = .dtls then .unset else .invalid

/-- So do all active streams of a description. -/
def Offers (suites : List MSCryptoSuite) (encryption : LinphoneMediaEncryption)
    (avpfEnabled : Bool) (md : SalMediaDescription) : Prop :=
  ∀ i, (md.stream i).active = true → Describes suites encryption avpfEnabled (md.stream i)

/-- The keys of a description are for the suites. -/
def KeysFollow (suites : List MSCryptoSuite) (md : SalMediaDescription) : Prop :=
  ∀ i, (md.stream i).active = true → (md.stream i).hasSrtp = true →
    FollowsSuites suites (md.stream i).crypto

section offers

variable {suites : List MSCryptoSuite} {encryption : LinphoneMediaEncryption} {avpfEnabled : Bool}

theorem hasSrtp_iff {s : SalStreamDescription}
    (h : s.proto = getProtoFromCallParams encryption avpfEnabled) :
    s.hasSrtp = true ↔ encryption = .srtp := by
  unfold SalStreamDescription.hasSrtp
  rw [h]
  cases encryption <;> cases avpfEnabled <;> decide

theorem hasDtls_iff {s : SalStreamDescription}
    (h : s.proto = getProtoFromCallParams encryption avpfEnabled) :
    s.hasDtls = true ↔ encryption = .dtls := by
  unfold SalStreamDescription.hasDtls
  rw [h]
  cases encryption <;> cases avpfEnabled <;> decide

theorem Offers.keysFollow {md : SalMediaDescription} (h : Offers suites encryption avpfEnabled md) :
    KeysFollow suites md := by
  intro i hactive hsrtp
  have hi := h i hactive
  exact hi.keys ((hasSrtp_iff hi.proto).mp hsrtp)

theorem followsSuites_fresh (suites : List MSCryptoSuite) (key : Nat → Option String) :
    FollowsSuites suites (Vector.ofFn fun j : Fin cryptoAlgoMax =>
      match suites[j.val]? with
      | some suite => setupEncryptionKey suite (.ofNat (j + 1)) (key j)
      | none => {}) := by
  intro j
  cases hs : suites[j.val]? with
  | none => simp [hs]
  | some suite => exact ⟨key j, by simp [hs]⟩

end offers

namespace LocalEnv

variable {env : LocalEnv} {d : CallData}

/-- The streams that are active before keys are set up have the transport of the parameters, and no
keys. -/
theorem streamAt_active {i : Nat} (h : (env.streamAt d i).active = true) :
    (env.streamAt d i).proto = proto d ∧
      (env.streamAt d i).crypto = Vector.replicate _ {} := by
  have hrest : (streamAt.rest env d i).active = false := by
    unfold streamAt.rest
    split <;> rfl
  unfold streamAt at h ⊢
  split
  · exact ⟨rfl, rfl⟩
  · rename_i hi
    rw [if_neg hi] at h
    cases hv : env.video with
    | none =>
        rw [hv] at h
        exact absurd h (by simp [hrest])
    | some video =>
        rw [hv] at h
        by_cases hone : i = 1
        · simp only [if_pos hone]
          exact ⟨rfl, rfl⟩
        · simp only [if_neg hone] at h
          exact absurd h (by simp [hrest])

theorem setupEncryptionKeys_rtpPort (i : Nat) (s : SalStreamDescription) :
    (env.setupEncryptionKeys d i s).rtpPort = s.rtpPort := by
  unfold setupEncryptionKeys
  split <;> rfl

theorem setupEncryptionKeys_proto (i : Nat) (s : SalStreamDescription) :
    (env.setupEncryptionKeys d i s).proto = s.proto := by
  unfold setupEncryptionKeys
  split <;> rfl

theorem setupDtlsKeys_rtpPort (s : SalStreamDescription) :
    (env.setupDtlsKeys s).rtpPort = s.rtpPort := by
  unfold setupDtlsKeys
  split <;> rfl

theorem setupDtlsKeys_proto (s : SalStreamDescription) :
    (env.setupDtlsKeys s).proto = s.proto := by
  unfold setupDtlsKeys
  split <;> rfl

theorem setupDtlsKeys_crypto (s : SalStreamDescription) :
    (env.setupDtlsKeys s).crypto = s.crypto := by
  unfold setupDtlsKeys
  split <;> rfl

theorem setup_active (i : Nat) (s : SalStreamDescription) :
    (env.setup d i s).active = s.active := by
  unfold setup
  split
  · unfold SalStreamDescription.active setupRtcpFb
    rw [setupDtlsKeys_rtpPort, setupEncryptionKeys_rtpPort]
  · rfl

/-- The keys of a stream with SRTP are those of the description before, or fresh ones. -/
theorem setupEncryptionKeys_follows {suites : List MSCryptoSuite} {i : Nat}
    {s : SalStreamDescription} (hsuites : env.cryptoSuites = suites)
    (hold : ∀ old ∈ oldMd d, KeysFollow suites old) (hsrtp : s.hasSrtp = true)
    (hnew : s.crypto = Vector.replicate _ {}) :
    FollowsSuites suites (env.setupEncryptionKeys d i s).crypto := by
  unfold setupEncryptionKeys
  rw [if_pos hsrtp]
  cases hkept : (oldMd d).filter fun old =>
      env.keepSrtpKeys && (old.stream i).active && (old.stream i).hasSrtp with
  | some old =>
      obtain ⟨hmem, hkeep⟩ := Option.filter_eq_some_iff.mp hkept
      simp only [Bool.and_eq_true] at hkeep
      exact hold old hmem i hkeep.1.2 hkeep.2
  | none =>
      subst hsuites
      have hfresh := followsSuites_fresh env.cryptoSuites (env.generateKey i)
      simp only [hnew, Fin.getElem_fin, Vector.getElem_replicate]
      exact hfresh

theorem setup_proto {i : Nat} {s : SalStreamDescription} (hactive : s.active = true) :
    (env.setup d i s).proto = s.proto := by
  have hsetup : env.setup d i s =
      { env.setupRtcpFb d (env.setupDtlsKeys (env.setupEncryptionKeys d i s)) with
        rtcpXr := env.rtcpXr } := if_pos hactive
  rw [hsetup]
  exact (env.setupDtlsKeys_proto _).trans (env.setupEncryptionKeys_proto i s)

theorem setup_hasSrtp {i : Nat} {s : SalStreamDescription} (hactive : s.active = true) :
    (env.setup d i s).hasSrtp = s.hasSrtp := by
  rw [SalStreamDescription.hasSrtp, SalStreamDescription.hasSrtp, setup_proto hactive]

theorem setup_crypto {i : Nat} {s : SalStreamDescription} (hactive : s.active = true) :
    (env.setup d i s).crypto = (env.setupEncryptionKeys d i s).crypto := by
  have hsetup : env.setup d i s =
      { env.setupRtcpFb d (env.setupDtlsKeys (env.setupEncryptionKeys d i s)) with
        rtcpXr := env.rtcpXr } := if_pos hactive
  rw [hsetup]
  exact env.setupDtlsKeys_crypto _

/-- An active stream offers what the parameters say, after the keys are set up. -/
theorem setup_describes {suites : List MSCryptoSuite} {i : Nat} {s : SalStreamDescription}
    (hsuites : env.cryptoSuites = suites)
    (hold : d.mediaEncryption = .srtp → ∀ old ∈ oldMd d, KeysFollow suites old)
    (hproto : s.proto = proto d) (hnew : s.crypto = Vector.replicate _ {})
    (hactive : s.active = true) :
    Describes suites d.mediaEncryption d.avpfEnabled (env.setup d i s) := by
  have hsetup : env.setup d i s =
      { env.setupRtcpFb d (env.setupDtlsKeys (env.setupEncryptionKeys d i s)) with
        rtcpXr := env.rtcpXr } := if_pos hactive
  have hkeyed : (env.setupEncryptionKeys d i s).proto =
      getProtoFromCallParams d.mediaEncryption d.avpfEnabled :=
    (env.setupEncryptionKeys_proto i s).trans hproto
  refine ⟨(setup_proto hactive).trans hproto, ?_, ?_, ?_⟩
  · intro hsrtp
    rw [setup_crypto hactive]
    exact setupEncryptionKeys_follows hsuites (hold hsrtp) ((hasSrtp_iff hproto).mpr hsrtp) hnew
  · intro hsrtp
    rw [setup_crypto hactive]
    unfold setupEncryptionKeys
    rw [if_neg (fun h => hsrtp ((hasSrtp_iff hproto).mp h))]
    exact hnew
  · rw [hsetup]
    unfold setupRtcpFb setupDtlsKeys
    by_cases hdtls : d.mediaEncryption = .dtls
    · rw [if_pos ((hasDtls_iff hkeyed).mpr hdtls), if_pos hdtls]
    · rw [if_neg (fun h => hdtls ((hasDtls_iff hkeyed).mp h)), if_neg hdtls]

end LocalEnv

theorem stream_localMediaDescription (env : LocalEnv) (d : CallData) (i : Nat) :
    (localMediaDescription env d).stream i =
      if i < maxStreams then env.setup d i (env.streamAt d i) else default := by
  unfold SalMediaDescription.stream localMediaDescription
  by_cases hi : i < maxStreams
  · simp [hi]
  · simp [hi]

/-- **What a call offers is what its parameters say**, when the keys it may keep are for the
configured suites. -/
theorem localMediaDescription_describes {suites : List MSCryptoSuite} {env : LocalEnv}
    {d : CallData} (hsuites : env.cryptoSuites = suites)
    (hold : d.mediaEncryption = .srtp → ∀ old ∈ LocalEnv.oldMd d, KeysFollow suites old) :
    Offers suites d.mediaEncryption d.avpfEnabled (localMediaDescription env d) := by
  intro i hactive
  have hstream := stream_localMediaDescription env d i
  by_cases hi : i < maxStreams
  · rw [hstream, if_pos hi] at hactive ⊢
    have hraw : (env.streamAt d i).active = true := by
      rw [← LocalEnv.setup_active]
      exact hactive
    obtain ⟨hproto, hnew⟩ := LocalEnv.streamAt_active hraw
    exact LocalEnv.setup_describes hsuites hold hproto hnew hraw
  · rw [hstream, if_neg hi] at hactive
    exact Bool.noConfusion hactive

end Linphone
