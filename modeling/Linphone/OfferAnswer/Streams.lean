import Linphone.OfferAnswer.Payloads

/-!
# Negotiating one stream

The per-stream half of `coreapi/offeranswer.c`: the choice of an SRTP suite, the two direction
tables, `initiate_outgoing` (the offerer reading an answer) and `initiate_incoming` (the
answerer reading an offer). Both write into a result stream that is passed in, and both leave
fields alone on their early returns; that is what the callers' bookkeeping depends on, so the
result is a parameter here too.

`acceptable` says in terms of the two inputs when an offered stream is accepted.
-/

namespace Linphone

/-! ## SRTP suites -/

/-- The loops of `match_crypto_algo`: the first remote suite that is a local one too, with the
first local entry for it. The remote list ends at its first empty entry. -/
def matchCryptoAlgoFrom (locals : List SalSrtpCryptoAlgo) :
    List SalSrtpCryptoAlgo → Option (SalSrtpCryptoAlgo × SalSrtpCryptoAlgo)
  | [] => none
  | r :: remote =>
      if r.algo = .invalid then none
      else
        match locals.find? fun l => r.algo == l.algo with
        | some l => some (r, l)
        | none => matchCryptoAlgoFrom locals remote

/-- `match_crypto_algo`: the entry for the result, and the chosen local tag. -/
def matchCryptoAlgo (locals remote : Vector SalSrtpCryptoAlgo cryptoAlgoMax)
    (useLocalKey : Bool) : Option (SalSrtpCryptoAlgo × UInt32) :=
  (matchCryptoAlgoFrom locals.toList remote.toList).map fun (r, l) =>
    -- answering: our key under the remote tag; reading an answer: the remote key under our tag
    if useLocalKey then ({ algo := r.algo, masterKey := l.masterKey, tag := r.tag }, l.tag)
    else ({ algo := r.algo, masterKey := r.masterKey, tag := l.tag }, l.tag)

/-- The `sal_stream_description_has_srtp` block both functions share. -/
def selectCrypto (locals remote : Vector SalSrtpCryptoAlgo cryptoAlgoMax) (useLocalKey : Bool)
    (result : SalStreamDescription) : SalStreamDescription :=
  if result.hasSrtp then
    let result := { result with crypto := Vector.replicate cryptoAlgoMax {} }
    match matchCryptoAlgo locals remote useLocalKey with
    | some (c, tag) => { result with crypto := result.crypto.set 0 c, cryptoLocalTag := tag }
    | none => { result with rtpPort := 0 }
  else result

/-! ## Directions -/

/-- `compute_dir_outgoing` -/
def computeDirOutgoing (locals answered : SalStreamDir) : SalStreamDir :=
  if answered = .inactive then .inactive
  else if locals = .sendRecv then
    match answered with
    | .recvOnly => .sendOnly
    | .sendOnly => .recvOnly
    | _ => locals
  else locals

/-- `compute_dir_incoming` -/
def computeDirIncoming (locals offered : SalStreamDir) : SalStreamDir :=
  match locals with
  | .sendRecv =>
      match offered with
      | .sendOnly => .recvOnly
      | .recvOnly => .sendOnly
      | .inactive => .inactive
      | .sendRecv => .sendRecv
  | .sendOnly => if offered = .recvOnly ∨ offered = .sendRecv then .sendOnly else .inactive
  | .recvOnly => if offered = .sendOnly ∨ offered = .sendRecv then .recvOnly else .inactive
  | .inactive => .inactive

/-! ## The offerer: `initiate_outgoing` -/

variable (lib : MediaLib)

/-- A stream on a multicast address. -/
def SalStreamDescription.isMulticast (sd : SalStreamDescription) : Bool :=
  sd.rtpAddr != "" && lib.isMulticast sd.rtpAddr

/-- The checks of a multicast answer against the offer; the first that fails rejects it. -/
def multicastMismatch (localOffer remoteAnswer : SalStreamDescription) : Bool :=
  localOffer.rtpAddr != remoteAnswer.rtpAddr ||
  localOffer.rtpPort != remoteAnswer.rtpPort ||
  localOffer.dir != remoteAnswer.dir ||
  localOffer.bandwidth != remoteAnswer.bandwidth ||
  (localOffer.ptime > 0 && localOffer.ptime != remoteAnswer.ptime) ||
  (localOffer.ttl > 0 && localOffer.ttl != remoteAnswer.ttl)

/-- Both ends have a DTLS role and a fingerprint. -/
def bothDtls (locals remote : SalStreamDescription) : Bool :=
  locals.dtlsRole != .invalid && remote.dtlsRole != .invalid &&
    locals.dtlsFingerprint != "" && remote.dtlsFingerprint != ""

/-- The payload list decides whether the answered transport is taken over. -/
def answeredTransport (remoteAnswer result : SalStreamDescription) : SalStreamDescription :=
  if !result.payloads.isEmpty && !onlyTelephoneEvent result.payloads then
    { result with
      rtpAddr := remoteAnswer.rtpAddr, rtcpAddr := remoteAnswer.rtcpAddr
      rtpPort := remoteAnswer.rtpPort, rtcpPort := remoteAnswer.rtcpPort
      bandwidth := remoteAnswer.bandwidth, ptime := remoteAnswer.ptime }
  else { result with rtpPort := 0 }

/-- The end of `initiate_outgoing`: our SSRC and CNAME, and for DTLS the remote fingerprint and
the opposite role. -/
def answeredIdentity (localOffer remoteAnswer result : SalStreamDescription) :
    SalStreamDescription :=
  let result := { result with rtpSsrc := localOffer.rtpSsrc, rtcpCname := localOffer.rtcpCname }
  if bothDtls localOffer remoteAnswer then
    { result with
      dtlsFingerprint := remoteAnswer.dtlsFingerprint
      dtlsRole := if remoteAnswer.dtlsRole = .isClient then .isServer else .isClient }
  else { result with dtlsFingerprint := "", dtlsRole := .invalid }

/-- `initiate_outgoing` from the test of the payload list on. -/
def finishOutgoing (localOffer remoteAnswer result : SalStreamDescription) :
    SalStreamDescription :=
  answeredIdentity localOffer remoteAnswer
    (selectCrypto localOffer.crypto remoteAnswer.crypto false
      (answeredTransport remoteAnswer result))

/-- `initiate_outgoing`: `local_offer->payloads` after the call, and the result. -/
def initiateOutgoing (localOffer remoteAnswer result : SalStreamDescription) :
    List PayloadType × SalStreamDescription :=
  if remoteAnswer.rtpPort = 0 then (localOffer.payloads, { result with rtpPort := 0 })
  else
    let m := matchPayloads lib localOffer.payloads remoteAnswer.payloads true false
    let result :=
      { result with payloads := m.2, proto := remoteAnswer.proto, type := localOffer.type }
    if localOffer.isMulticast lib then
      if multicastMismatch localOffer remoteAnswer then (m.1, { result with rtpPort := 0 })
      else
        (m.1, finishOutgoing localOffer remoteAnswer
          { result with ttl := localOffer.ttl, dir := localOffer.dir, multicastRole := .sender })
    else
      (m.1, finishOutgoing localOffer remoteAnswer
        { result with dir := computeDirOutgoing localOffer.dir remoteAnswer.dir })

/-! ## The answerer: `initiate_incoming` -/

/-- The DTLS block of `initiate_incoming`: our fingerprint, as client if the role is open. -/
def offeredDtls (localCap remoteOffer result : SalStreamDescription) : SalStreamDescription :=
  if bothDtls localCap remoteOffer then
    { result with
      dtlsFingerprint := localCap.dtlsFingerprint
      dtlsRole := if remoteOffer.dtlsRole = .unset then .isClient else result.dtlsRole }
  else { result with dtlsFingerprint := "", dtlsRole := .invalid }

/-- `initiate_incoming` from the choice of a suite on. -/
def finishIncoming (localCap remoteOffer result : SalStreamDescription) :
    SalStreamDescription :=
  let result := selectCrypto localCap.crypto remoteOffer.crypto true result
  offeredDtls localCap remoteOffer
    { result with
      icePwd := localCap.icePwd, iceUfrag := localCap.iceUfrag
      iceMismatch := localCap.iceMismatch, iceCompleted := localCap.iceCompleted
      iceCandidates := localCap.iceCandidates
      iceRemoteCandidates := localCap.iceRemoteCandidates
      name := localCap.name, rtpSsrc := localCap.rtpSsrc, rtcpCname := localCap.rtcpCname }

/-- `initiate_incoming`: `local_cap->payloads` after the call, and the result. -/
def initiateIncoming (localCap remoteOffer result : SalStreamDescription)
    (oneMatchingCodec : Bool) : List PayloadType × SalStreamDescription :=
  let m := matchPayloads lib localCap.payloads remoteOffer.payloads false oneMatchingCodec
  let result :=
    { result with
      payloads := m.2, proto := remoteOffer.proto, type := localCap.type
      dir := computeDirIncoming localCap.dir remoteOffer.dir }
  if m.2.isEmpty || onlyTelephoneEvent m.2 || remoteOffer.rtpPort == 0 ||
      remoteOffer.dir == .recvOnly then
    (m.1, { result with rtpPort := 0 })
  else if remoteOffer.isMulticast lib then
    if result.hasSrtp then (m.1, { result with rtpPort := 0 })
    else
      (m.1, finishIncoming localCap remoteOffer
        { result with
          dir := remoteOffer.dir, rtpAddr := remoteOffer.rtpAddr
          rtcpAddr := remoteOffer.rtcpAddr, rtpPort := remoteOffer.rtpPort
          rtcpPort := 0 -- rtcp not supported yet
          bandwidth := remoteOffer.bandwidth, ptime := remoteOffer.ptime
          ttl := remoteOffer.ttl, multicastRole := .receiver })
  else
    (m.1, finishIncoming localCap remoteOffer
      { result with
        rtpAddr := localCap.rtpAddr, rtcpAddr := localCap.rtcpAddr
        rtpPort := localCap.rtpPort, rtcpPort := localCap.rtcpPort
        bandwidth := localCap.bandwidth, ptime := localCap.ptime })

/-! ## When an offered stream is accepted -/

/-- The offered stream `rs` can be served by the local stream `ls`. -/
def acceptable (ls rs : SalStreamDescription) : Bool :=
  hasCommonCodec lib ls.payloads rs.payloads && rs.rtpPort != 0 && rs.dir != .recvOnly &&
    (if rs.isMulticast lib then !rs.hasSrtp else ls.rtpPort != 0) &&
    (!rs.hasSrtp || (matchCryptoAlgo ls.crypto rs.crypto true).isSome)

/-- What names a stream on its m-line. -/
def SalStreamDescription.mline (sd : SalStreamDescription) :
    SalMediaProto × SalStreamType × String × String :=
  (sd.proto, sd.type, sd.typeother, sd.protoOther)

section

variable (locals remote : Vector SalSrtpCryptoAlgo cryptoAlgoMax) (useLocalKey : Bool)
  (ls rs r : SalStreamDescription) (one : Bool)

theorem selectCrypto_rtpPort :
    (selectCrypto locals remote useLocalKey r).rtpPort =
      if r.hasSrtp && !(matchCryptoAlgo locals remote useLocalKey).isSome then 0
      else r.rtpPort := by
  unfold selectCrypto
  cases hs : r.hasSrtp <;> cases hm : matchCryptoAlgo locals remote useLocalKey <;> simp

@[simp] theorem selectCrypto_mline :
    (selectCrypto locals remote useLocalKey r).mline = r.mline := by
  unfold selectCrypto
  split
  · cases matchCryptoAlgo locals remote useLocalKey <;> rfl
  · rfl

@[simp] theorem finishIncoming_rtpPort :
    (finishIncoming ls rs r).rtpPort = (selectCrypto ls.crypto rs.crypto true r).rtpPort := by
  unfold finishIncoming offeredDtls
  dsimp only
  split <;> rfl

@[simp] theorem finishIncoming_name : (finishIncoming ls rs r).name = ls.name := by
  unfold finishIncoming offeredDtls
  dsimp only
  split <;> rfl

@[simp] theorem finishIncoming_mline : (finishIncoming ls rs r).mline = r.mline := by
  have h := selectCrypto_mline ls.crypto rs.crypto true r
  unfold finishIncoming offeredDtls
  dsimp only
  split <;> exact h

/-- The answered m-line has the offered transport and the local type; the texts for types and
transports outside the enumerations are the result's own. -/
theorem initiateIncoming_mline :
    (initiateIncoming lib ls rs r one).2.mline =
      (rs.proto, ls.type, r.typeother, r.protoOther) := by
  unfold initiateIncoming
  dsimp only
  split
  · rfl
  · split
    · split
      · rfl
      · rw [finishIncoming_mline]; rfl
    · rw [finishIncoming_mline]; rfl

@[simp] theorem initiateIncoming_fst :
    (initiateIncoming lib ls rs r one).1 =
      (matchPayloads lib ls.payloads rs.payloads false one).1 := by
  unfold initiateIncoming
  dsimp only
  split
  · rfl
  · split
    · split <;> rfl
    · rfl

/-- **An offered stream is accepted exactly when it is acceptable.** -/
theorem initiateIncoming_rtpPort :
    (initiateIncoming lib ls rs r one).2.rtpPort ≠ 0 ↔ acceptable lib ls rs := by
  have hcodec := onlyTelephoneEvent_matchPayloads lib ls.payloads rs.payloads one
  unfold initiateIncoming acceptable
  dsimp only
  split
  · rename_i hreject
    simp only [Bool.or_eq_true, beq_iff_eq, hcodec, Bool.not_eq_true'] at hreject
    rcases hreject with ((hempty | hcod) | hport) | hdir
    · -- an empty list holds no codec
      rw [List.isEmpty_iff.mp hempty] at hcodec
      simp_all [onlyTelephoneEvent]
    · simp [hcod]
    · simp [hport]
    · simp [hdir]
  · rename_i haccept
    simp only [Bool.or_eq_true, beq_iff_eq, hcodec, Bool.not_eq_true', not_or,
      Bool.not_eq_false] at haccept
    obtain ⟨⟨⟨-, hcod⟩, hport⟩, hdir⟩ := haccept
    by_cases hmc : rs.isMulticast lib
    · cases hs : rs.hasSrtp
      · simp_all [selectCrypto_rtpPort, SalStreamDescription.hasSrtp]
      · simp_all [SalStreamDescription.hasSrtp]
    · simp only [hmc, Bool.false_eq_true, if_false, finishIncoming_rtpPort, selectCrypto_rtpPort]
      cases hs : rs.hasSrtp <;> cases hm : (matchCryptoAlgo ls.crypto rs.crypto true).isSome <;>
        simp_all [SalStreamDescription.hasSrtp]

/-- An accepted stream carries the name of the local stream that serves it. -/
theorem initiateIncoming_name (h : (initiateIncoming lib ls rs r one).2.rtpPort ≠ 0) :
    (initiateIncoming lib ls rs r one).2.name = ls.name := by
  unfold initiateIncoming at h ⊢
  dsimp only at h ⊢
  split
  · simp_all
  · split
    · split
      · simp_all
      · exact finishIncoming_name ..
    · exact finishIncoming_name ..

end

end Linphone
