import Linphone.Call.Streams

/-!
# Both ends of a negotiation

One end offers, the other answers, and each runs `sdp_process` on what it has received. Whatever the
capabilities, the two results mirror each other: an m-line that runs at both ends has one transport
and type, directions that fit together and go no further than either end allows, and each end sends
to where the other one has said it receives. A refused m-line is refused at both ends. The offerer
alone drops an accepted m-line only when it finds no codec of its own in the answer.

The offerer has to find each m-line at its own position (`InStep`), and the streams are unicast.
-/

namespace Linphone

open MediaCall (rtpAddrOf)

/-! ## Directions -/

/-- The same direction, seen from the other end. -/
def SalStreamDir.mirror : SalStreamDir → SalStreamDir
  | .sendOnly => .recvOnly
  | .recvOnly => .sendOnly
  | dir => dir

/-- There is nothing in the first direction that is not in the second. -/
def SalStreamDir.Within (dir limit : SalStreamDir) : Prop :=
  dir = .inactive ∨ limit = .sendRecv ∨ dir = limit

instance (dir limit : SalStreamDir) : Decidable (dir.Within limit) :=
  inferInstanceAs (Decidable (_ ∨ _ ∨ _))

/-- **The two computations mirror each other**, within what each end allows. -/
theorem directions_mirror (locals offered : SalStreamDir) :
    computeDirOutgoing offered (computeDirIncoming locals offered) =
        (computeDirIncoming locals offered).mirror ∧
      (computeDirIncoming locals offered).Within locals ∧
      (computeDirIncoming locals offered).mirror.Within offered := by
  cases locals <;> cases offered <;> decide

/-! ## One m-line -/

section

variable (lib : MediaLib) {ls rs r : SalStreamDescription} {one : Bool}

theorem hasSrtp_congr {sd sd' : SalStreamDescription} (h : sd.proto = sd'.proto) :
    sd.hasSrtp = sd'.hasSrtp := by
  unfold SalStreamDescription.hasSrtp
  rw [h]

theorem active_congr {sd sd' : SalStreamDescription} (h : sd.rtpPort = sd'.rtpPort) :
    sd.active = sd'.active := by
  unfold SalStreamDescription.active
  rw [h]

theorem selectCrypto_dir (locals remote : Vector SalSrtpCryptoAlgo cryptoAlgoMax)
    (useLocalKey : Bool) (r : SalStreamDescription) :
    (selectCrypto locals remote useLocalKey r).dir = r.dir := by
  unfold selectCrypto
  split
  · cases matchCryptoAlgo locals remote useLocalKey <;> rfl
  · rfl

theorem initiateIncoming_dir (hmc : rs.isMulticast lib = false) :
    (initiateIncoming lib ls rs r one).2.dir = computeDirIncoming ls.dir rs.dir := by
  have hfinish : ∀ r, (finishIncoming ls rs r).dir = r.dir := by
    intro r
    have hcrypto := selectCrypto_dir ls.crypto rs.crypto true r
    unfold finishIncoming offeredDtls
    dsimp only
    split <;> exact hcrypto
  unfold initiateIncoming
  dsimp only
  split
  · rfl
  · rw [hmc, if_neg Bool.false_ne_true]
    exact hfinish _

/-- What an offerer takes over of an answered m-line. -/
structure TakenOver (offer answered outcome : SalStreamDescription) : Prop where
  proto : outcome.proto = answered.proto
  type : outcome.type = offer.type
  dir : outcome.dir = computeDirOutgoing offer.dir answered.dir
  rtpAddr : outcome.rtpAddr = answered.rtpAddr
  rtpPort : outcome.rtpPort = answered.rtpPort

theorem TakenOver.selectCrypto {crypto crypto' : Vector SalSrtpCryptoAlgo cryptoAlgoMax}
    (h : TakenOver ls rs r)
    (hm : r.hasSrtp = true → (matchCryptoAlgo crypto crypto' false).isSome) :
    TakenOver ls rs (Linphone.selectCrypto crypto crypto' false r) := by
  unfold Linphone.selectCrypto
  split
  · rename_i hs
    obtain ⟨c, hc⟩ := Option.isSome_iff_exists.mp (hm hs)
    rw [hc]
    exact { h with }
  · exact h

theorem TakenOver.identity (h : TakenOver ls rs r) :
    TakenOver ls rs (answeredIdentity ls rs r) := by
  unfold answeredIdentity
  dsimp only
  split <;> exact { h with }

/-- The offerer takes over an m-line unless it finds no codec, and when it is secured if it finds
the suite. -/
theorem initiateOutgoing_takenOver (hport : rs.rtpPort ≠ 0) (hmc : ls.isMulticast lib = false)
    (hm : rs.hasSrtp = true → (matchCryptoAlgo ls.crypto rs.crypto false).isSome)
    (hcodec : onlyTelephoneEvent (matchPayloads lib ls.payloads rs.payloads true false).2 = false) :
    TakenOver ls rs (initiateOutgoing lib ls rs r).2 := by
  have hlist : (matchPayloads lib ls.payloads rs.payloads true false).2.isEmpty = false := by
    cases hpayloads : (matchPayloads lib ls.payloads rs.payloads true false).2 with
    | nil => simp [hpayloads, onlyTelephoneEvent] at hcodec
    | cons => rfl
  unfold initiateOutgoing
  rw [if_neg hport]
  simp only [hmc, Bool.false_eq_true, if_false, finishOutgoing, answeredTransport, hlist, hcodec,
    Bool.not_false, Bool.and_self, if_true]
  exact TakenOver.identity (TakenOver.selectCrypto ⟨rfl, rfl, rfl, rfl, rfl⟩ hm)

/-- Without a codec the offerer drops the m-line. -/
theorem initiateOutgoing_dropped (hport : rs.rtpPort ≠ 0) (hmc : ls.isMulticast lib = false)
    (hcodec : onlyTelephoneEvent (matchPayloads lib ls.payloads rs.payloads true false).2 = true) :
    (initiateOutgoing lib ls rs r).2.rtpPort = 0 := by
  have hidentity : ∀ r : SalStreamDescription, (answeredIdentity ls rs r).rtpPort = r.rtpPort := by
    intro r
    unfold answeredIdentity
    dsimp only
    split <;> rfl
  unfold initiateOutgoing
  rw [if_neg hport]
  simp only [hmc, Bool.false_eq_true, if_false, finishOutgoing, answeredTransport, hcodec,
    Bool.not_true, Bool.and_false, hidentity, selectCrypto_rtpPort]
  exact ite_self _

theorem initiateIncoming_accepted (hmc : rs.isMulticast lib = false)
    (hport : (initiateIncoming lib ls rs r one).2.rtpPort ≠ 0) :
    (initiateIncoming lib ls rs r one).2.rtpPort = ls.rtpPort := by
  unfold initiateIncoming at hport ⊢
  dsimp only at hport ⊢
  split
  · rename_i hreject
    rw [if_pos hreject] at hport
    exact absurd rfl hport
  · rename_i haccept
    rw [if_neg haccept, hmc, if_neg Bool.false_ne_true] at hport
    rw [hmc, if_neg Bool.false_ne_true]
    simp only [finishIncoming_rtpPort, selectCrypto_rtpPort] at hport ⊢
    split
    · rename_i hno
      rw [if_pos hno] at hport
      exact absurd rfl hport
    · rfl

end

/-! ## The answer -/

section

variable (lib : MediaLib) {h : SalOp} {remote : SalMediaDescription} {k : Nat}

/-- The address rewriting leaves type and direction alone as well. -/
theorem sentAnswer_kind (hk : k < remote.nbStreams) :
    let st := (answerTo lib h.localMedia remote h.oneMatchingCodec).stream k
    ((sentAnswer lib h remote).stream k).type = st.type ∧
      ((sentAnswer lib h remote).stream k).dir = st.dir := by
  unfold sentAnswer
  dsimp only
  split
  · rw [nullSendonlyAddresses_stream lib (answerTo lib h.localMedia remote h.oneMatchingCodec) hk]
    exact ⟨rfl, rfl⟩
  · exact ⟨rfl, rfl⟩

/-- What is answered to an m-line that is accepted with the local stream `ls`. -/
structure AnsweredLine (ls rs st : SalStreamDescription) : Prop where
  proto : st.proto = rs.proto
  type : st.type = rs.type
  dir : st.dir = computeDirIncoming ls.dir rs.dir
  active : st.active
  offered : rs.rtpPort ≠ 0

theorem sentAnswer_line (hk : k < remote.nbStreams) (hknown : (remote.stream k).proto ≠ .other)
    (hmc : (remote.stream k).isMulticast lib = false)
    (hport : ((sentAnswer lib h remote).stream k).rtpPort ≠ 0) :
    ∃ j, matching h.localMedia (remote.stream k) = some j ∧
      AnsweredLine (h.localMedia.stream j) (remote.stream k)
        ((sentAnswer lib h remote).stream k) := by
  obtain ⟨-, hproto, hrtpPort, -, -⟩ := sentAnswer_stream lib h remote hk
  obtain ⟨htype, hdir⟩ := sentAnswer_kind lib (h := h) hk
  rw [hrtpPort] at hport
  obtain ⟨j, hj, hacc⟩ := (accepted_iff lib h.localMedia remote h.oneMatchingCodec hk).mp hport
  have hst := incoming_stream lib h.localMedia remote h.oneMatchingCodec hk
  rw [hj] at hst
  rw [served_of_known _ _ hknown] at hj
  have hfound := hj
  unfold matching findLocalMatchingStream at hfound
  have hcompatible := List.find?_some hfound
  simp only [compatible, Bool.and_eq_true, beq_iff_eq] at hcompatible
  obtain ⟨⟨⟨hactive, hsametype⟩, -⟩, -⟩ := hcompatible
  have hmline := hst.mline
  obtain ⟨ps, x, -, heq⟩ := hst
  refine ⟨j, hj, hproto.trans (congrArg Prod.fst hmline), ?_, ?_, ?_, ?_⟩
  · rw [htype, ← hsametype]
    exact congrArg (fun line => line.2.1) hmline
  · rw [hdir, heq]
    exact initiateIncoming_dir lib hmc
  · rw [heq] at hport
    have hown := initiateIncoming_accepted lib hmc hport
    have hsame : ((sentAnswer lib h remote).stream k).rtpPort =
        (h.localMedia.stream j).rtpPort := by
      rw [hrtpPort, heq]
      exact hown
    exact (active_congr hsame).trans hactive
  · simp only [acceptable, Bool.and_eq_true, bne_iff_ne] at hacc
    exact hacc.1.1.1.2

end

/-! ## Both ends -/

section

variable (lib : MediaLib)

/-- What an m-line is after it has been written and read. An address that is left out is the one of
the session. -/
structure LineCrossed (sent rcv : SalMediaDescription) (k : Nat) : Prop where
  proto : (rcv.stream k).proto = (sent.stream k).proto
  type : (rcv.stream k).type = (sent.stream k).type
  dir : (rcv.stream k).dir = (sent.stream k).dir
  rtpPort : (rcv.stream k).rtpPort = (sent.stream k).rtpPort
  rtpAddr : rtpAddrOf rcv (rcv.stream k) = rtpAddrOf sent (sent.stream k)
  crypto : (sent.stream k).hasSrtp = true → (rcv.stream k).crypto = (sent.stream k).crypto

/-- `rcv` is what the peer reads of `sent`. -/
structure Crossed (sent rcv : SalMediaDescription) : Prop where
  nbStreams : rcv.nbStreams = sent.nbStreams
  line : ∀ k < sent.nbStreams, LineCrossed sent rcv k

/-- An m-line that runs at both ends, with `ls` the local stream it was accepted with. -/
structure Mirrored (ls : SalStreamDescription) (offer answer result outcome : SalMediaDescription)
    (k : Nat) : Prop where
  proto : (outcome.stream k).proto = (result.stream k).proto
  type : (outcome.stream k).type = (result.stream k).type
  dir : (outcome.stream k).dir = (result.stream k).dir.mirror
  offererAllows : (outcome.stream k).dir.Within (offer.stream k).dir
  answererAllows : (result.stream k).dir.Within ls.dir
  offererSends : rtpAddrOf outcome (outcome.stream k) = rtpAddrOf answer (answer.stream k) ∧
    (outcome.stream k).rtpPort = (answer.stream k).rtpPort
  answererSends : rtpAddrOf result (result.stream k) = rtpAddrOf offer (offer.stream k) ∧
    (result.stream k).rtpPort = (offer.stream k).rtpPort
  running : (outcome.stream k).active ∧ (result.stream k).rtpPort ≠ 0

variable {lib} {h o : SalOp} {remote rcv answer result outcome : SalMediaDescription} {k : Nat}

/-- The offerer finds the suite that was answered. -/
theorem answeredSuite_found (hk : k < remote.nbStreams) (hs : (remote.stream k).hasSrtp = true)
    (hport : ((sentAnswer lib h remote).stream k).rtpPort ≠ 0)
    (hoffer : (remote.stream k).crypto = (o.localMedia.stream k).crypto)
    (hanswer : (rcv.stream k).crypto = ((sentAnswer lib h remote).stream k).crypto) :
    (matchCryptoAlgo (o.localMedia.stream k).crypto (rcv.stream k).crypto false).isSome := by
  obtain ⟨j, r, l, -, hm, -, -, hc, -⟩ := sentAnswer_choice lib hk hs hport
  rw [hoffer] at hm
  obtain ⟨tail, htail⟩ := toList_eq_cons (rcv.stream k).crypto
  have hr := (matchCryptoAlgoFrom_some hm).1
  rw [hanswer] at htail ⊢
  simp only [hc] at htail
  simp [matchCryptoAlgo, htail, matchCryptoAlgoFrom, hr, find?_chosen hm]

/-- **An m-line that the offerer keeps.** -/
theorem mirrored_of_kept (hk : k < remote.nbStreams) (hoffer : LineCrossed o.localMedia remote k)
    (hanswer : LineCrossed answer rcv k)
    (hans : answer = sentAnswer lib h remote)
    (hres : result = copyBack remote answer) (haddr : outcome.addr = rcv.addr)
    (hout : outcome.stream k = negotiation lib (o.localMedia.stream k) (rcv.stream k))
    (hknown : (o.localMedia.stream k).proto ≠ .other)
    (hmc : (o.localMedia.stream k).isMulticast lib = false)
    (hmc' : (remote.stream k).isMulticast lib = false) (hport : (answer.stream k).rtpPort ≠ 0)
    (hcodec : onlyTelephoneEvent (matchPayloads lib (o.localMedia.stream k).payloads
      (rcv.stream k).payloads true false).2 = false) :
    ∃ j, matching h.localMedia (remote.stream k) = some j ∧
      Mirrored (h.localMedia.stream j) o.localMedia answer result outcome k := by
  subst hans hres
  obtain ⟨j, hj, hline⟩ := sentAnswer_line lib hk (hoffer.proto ▸ hknown) hmc' hport
  have hport' : (rcv.stream k).rtpPort ≠ 0 := hanswer.rtpPort ▸ hport
  have hactive : (rcv.stream k).active := (active_congr hanswer.rtpPort).trans hline.active
  have hanswers : answers (o.localMedia.stream k) (rcv.stream k) = true := by
    simp [answers, hactive, hanswer.proto, hanswer.type, hline.proto, hline.type, hoffer.proto,
      hoffer.type]
  have hfound : (rcv.stream k).hasSrtp = true →
      (matchCryptoAlgo (o.localMedia.stream k).crypto (rcv.stream k).crypto false).isSome := by
    intro hs
    have hs₁ : ((sentAnswer lib h remote).stream k).hasSrtp = true :=
      (hasSrtp_congr hanswer.proto).symm.trans hs
    have hs₂ : (remote.stream k).hasSrtp = true := (hasSrtp_congr hline.proto).symm.trans hs₁
    have hs₃ : (o.localMedia.stream k).hasSrtp = true :=
      (hasSrtp_congr hoffer.proto).symm.trans hs₂
    exact answeredSuite_found hk hs₂ hport (hoffer.crypto hs₃) (hanswer.crypto hs₁)
  have htaken : TakenOver (o.localMedia.stream k) (rcv.stream k) (outcome.stream k) := by
    rw [hout, negotiation, if_pos hanswers]
    exact { initiateOutgoing_takenOver lib (r := {}) hport' hmc hfound hcodec with }
  have hresult := copyBack_stream remote (sentAnswer lib h remote)
    ((sentAnswer_stream lib h remote hk).1 ▸ hk)
  rw [copyBackStream, if_pos hport] at hresult
  obtain ⟨hmirror, hlocal, hoffered⟩ :=
    directions_mirror (h.localMedia.stream j).dir (o.localMedia.stream k).dir
  have hdir : ((copyBack remote (sentAnswer lib h remote)).stream k).dir =
      computeDirIncoming (h.localMedia.stream j).dir (o.localMedia.stream k).dir := by
    rw [hresult, ← hoffer.dir]
    exact hline.dir
  have hdir' : (outcome.stream k).dir =
      ((copyBack remote (sentAnswer lib h remote)).stream k).dir.mirror := by
    rw [hdir, ← hmirror, htaken.dir, hanswer.dir, hline.dir, hoffer.dir]
  refine ⟨j, hj, ?_, ?_, hdir', ?_, ?_, ⟨?_, ?_⟩, ⟨?_, ?_⟩, ?_, ?_⟩
  · rw [htaken.proto, hanswer.proto, hresult]
  · rw [htaken.type, ← hoffer.type, ← hline.type, hresult]
  · rw [hdir', hdir]
    exact hoffered
  · rw [hdir]
    exact hlocal
  · rw [← hanswer.rtpAddr]
    unfold rtpAddrOf
    rw [htaken.rtpAddr, haddr]
  · rw [htaken.rtpPort, hanswer.rtpPort]
  · rw [← hoffer.rtpAddr, hresult]
    rfl
  · rw [← hoffer.rtpPort, hresult]
  · exact (active_congr htaken.rtpPort).trans hactive
  · rw [hresult]
    exact hline.offered

/-- **Both ends of an exchange mirror each other.** `h` answers what it reads of the offer of `o`,
and `o` negotiates what it reads of that answer, in step with its offer. A refused m-line is
refused at both ends, one without a codec is dropped by the offerer, every other one is
`Mirrored`. -/
theorem ends_mirror (hrem : h.remoteMedia = some remote) (hinc : h.sdpOffering = false)
    (horem : o.remoteMedia = some rcv) (hout : o.sdpOffering = true)
    (hoffer : Crossed o.localMedia remote) (hanswer : Crossed answer rcv)
    (hansw : (sdpProcess lib h).sdpAnswer = some answer)
    (hres : (sdpProcess lib h).result = some result)
    (hores : (sdpProcess lib o).result = some outcome)
    (hknown : ∀ k < o.localMedia.nbStreams, (o.localMedia.stream k).proto ≠ .other)
    (hmc : ∀ k < o.localMedia.nbStreams, (o.localMedia.stream k).isMulticast lib = false)
    (hmc' : ∀ k < remote.nbStreams, (remote.stream k).isMulticast lib = false)
    (hstep : InStep o.localMedia rcv) :
    result.nbStreams = o.localMedia.nbStreams ∧ outcome.nbStreams = o.localMedia.nbStreams ∧
      ∀ k < o.localMedia.nbStreams,
        ((answer.stream k).rtpPort = 0 →
          (result.stream k).rtpPort = 0 ∧ (outcome.stream k).rtpPort = 0) ∧
        ((answer.stream k).rtpPort ≠ 0 →
          if onlyTelephoneEvent (matchPayloads lib (o.localMedia.stream k).payloads
              (rcv.stream k).payloads true false).2 then (outcome.stream k).rtpPort = 0
          else ∃ j, matching h.localMedia (remote.stream k) = some j ∧
            Mirrored (h.localMedia.stream j) o.localMedia answer result outcome k) := by
  simp only [sdpProcess, hrem, hinc, Bool.false_eq_true, if_false, Option.some.injEq] at hansw hres
  simp only [sdpProcess, horem, hout, if_true, Option.some.injEq] at hores
  have hnb : answer.nbStreams = remote.nbStreams := by
    rw [← hansw]
    unfold sentAnswer
    dsimp only
    split <;> rfl
  have hnb' : rcv.nbStreams = o.localMedia.nbStreams :=
    hanswer.nbStreams.trans (hnb.trans hoffer.nbStreams)
  obtain ⟨houtcome, hlines⟩ := hstep.positionWise lib o.localMedia rcv hnb'.symm
  rw [hores] at houtcome hlines
  rw [hansw] at hres
  refine ⟨hres ▸ hnb.trans hoffer.nbStreams, houtcome,
    fun k hk => ⟨fun hport => ?_, fun hport => ?_⟩⟩
  · have hkeep := copyBack_stream remote answer (k := k) (by rw [hnb, hoffer.nbStreams]; exact hk)
    rw [copyBackStream, if_neg (not_not.mpr hport)] at hkeep
    refine ⟨by rw [← hres, hkeep]; exact hport, (hlines k hk).2 ?_⟩
    rw [(hanswer.line k (by rw [hnb, hoffer.nbStreams]; exact hk)).rtpPort]
    exact hport
  · have hline := hanswer.line k (by rw [hnb, hoffer.nbStreams]; exact hk)
    have hk' : k < remote.nbStreams := hoffer.nbStreams ▸ hk
    split
    · rename_i hcodec
      rw [(hlines k hk).1, negotiation]
      split
      · exact initiateOutgoing_dropped lib (hline.rtpPort ▸ hport) (hmc k hk) hcodec
      · rfl
    · rename_i hcodec
      exact mirrored_of_kept hk' (hoffer.line k hk) hline hansw.symm hres.symm (hores ▸ rfl)
        (hlines k hk).1 (hknown k hk) (hmc k hk) (hmc' k hk') hport (eq_false_of_ne_true hcodec)

end

/-- A call that is put on hold: the offer is `sendonly`. -/
def heldAudio : SalStreamDescription :=
  { plainStream .audio .rtpAvp 9078 "PCMU" with dir := .sendOnly }

def heldAnswer : SalMediaDescription :=
  sentAnswer plainLib (answering (plainStream .audio .rtpAvp 7078 "PCMU") heldAudio)
    (lines 1 heldAudio)

/-- At a concrete exchange: the held end listens and the holding one sends. -/
theorem ends_mirror_held :
    let h := answering (plainStream .audio .rtpAvp 7078 "PCMU") heldAudio
    let outcome := (offerAnswerInitiateOutgoing plainLib (lines 1 heldAudio) heldAnswer .new).2
    (outcome.stream 0).dir = .sendOnly ∧
      ∃ j, matching h.localMedia ((lines 1 heldAudio).stream 0) = some j ∧
        Mirrored (h.localMedia.stream j) (lines 1 heldAudio) heldAnswer
          (copyBack (lines 1 heldAudio) heldAnswer) outcome 0 := by
  have hcrossed : ∀ md : SalMediaDescription, Crossed md md := fun md =>
    ⟨rfl, fun _ _ => ⟨rfl, rfl, rfl, rfl, rfl, fun _ => rfl⟩⟩
  have hone : ∀ k < (lines 1 heldAudio).nbStreams, k = 0 := fun k hk => Nat.lt_one_iff.mp hk
  have h := ((@ends_mirror plainLib (answering (plainStream .audio .rtpAvp 7078 "PCMU") heldAudio)
    { localMedia := lines 1 heldAudio, remoteMedia := some heldAnswer, sdpOffering := true }
    _ _ _ _ _ rfl rfl rfl rfl (hcrossed _) (hcrossed _) rfl rfl rfl
    (fun k hk => by rw [hone k hk]; decide) (fun k hk => by rw [hone k hk]; decide)
    (fun k hk => by rw [hone k hk]; decide)
    ⟨1, by decide, by decide, by decide⟩).2.2 0 (by decide)).2 (by decide)
  rw [if_neg (by decide)] at h
  exact ⟨by decide, h⟩

end Linphone
