import Linphone.OfferAnswer.Outgoing

/-!
# Answering an offer

`offer_answer_initiate_incoming`: the answer to a remote offer, from the local capabilities.

Three variables of the loop outlive a round. `ls`, the matched local stream, is only assigned for
known transports, so an m-line with an unknown transport inherits the match of the line before.
`result->nb_streams` stays at its initial value until the loop is over, so the "already used"
test looks at the streams that were there before the call. And the matchers may change the
payload lists of the local capabilities. `served` is the local stream each m-line ends up with,
read off the inputs, and `incoming_stream` says what each slot of the answer holds.
-/

namespace Linphone

variable (lib : MediaLib) (cap remote : SalMediaDescription) (one : Bool)

/-! ## The function -/

/-- `local_stream_not_already_used` -/
def localStreamNotAlreadyUsed (result : SalMediaDescription) (stream : SalStreamDescription) :
    Bool :=
  (List.range result.nbStreams).all fun i => (result.stream i).name != stream.name

/-- `proto_compatible`: able to make AVPF, SAVP or SAVPF, we can do AVP as well. -/
def protoCompatible (locals remote : SalMediaProto) : Bool :=
  locals == remote ||
  (remote == .rtpAvp && (locals == .rtpSavp || locals == .rtpSavpf)) ||
  (remote == .rtpAvp && (locals == .udpTlsRtpSavp || locals == .udpTlsRtpSavpf)) ||
  (remote == .rtpAvpf && locals == .rtpSavpf) ||
  (remote == .rtpAvpf && locals == .udpTlsRtpSavpf)

/-- The local stream can be matched with the offered one. -/
def compatible (ss rs : SalStreamDescription) : Bool :=
  ss.active && ss.type == rs.type && protoCompatible ss.proto rs.proto

/-- `find_local_matching_stream`; the pointer it returns is the position of the stream. -/
def findLocalMatchingStream (result : SalMediaDescription) (rs : SalStreamDescription) :
    Option Nat :=
  (List.range cap.nbStreams).find? fun k =>
    compatible (cap.stream k) rs && localStreamNotAlreadyUsed result (cap.stream k)

/-- The RTCP-XR settings answered to an offered stream. -/
def answeredRtcpXr (capXr : OrtpRtcpXrConfiguration) (ls rs : SalStreamDescription) :
    OrtpRtcpXrConfiguration :=
  if rs.rtcpXr.enabled then
    let conf :=
      if ls.rtcpXr.enabled then some ls.rtcpXr
      else if capXr.enabled then some capXr
      else none
    match conf with
    | some conf => if ls.dir = .sendRecv then conf else { enabled := true }
    | none => { enabled := true }
  else {}

/-- The inactive stream that declines an m-line. -/
def declined (rs result : SalStreamDescription) : SalStreamDescription :=
  { result with
    dir := .inactive, rtpPort := 0, type := rs.type, proto := rs.proto
    typeother := if rs.type = .other then rs.typeother else result.typeother
    protoOther := if rs.proto = .other then rs.protoOther else result.protoOther }

/-- The variables of the loop. -/
structure IncomingState where
  cap : SalMediaDescription
  result : SalMediaDescription
  ls : Option Nat

/-- A round that answers `rs` at position `i` with local stream `k`. -/
def incomingFound (s : IncomingState) (i k : Nat) (rs : SalStreamDescription) : IncomingState :=
  let ls := s.cap.stream k
  let r := initiateIncoming lib ls rs (s.result.stream i) one
  { cap := s.cap.setStream k { ls with payloads := r.1 }
    result := s.result.setStream i (r.2.setRtcpXr (answeredRtcpXr s.cap.rtcpXr ls rs))
    ls := some k }

/-- The body of the loop, at m-line `i` of the offer. -/
def incomingStep (s : IncomingState) (i : Nat) : IncomingState :=
  let rs := remote.stream i
  let ls := if rs.proto ≠ .other then findLocalMatchingStream s.cap s.result rs else s.ls
  match ls with
  | some k => incomingFound lib one s i k rs
  | none =>
      { s with result := s.result.setStream i (declined rs (s.result.stream i)), ls := none }

/-- The loop of `offer_answer_initiate_incoming` over the first `n` m-lines. -/
def incomingLoop (result : SalMediaDescription) (n : Nat) : IncomingState :=
  (List.range n).foldl (incomingStep lib remote one) { cap := cap, result := result, ls := none }

/-- The session RTCP-XR settings of the answer. -/
def sessionRtcpXr : OrtpRtcpXrConfiguration :=
  if remote.rtcpXr.enabled then
    if cap.rtcpXr.enabled && cap.dir == .sendRecv then cap.rtcpXr else { enabled := true }
  else {}

/-- `offer_answer_initiate_incoming`: the capabilities after the call, and the answer. -/
def offerAnswerInitiateIncoming (result : SalMediaDescription) :
    SalMediaDescription × SalMediaDescription :=
  let s := incomingLoop lib cap remote one result remote.nbStreams
  (s.cap,
    { s.result with
      nbStreams := remote.nbStreams, nb_le := remote.nb_le
      username := cap.username, addr := cap.addr, bandwidth := cap.bandwidth
      sessionVer := cap.sessionVer, sessionId := cap.sessionId
      icePwd := cap.icePwd, iceUfrag := cap.iceUfrag
      iceLite := cap.iceLite, iceCompleted := cap.iceCompleted
      name := cap.name
      rtcpXr := sessionRtcpXr cap remote })

/-! ## What each slot holds -/

/-- The local stream an m-line of known transport is matched with. -/
def matching (rs : SalStreamDescription) : Option Nat := findLocalMatchingStream cap .new rs

/-- The value of `ls` after the first `n` rounds. -/
def carried : Nat → Option Nat
  | 0 => none
  | n + 1 =>
      if (remote.stream n).proto ≠ .other then matching cap (remote.stream n) else carried n

/-- The local stream that m-line `i` is answered with, if any. -/
def served (i : Nat) : Option Nat := carried cap remote (i + 1)

theorem served_of_known {i : Nat} (h : (remote.stream i).proto ≠ .other) :
    served cap remote i = matching cap (remote.stream i) := by
  simp [served, carried, h]

theorem served_of_other {i : Nat} (h : (remote.stream i).proto = .other) :
    served cap remote i = carried cap remote i := by
  simp [served, carried, h]

/-- `st` answers `rs` with the local stream `ls`, whose payload list the matchers may have
touched. -/
def AnsweredWith (ls rs st : SalStreamDescription) : Prop :=
  ∃ ps x, ps.map eraseOpus = ls.payloads.map eraseOpus ∧
    st = (initiateIncoming lib { ls with payloads := ps } rs {} one).2.setRtcpXr x

/-- The capabilities after some rounds: only payload lists changed, and only by the matchers. -/
structure SameCap (cap cap' : SalMediaDescription) : Prop where
  nbStreams : cap'.nbStreams = cap.nbStreams
  stream : ∀ k < maxStreams, ∃ ps, ps.map eraseOpus = (cap.stream k).payloads.map eraseOpus ∧
    cap'.stream k = { cap.stream k with payloads := ps }

/-- What the loop maintains over its first `n` rounds. -/
structure IncomingInv (n : Nat) (s : IncomingState) : Prop where
  cap_eq : SameCap cap s.cap
  ls_eq : s.ls = carried cap remote n
  nb_eq : s.result.nbStreams = 0
  untouched : ∀ t < maxStreams, n ≤ t → s.result.stream t = {}
  slot : ∀ t < n, match served cap remote t with
    | some k => AnsweredWith lib one (cap.stream k) (remote.stream t) (s.result.stream t)
    | none => s.result.stream t = declined (remote.stream t) {}

theorem find?_congr {α : Type} {p q : α → Bool} {l : List α} (h : ∀ a ∈ l, p a = q a) :
    l.find? p = l.find? q := by
  induction l with
  | nil => rfl
  | cons a l ih =>
      simp only [List.find?_cons, h a (List.mem_cons_self ..),
        ih fun b hb => h b (List.mem_cons_of_mem a hb)]

theorem findLocalMatchingStream_eq {cap' result : SalMediaDescription} (hcap : SameCap cap cap')
    (hnb : result.nbStreams = 0) (rs : SalStreamDescription) :
    findLocalMatchingStream cap' result rs = matching cap rs := by
  have hfresh : ∀ r : SalMediaDescription, r.nbStreams = 0 → ∀ ss,
      localStreamNotAlreadyUsed r ss = true := by
    intro r hr ss
    simp [localStreamNotAlreadyUsed, hr]
  have hcompat : ∀ k < maxStreams,
      compatible (cap'.stream k) rs = compatible (cap.stream k) rs := by
    intro k hk
    obtain ⟨ps, -, heq⟩ := hcap.stream k hk
    rw [heq]
    rfl
  unfold matching findLocalMatchingStream
  rw [hcap.nbStreams]
  apply find?_congr
  intro k hk
  have hk8 := cap.lt_maxStreams (List.mem_range.mp hk)
  rw [hcompat k hk8, hfresh _ hnb, hfresh _ rfl]

theorem matching_lt {rs : SalStreamDescription} {k : Nat} (h : matching cap rs = some k) :
    k < cap.nbStreams :=
  List.mem_range.mp (List.mem_of_find?_eq_some h)

theorem carried_lt {n k : Nat} (h : carried cap remote n = some k) : k < cap.nbStreams := by
  induction n with
  | zero => simp [carried] at h
  | succ n ih =>
      simp only [carried] at h
      split at h
      · exact matching_lt cap h
      · exact ih h

theorem SameCap.setStream {cap' : SalMediaDescription} (h : SameCap cap cap') {k : Nat}
    (hk : k < maxStreams) {ps : List PayloadType}
    (hps : ps.map eraseOpus = (cap'.stream k).payloads.map eraseOpus) :
    SameCap cap (cap'.setStream k { cap'.stream k with payloads := ps }) where
  nbStreams := h.nbStreams
  stream k' hk' := by
    by_cases hkk : k = k'
    · subst hkk
      obtain ⟨qs, hqs, heq⟩ := h.stream k hk
      refine ⟨ps, by rw [hps, heq, hqs], ?_⟩
      rw [SalMediaDescription.stream_setStream_self _ _ hk, heq]
    · rw [SalMediaDescription.stream_setStream_ne _ _ hkk]
      exact h.stream k' hk'

theorem incomingInv_zero :
    IncomingInv lib cap remote one 0 (incomingLoop lib cap remote one .new 0) where
  cap_eq := ⟨rfl, fun k _ => ⟨(cap.stream k).payloads, rfl, rfl⟩⟩
  ls_eq := rfl
  nb_eq := rfl
  untouched t _ _ := SalMediaDescription.stream_new t
  slot t ht := absurd ht (Nat.not_lt_zero t)

/-- The match of a round is the one the inputs determine. -/
theorem incomingStep_eq {n : Nat} {s : IncomingState} (h : IncomingInv lib cap remote one n s) :
    incomingStep lib remote one s n =
      match served cap remote n with
      | some k => incomingFound lib one s n k (remote.stream n)
      | none =>
          { s with
            result := s.result.setStream n (declined (remote.stream n) (s.result.stream n))
            ls := none } := by
  have hls : (if (remote.stream n).proto ≠ .other then
      findLocalMatchingStream s.cap s.result (remote.stream n) else s.ls) =
      served cap remote n := by
    rw [findLocalMatchingStream_eq cap h.cap_eq h.nb_eq, h.ls_eq]
    rfl
  simp only [incomingStep, hls]

theorem incomingInv_step {n : Nat} {s : IncomingState} (hn : n < maxStreams)
    (h : IncomingInv lib cap remote one n s) :
    IncomingInv lib cap remote one (n + 1) (incomingStep lib remote one s n) := by
  have hempty := h.untouched n hn (Nat.le_refl n)
  rw [incomingStep_eq lib cap remote one h]
  -- both branches write slot `n` only
  have hframe : ∀ st : SalStreamDescription, ∀ t < maxStreams, n + 1 ≤ t →
      (s.result.setStream n st).stream t = {} := by
    intro st t ht hnt
    rw [SalMediaDescription.stream_setStream_ne _ _ (by omega)]
    exact h.untouched t ht (by omega)
  cases hserved : served cap remote n with
  | none =>
      refine ⟨h.cap_eq, hserved.symm, h.nb_eq, hframe _, fun t ht => ?_⟩
      by_cases htn : n = t
      · subst htn
        simp only [hserved, SalMediaDescription.stream_setStream_self _ _ hn, hempty]
      · simp only [SalMediaDescription.stream_setStream_ne _ _ htn]
        exact h.slot t (by omega)
  | some k =>
      have hk := cap.lt_maxStreams (carried_lt cap remote hserved)
      obtain ⟨ps, hps, hls⟩ := h.cap_eq.stream k hk
      refine ⟨?_, hserved.symm, h.nb_eq, hframe _, fun t ht => ?_⟩
      · apply h.cap_eq.setStream cap hk
        rw [initiateIncoming_fst, matchPayloads_fst]
      · by_cases htn : n = t
        · subst htn
          simp only [hserved, incomingFound, SalMediaDescription.stream_setStream_self _ _ hn]
          exact ⟨ps, _, hps, by rw [hls, hempty]⟩
        · simp only [incomingFound, SalMediaDescription.stream_setStream_ne _ _ htn]
          exact h.slot t (by omega)

theorem incomingInv (n : Nat) (hn : n ≤ maxStreams) :
    IncomingInv lib cap remote one n (incomingLoop lib cap remote one .new n) := by
  induction n with
  | zero => exact incomingInv_zero lib cap remote one
  | succ n ih =>
      unfold incomingLoop
      rw [foldl_range_succ]
      exact incomingInv_step lib cap remote one (by omega) (ih (by omega))

/-- The answer to `remote`, built from an empty description. -/
def answerTo : SalMediaDescription := (offerAnswerInitiateIncoming lib cap remote one .new).2

/-- **What every slot of the answer holds**, for any capabilities and any offer. -/
theorem incoming_stream {t : Nat} (ht : t < remote.nbStreams) :
    match served cap remote t with
    | some k => AnsweredWith lib one (cap.stream k) (remote.stream t)
        ((answerTo lib cap remote one).stream t)
    | none => (answerTo lib cap remote one).stream t = declined (remote.stream t) {} :=
  (incomingInv lib cap remote one remote.nbStreams remote.nb_le).slot t ht

/-! ## Which m-lines are accepted -/

theorem acceptable_congr {ls rs : SalStreamDescription} {ps : List PayloadType}
    (h : ps.map eraseOpus = ls.payloads.map eraseOpus) :
    acceptable lib { ls with payloads := ps } rs = acceptable lib ls rs := by
  simp only [acceptable, hasCommonCodec_congr lib h]

theorem AnsweredWith.rtpPort {ls rs st : SalStreamDescription}
    (h : AnsweredWith lib one ls rs st) : st.rtpPort ≠ 0 ↔ acceptable lib ls rs := by
  obtain ⟨ps, x, hps, rfl⟩ := h
  rw [← acceptable_congr lib hps]
  exact initiateIncoming_rtpPort lib { ls with payloads := ps } rs {} one

theorem AnsweredWith.name {ls rs st : SalStreamDescription}
    (h : AnsweredWith lib one ls rs st) (hport : st.rtpPort ≠ 0) : st.name = ls.name := by
  obtain ⟨ps, x, hps, rfl⟩ := h
  exact initiateIncoming_name lib { ls with payloads := ps } rs {} one hport

theorem AnsweredWith.mline {ls rs st : SalStreamDescription}
    (h : AnsweredWith lib one ls rs st) : st.mline = (rs.proto, ls.type, "", "") := by
  obtain ⟨ps, x, hps, rfl⟩ := h
  exact initiateIncoming_mline lib { ls with payloads := ps } rs {} one

/-- M-line `t` is accepted with local stream `k`. -/
def AcceptedBy (t k : Nat) : Prop :=
  served cap remote t = some k ∧ acceptable lib (cap.stream k) (remote.stream t) = true

/-- **An m-line is accepted exactly when the local stream it is matched with can serve it.** -/
theorem accepted_iff {t : Nat} (ht : t < remote.nbStreams) :
    ((answerTo lib cap remote one).stream t).rtpPort ≠ 0 ↔ ∃ k, AcceptedBy lib cap remote t k := by
  have h := incoming_stream lib cap remote one ht
  cases hs : served cap remote t with
  | none =>
      simp only [hs] at h
      simp [h, declined, AcceptedBy, hs]
  | some k =>
      simp only [hs] at h
      simp [h.rtpPort, AcceptedBy, hs]

theorem accepted_name {t k : Nat} (ht : t < remote.nbStreams) (h : AcceptedBy lib cap remote t k) :
    ((answerTo lib cap remote one).stream t).name = (cap.stream k).name := by
  have hport := (accepted_iff lib cap remote one ht).mpr ⟨k, h⟩
  have hst := incoming_stream lib cap remote one ht
  simp only [h.1] at hst
  exact hst.name lib one hport

/-! ## Local streams used twice -/

/-- The streams in use have distinct names, and none is empty. -/
structure DistinctNames : Prop where
  nonempty : ∀ k < cap.nbStreams, (cap.stream k).name ≠ ""
  distinct : ∀ k < cap.nbStreams, ∀ l < cap.nbStreams,
    (cap.stream k).name = (cap.stream l).name → k = l

/-- Different accepted positions of an answer name different local streams. -/
def InjectivelyAnswered (answer : SalMediaDescription) : Prop :=
  ∀ i < answer.nbStreams, ∀ j < answer.nbStreams, i ≠ j →
    (answer.stream i).rtpPort ≠ 0 → (answer.stream j).rtpPort ≠ 0 →
    (answer.stream i).name ≠ (answer.stream j).name

/-- A stream description alone, or twice. -/
def lines (n : Nat) (sd : SalStreamDescription)
    (h : n ≤ maxStreams := by
      first | exact one_le_maxStreams | exact two_le_maxStreams | decide) :
    SalMediaDescription where
  nbStreams := n
  nb_le := h
  streams := Vector.replicate maxStreams sd

/-- The audio stream of the local capabilities. -/
def localAudio : SalStreamDescription :=
  { plainStream .audio .rtpAvp 7078 "PCMU" with name := "Audio" }

theorem distinctNames_localAudio : DistinctNames (lines 1 localAudio) where
  nonempty k hk := by
    have : k = 0 := Nat.lt_one_iff.mp hk
    subst this
    decide
  distinct k hk l hl _ := by
    rw [Nat.lt_one_iff.mp hk, Nat.lt_one_iff.mp hl]

end Linphone
