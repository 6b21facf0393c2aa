import Linphone.Sal.Sdp

/-!
# Offer/answer on a SIP operation

`sdp_process` of `bellesip_sal/sal_op_call.c`, and what it does to the SRTP keys. The answerer
chooses a suite with `match_crypto_algo`, sends its own key under the offered tag, and then
copies the *first* crypto entry of the remote description over its choice; the offerer runs
`match_crypto_algo` on the answer. A side receives with entry `0` of its result and sends with
the entry of its own description found under `crypto_local_tag`.

`keysAgree_iff` is the exact condition under which what one side sends with is what the other
receives with.
-/

namespace Linphone

/-! ## `sdp_process` -/

/-- What `sdp_process` reads and writes of a `SalOp` and its root. -/
structure SalOp where
  localMedia : SalMediaDescription
  remoteMedia : Option SalMediaDescription
  sdpOffering : Bool
  cnxIpTo0000IfSendonlyEnabled : Bool := false
  oneMatchingCodec : Bool := false
  result : Option SalMediaDescription := none
  sdpAnswer : Option SalMediaDescription := none

variable (lib : MediaLib)

/-- `set_addr_to_0000` -/
def setAddrTo0000 (value : String) : String := if lib.isIpv6 value then "::0" else "0.0.0.0"

/-- The backward compatibility block: null addresses in a `sendonly` answer. The RTCP address is
outside the test on the direction of the stream. -/
def nullSendonlyAddresses (md : SalMediaDescription) : SalMediaDescription :=
  SalMediaDescription.mapStreams { md with addr := setAddrTo0000 lib md.addr } fun _ s =>
    { s with
      rtpAddr := if s.dir = .sendOnly then setAddrTo0000 lib s.rtpAddr else s.rtpAddr
      rtcpAddr := setAddrTo0000 lib s.rtcpAddr }

/-- The parameters an accepted stream takes back from the remote description. -/
def copyBackStream (remote result : SalStreamDescription) : SalStreamDescription :=
  if result.rtpPort ≠ 0 then
    { result with
      rtpAddr := remote.rtpAddr, ptime := remote.ptime, bandwidth := remote.bandwidth
      rtpPort := remote.rtpPort, rtcpAddr := remote.rtcpAddr, rtcpPort := remote.rtcpPort
      crypto :=
        if result.proto = .rtpSavpf ∨ result.proto = .rtpSavp then
          result.crypto.set 0 (getElem remote.crypto 0 cryptoAlgoMax_pos) cryptoAlgoMax_pos
        else result.crypto }
  else result

/-- The result for the upper layer, from the answer that was sent. -/
def copyBack (remote answer : SalMediaDescription) : SalMediaDescription :=
  SalMediaDescription.mapStreams
    { answer with addr := remote.addr, bandwidth := remote.bandwidth }
    fun i s => copyBackStream (remote.stream i) s

/-- The answer `sdp_process` renders. -/
def sentAnswer (h : SalOp) (remote : SalMediaDescription) : SalMediaDescription :=
  let answer := answerTo lib h.localMedia remote h.oneMatchingCodec
  if h.cnxIpTo0000IfSendonlyEnabled && answer.hasDir .sendOnly then
    nullSendonlyAddresses lib answer
  else answer

/-- `sdp_process`. The rendered answer is kept as the description it is rendered from. -/
def sdpProcess (h : SalOp) : SalOp :=
  match h.remoteMedia with
  | none => { h with result := none } -- the SDP was invalid
  | some remote =>
      if h.sdpOffering then
        let r := offerAnswerInitiateOutgoing lib h.localMedia remote .new
        { h with localMedia := r.1, result := some r.2 }
      else
        let cap := (offerAnswerInitiateIncoming lib h.localMedia remote h.oneMatchingCodec .new).1
        let answer := sentAnswer lib h remote
        { h with
          localMedia := cap, sdpAnswer := some answer, result := some (copyBack remote answer) }

/-! ## Keys in use -/

/-- `find_crypto_index_from_tag`; the tag parameter is an `unsigned char`. -/
def findCryptoIndexFromTag (crypto : Vector SalSrtpCryptoAlgo cryptoAlgoMax) (tag : UInt8) :
    Option (Fin cryptoAlgoMax) :=
  (List.finRange cryptoAlgoMax).find? fun i =>
    (getElem crypto i i.isLt).tag == tag.toUInt32

/-- The master key of the local entry found under a tag. -/
def localKey (crypto : Vector SalSrtpCryptoAlgo cryptoAlgoMax) (tag : UInt32) : Option String :=
  (findCryptoIndexFromTag crypto tag.toUInt8).map fun i =>
    (getElem crypto i i.isLt).masterKey

/-- Suite and key a stream sends with, from the local description and the result. -/
def srtpSend (locals result : SalStreamDescription) : Option (MSCryptoSuite × String) :=
  (localKey locals.crypto result.cryptoLocalTag).map
    ((getElem result.crypto 0 cryptoAlgoMax_pos).algo, ·)

/-- Suite and key a stream receives with. -/
def srtpRecv (result : SalStreamDescription) : MSCryptoSuite × String :=
  ((getElem result.crypto 0 cryptoAlgoMax_pos).algo,
    (getElem result.crypto 0 cryptoAlgoMax_pos).masterKey)

/-- What the peer gets to see of a stream that was sent: its transport, address, port and crypto
lines. -/
structure Received (sent rcv : SalStreamDescription) : Prop where
  proto : rcv.proto = sent.proto
  rtpAddr : rcv.rtpAddr = sent.rtpAddr
  rtpPort : rcv.rtpPort = sent.rtpPort
  crypto : rcv.crypto = sent.crypto

/-- The crypto entries have distinct tags. -/
def DistinctTags (crypto : Vector SalSrtpCryptoAlgo cryptoAlgoMax) : Prop :=
  ∀ i j : Fin cryptoAlgoMax, i < j → (getElem crypto i i.isLt).algo ≠ .invalid →
    (getElem crypto j j.isLt).algo ≠ .invalid →
      (getElem crypto i i.isLt).tag ≠ (getElem crypto j j.isLt).tag

/-- The two ends agree: the answerer's `result` holds the entry of the `offer` whose tag is in the
`answer`, the offerer's `outcome` the answered suite and key and the answered tag, and each side
sends with what the other receives with. -/
structure KeysAgree (offer locals answer result outcome : SalStreamDescription) : Prop where
  chosen : ∃ e ∈ offer.crypto.toList, e.tag = answer.crypto[0].tag ∧
    e.algo = answer.crypto[0].algo ∧ (∃ l ∈ locals.crypto.toList, l.algo = e.algo) ∧
    result.crypto[0] = e
  suite : outcome.crypto[0].algo = answer.crypto[0].algo
  recvKey : outcome.crypto[0].masterKey = answer.crypto[0].masterKey
  localTag : outcome.cryptoLocalTag = answer.crypto[0].tag
  answererSends : srtpSend locals result = some (srtpRecv outcome)
  offererSends : srtpSend offer outcome = some (srtpRecv result)

/-- The first offered suite is a local one, and both tags in use lead to the right entry: the tag
of the first local entry of that suite and the offered tag, looked up in their lists. -/
def FirstSuiteUsable (offer locals : SalStreamDescription) : Prop :=
  ∃ l, locals.crypto.toList.find? (fun l =>
      (getElem offer.crypto 0 cryptoAlgoMax_pos).algo == l.algo) = some l ∧
    localKey locals.crypto l.tag = some l.masterKey ∧
    localKey offer.crypto (getElem offer.crypto 0 cryptoAlgoMax_pos).tag =
      some (getElem offer.crypto 0 cryptoAlgoMax_pos).masterKey

/-! ## The chosen entries -/

/-- What the matching loop finds: a remote entry `r` and the first local entry `l` of its suite,
with no earlier remote entry empty or of a local suite. -/
theorem matchCryptoAlgoFrom_some {locals remote : List SalSrtpCryptoAlgo}
    {r l : SalSrtpCryptoAlgo} (h : matchCryptoAlgoFrom locals remote = some (r, l)) :
    r.algo ≠ .invalid ∧ locals.find? (fun l => r.algo == l.algo) = some l ∧
      ∃ before after, remote = before ++ r :: after ∧
        ∀ b ∈ before, b.algo ≠ .invalid ∧ locals.find? (fun l => b.algo == l.algo) = none := by
  induction remote with
  | nil => simp [matchCryptoAlgoFrom] at h
  | cons r' remote ih =>
      simp only [matchCryptoAlgoFrom] at h
      split at h
      · exact absurd h (by simp)
      · rename_i hvalid
        cases hf : locals.find? fun l => r'.algo == l.algo with
        | some l' =>
            simp only [hf, Option.some.injEq, Prod.mk.injEq] at h
            obtain ⟨rfl, rfl⟩ := h
            exact ⟨hvalid, hf, [], remote, rfl, by simp⟩
        | none =>
            simp only [hf] at h
            obtain ⟨hr, hl, before, after, rfl, hb⟩ := ih h
            refine ⟨hr, hl, r' :: before, after, rfl, ?_⟩
            intro b hbm
            rcases List.mem_cons.mp hbm with rfl | hbm
            · exact ⟨hvalid, hf⟩
            · exact hb b hbm

/-- The entry the answerer chose is the first of its suite in the offered list, so the offerer
finds the same one when it reads the answer. -/
theorem find?_chosen {locals remote : List SalSrtpCryptoAlgo} {r l : SalSrtpCryptoAlgo}
    (h : matchCryptoAlgoFrom locals remote = some (r, l)) :
    remote.find? (fun e => r.algo == e.algo) = some r := by
  obtain ⟨-, hl, before, after, rfl, hb⟩ := matchCryptoAlgoFrom_some h
  have hbefore : before.find? (fun e => r.algo == e.algo) = none := by
    rw [List.find?_eq_none]
    intro b hbm heq
    simp only [beq_iff_eq] at heq
    rw [heq, (hb b hbm).2] at hl
    exact absurd hl (by simp)
  rw [List.find?_append, hbefore]
  simp

theorem selectCrypto_some {locals remote : Vector SalSrtpCryptoAlgo cryptoAlgoMax}
    {useLocalKey : Bool} {r : SalStreamDescription} {c : SalSrtpCryptoAlgo} {tag : UInt32}
    (hr : r.hasSrtp = true) (hm : matchCryptoAlgo locals remote useLocalKey = some (c, tag)) :
    (selectCrypto locals remote useLocalKey r).crypto[0] = c ∧
      (selectCrypto locals remote useLocalKey r).cryptoLocalTag = tag := by
  rw [selectCrypto, if_pos hr, hm]
  exact ⟨by simp, rfl⟩

theorem finishIncoming_crypto {ls rs r : SalStreamDescription} {c : SalSrtpCryptoAlgo}
    {tag : UInt32} (hr : r.hasSrtp = true)
    (hm : matchCryptoAlgo ls.crypto rs.crypto true = some (c, tag)) :
    (finishIncoming ls rs r).crypto[0] = c ∧ (finishIncoming ls rs r).cryptoLocalTag = tag := by
  unfold finishIncoming offeredDtls
  dsimp only
  split <;> exact selectCrypto_some hr hm

theorem finishOutgoing_crypto {ls rs r : SalStreamDescription} {c : SalSrtpCryptoAlgo}
    {tag : UInt32} (hr : r.hasSrtp = true)
    (hm : matchCryptoAlgo ls.crypto rs.crypto false = some (c, tag)) :
    (finishOutgoing ls rs r).crypto[0] = c ∧ (finishOutgoing ls rs r).cryptoLocalTag = tag := by
  have ht : (answeredTransport rs r).hasSrtp = true := by
    unfold answeredTransport
    split <;> exact hr
  unfold finishOutgoing answeredIdentity
  dsimp only
  split <;> exact selectCrypto_some ht hm

/-- An accepted SRTP stream carries the entry that was chosen. -/
theorem initiateIncoming_crypto {ls rs r : SalStreamDescription} {one : Bool}
    (hs : rs.hasSrtp = true) (hport : (initiateIncoming lib ls rs r one).2.rtpPort ≠ 0) :
    ∃ c tag, matchCryptoAlgo ls.crypto rs.crypto true = some (c, tag) ∧
      (initiateIncoming lib ls rs r one).2.crypto[0] = c ∧
      (initiateIncoming lib ls rs r one).2.cryptoLocalTag = tag := by
  have hacc := (initiateIncoming_rtpPort lib ls rs r one).mp hport
  simp only [acceptable, hs, Bool.not_true, Bool.false_or, Bool.and_eq_true] at hacc
  obtain ⟨⟨c, tag⟩, hm⟩ := Option.isSome_iff_exists.mp hacc.2
  have hmc : rs.isMulticast lib = false := by
    by_contra hmc
    simp [hmc] at hacc
  have hsr : ∀ r' : SalStreamDescription, r'.proto = rs.proto → r'.hasSrtp = true := by
    intro r' hr'
    simpa [SalStreamDescription.hasSrtp, hr'] using hs
  refine ⟨c, tag, hm, ?_⟩
  unfold initiateIncoming at hport ⊢
  simp only [hmc, Bool.false_eq_true, if_false] at hport ⊢
  split
  · simp_all
  · exact finishIncoming_crypto (hsr _ rfl) hm

theorem initiateOutgoing_crypto {ls rs r : SalStreamDescription} {c : SalSrtpCryptoAlgo}
    {tag : UInt32} (hport : rs.rtpPort ≠ 0) (hmc : ls.isMulticast lib = false)
    (hs : rs.hasSrtp = true) (hm : matchCryptoAlgo ls.crypto rs.crypto false = some (c, tag)) :
    (initiateOutgoing lib ls rs r).2.crypto[0] = c ∧
      (initiateOutgoing lib ls rs r).2.cryptoLocalTag = tag := by
  unfold initiateOutgoing
  rw [if_neg hport]
  simp only [hmc, Bool.false_eq_true, if_false]
  exact finishOutgoing_crypto hs hm

/-! ## Agreement -/

theorem toList_eq_cons (v : Vector SalSrtpCryptoAlgo cryptoAlgoMax) :
    ∃ tail, v.toList = v[0] :: tail := by
  have hlen : v.toList.length = cryptoAlgoMax := Vector.length_toList
  cases h : v.toList with
  | nil => simp [h] at hlen
  | cons e tail =>
      refine ⟨tail, ?_⟩
      have h0 : v.toList[0]? = some v[0] := by simp
      rw [h] at h0
      simpa using h0

/-- With distinct tags, the entry behind a later one of the same tag is itself. -/
theorem before_eq_nil {v : Vector SalSrtpCryptoAlgo cryptoAlgoMax} (htags : DistinctTags v)
    {before after : List SalSrtpCryptoAlgo} {r : SalSrtpCryptoAlgo}
    (hv : v.toList = before ++ r :: after) (hr : r.algo ≠ .invalid)
    (hb : ∀ b ∈ before, b.algo ≠ .invalid) (htag : v[0].tag = r.tag) : before = [] := by
  cases before with
  | nil => rfl
  | cons b bs =>
      have hlen : v.toList.length = cryptoAlgoMax := Vector.length_toList
      rw [hv] at hlen
      simp only [List.length_append, List.length_cons] at hlen
      have hlt : bs.length + 1 < cryptoAlgoMax := by omega
      have hr' : v[bs.length + 1] = r := by
        have : v.toList[bs.length + 1]? = some r := by rw [hv]; simp
        simpa [hlt] using this
      have hb' : v[0] = b := by
        have : v.toList[0]? = some b := by rw [hv]; simp
        simpa using this
      refine absurd htag ?_
      have hne := htags ⟨0, by decide⟩ ⟨bs.length + 1, hlt⟩ (Nat.succ_pos _)
      simp only [Fin.getElem_fin, hr', hb'] at hne
      rw [hb']
      exact hne (hb b (List.mem_cons_self ..)) hr

/-- The two results in terms of the choice `(r, l)` of the answerer. -/
theorem keysAgree_of_choice {offer locals answer result outcome : SalStreamDescription}
    {r l : SalSrtpCryptoAlgo} (htags : DistinctTags offer.crypto)
    (hm : matchCryptoAlgoFrom locals.crypto.toList offer.crypto.toList = some (r, l))
    (hans : answer.crypto[0] = { algo := r.algo, masterKey := l.masterKey, tag := r.tag })
    (hres : result.crypto[0] = offer.crypto[0]) (hrtag : result.cryptoLocalTag = l.tag)
    (hout : outcome.crypto[0] = { algo := r.algo, masterKey := l.masterKey, tag := r.tag })
    (hotag : outcome.cryptoLocalTag = r.tag) :
    KeysAgree offer locals answer result outcome ↔ FirstSuiteUsable offer locals := by
  obtain ⟨hr, hl, before, after, hv, hb⟩ := matchCryptoAlgoFrom_some hm
  obtain ⟨tail, htail⟩ := toList_eq_cons offer.crypto
  constructor
  · rintro ⟨⟨e, -, htag, -, -, hreseq⟩, -, -, -, hsend, hosend⟩
    -- the copied entry has the answered tag, so it is the chosen one
    have htag0 : offer.crypto[0].tag = r.tag := by
      rw [← hres, hreseq, htag, hans]
    have hnil := before_eq_nil htags hv hr (fun b hbm => (hb b hbm).1) htag0
    have hr0 : offer.crypto[0] = r := by
      rw [hnil, htail] at hv
      exact (List.cons.inj hv).1
    refine ⟨l, by rw [hr0]; exact hl, ?_, ?_⟩
    · simp only [srtpSend, srtpRecv, hrtag, hout, Option.map_eq_some_iff, Prod.mk.injEq] at hsend
      obtain ⟨key, hkey, -, rfl⟩ := hsend
      exact hkey
    · simp only [srtpSend, srtpRecv, hotag, hres, Option.map_eq_some_iff, Prod.mk.injEq] at hosend
      obtain ⟨key, hkey, -, rfl⟩ := hosend
      rw [htag0]
      exact hkey
  · rintro ⟨l', hl', hkey, hokey⟩
    -- the first entry already matches, so nothing was skipped
    have hr0 : offer.crypto[0] = r := by
      cases before with
      | nil => rw [htail] at hv; exact (List.cons.inj hv).1
      | cons b bs =>
          rw [htail] at hv
          rw [(List.cons.inj hv).1, (hb b (List.mem_cons_self ..)).2] at hl'
          exact absurd hl' (by simp)
    rw [hr0] at hl' hokey hres
    rw [hl] at hl'
    obtain rfl := Option.some.inj hl'
    have hlalgo : r.algo = l.algo := by simpa using List.find?_some hl
    refine ⟨⟨r, hv ▸ by simp, by rw [hans], by rw [hans],
      ⟨l, List.mem_of_find?_eq_some hl, hlalgo.symm⟩, hres⟩, by rw [hout, hans],
      by rw [hout, hans], by rw [hotag, hans], ?_, ?_⟩
    · simp [srtpSend, srtpRecv, hrtag, hkey, hres, hout]
    · simp [srtpSend, srtpRecv, hotag, hokey, hres, hout]

theorem nullSendonlyAddresses_stream (md : SalMediaDescription) {k : Nat} (hk : k < md.nbStreams) :
    (nullSendonlyAddresses lib md).stream k =
      { md.stream k with
        rtpAddr :=
          if (md.stream k).dir = .sendOnly then setAddrTo0000 lib (md.stream k).rtpAddr
          else (md.stream k).rtpAddr
        rtcpAddr := setAddrTo0000 lib (md.stream k).rtcpAddr } :=
  SalMediaDescription.stream_mapStreams { md with addr := setAddrTo0000 lib md.addr } _ hk

theorem copyBack_stream (remote answer : SalMediaDescription) {k : Nat}
    (hk : k < answer.nbStreams) :
    (copyBack remote answer).stream k = copyBackStream (remote.stream k) (answer.stream k) :=
  SalMediaDescription.stream_mapStreams
    { answer with addr := remote.addr, bandwidth := remote.bandwidth } _ hk

/-- The address rewriting leaves transport, port and crypto of the answer alone. -/
theorem sentAnswer_stream (h : SalOp) (remote : SalMediaDescription) {k : Nat}
    (hk : k < remote.nbStreams) :
    let st := (answerTo lib h.localMedia remote h.oneMatchingCodec).stream k
    let sent := (sentAnswer lib h remote).stream k
    (sentAnswer lib h remote).nbStreams = remote.nbStreams ∧ sent.proto = st.proto ∧
      sent.rtpPort = st.rtpPort ∧ sent.crypto = st.crypto ∧
      sent.cryptoLocalTag = st.cryptoLocalTag := by
  unfold sentAnswer
  dsimp only
  split
  · refine ⟨rfl, ?_⟩
    rw [nullSendonlyAddresses_stream lib (answerTo lib h.localMedia remote h.oneMatchingCodec) hk]
    exact ⟨rfl, rfl, rfl, rfl⟩
  · exact ⟨rfl, rfl, rfl, rfl, rfl⟩

/-- An accepted SRTP m-line of the answer: the local stream, the choice it made, and the entry and
tag it carries. -/
theorem sentAnswer_choice {h : SalOp} {remote : SalMediaDescription} {k : Nat}
    (hk : k < remote.nbStreams) (hs : (remote.stream k).hasSrtp = true)
    (hport : ((sentAnswer lib h remote).stream k).rtpPort ≠ 0) :
    ∃ j r l, matching h.localMedia (remote.stream k) = some j ∧
      matchCryptoAlgoFrom (h.localMedia.stream j).crypto.toList (remote.stream k).crypto.toList =
        some (r, l) ∧
      acceptable lib (h.localMedia.stream j) (remote.stream k) = true ∧
      ((sentAnswer lib h remote).stream k).proto = (remote.stream k).proto ∧
      ((sentAnswer lib h remote).stream k).crypto[0] =
        { algo := r.algo, masterKey := l.masterKey, tag := r.tag } ∧
      ((sentAnswer lib h remote).stream k).cryptoLocalTag = l.tag := by
  obtain ⟨-, hproto, hp, hcrypto, htag⟩ := sentAnswer_stream lib h remote hk
  rw [hp] at hport
  have hknown : (remote.stream k).proto ≠ .other := by
    intro hother
    simp [SalStreamDescription.hasSrtp, hother] at hs
  obtain ⟨j, hj, hacc⟩ := (accepted_iff lib h.localMedia remote h.oneMatchingCodec hk).mp hport
  have hst := incoming_stream lib h.localMedia remote h.oneMatchingCodec hk
  rw [hj] at hst
  rw [served_of_known _ _ hknown] at hj
  have hmline := hst.mline
  obtain ⟨ps, x, -, heq⟩ := hst
  rw [heq] at hport
  obtain ⟨c, tag, hm, hc, ht⟩ := initiateIncoming_crypto lib hs hport
  simp only [matchCryptoAlgo, if_true, Option.map_eq_some_iff, Prod.mk.injEq] at hm
  obtain ⟨⟨r, l⟩, hm, hrc, hlt⟩ := hm
  refine ⟨j, r, l, hj, hm, hacc, ?_, ?_, ?_⟩
  · rw [hproto]
    exact congrArg Prod.fst hmline
  · simp only [hcrypto, heq, hrc]
    exact hc
  · rw [htag, heq, hlt]
    exact ht

/-- **The keys agree exactly when the first offered suite is usable.** `h` answers an offer whose
m-line `k` carries the stream `offer`, and accepts it; the offerer negotiates `offer` with the
answered m-line it receives. -/
theorem keysAgree_iff {h : SalOp} {remote answer result : SalMediaDescription} {k : Nat}
    {offer rcv : SalStreamDescription} (hrem : h.remoteMedia = some remote)
    (hinc : h.sdpOffering = false) (hk : k < remote.nbStreams)
    (hoffer : Received offer (remote.stream k)) (hsrtp : offer.hasSrtp = true)
    (htags : DistinctTags offer.crypto) (hansw : (sdpProcess lib h).sdpAnswer = some answer)
    (hres : (sdpProcess lib h).result = some result) (hacc : (answer.stream k).rtpPort ≠ 0)
    (hrcv : Received (answer.stream k) rcv) :
    ∃ j, matching h.localMedia (remote.stream k) = some j ∧
      (KeysAgree offer (h.localMedia.stream j) (answer.stream k) (result.stream k)
          (initiateOutgoing lib offer rcv {}).2 ↔
        FirstSuiteUsable offer (h.localMedia.stream j)) := by
  simp only [sdpProcess, hrem, hinc, Bool.false_eq_true, if_false, Option.some.injEq] at hansw hres
  subst hansw hres
  have hs : (remote.stream k).hasSrtp = true := by
    simpa [SalStreamDescription.hasSrtp, hoffer.proto] using hsrtp
  obtain ⟨j, r, l, hj, hm, hok, hproto, hc, htag⟩ := sentAnswer_choice lib hk hs hacc
  rw [hoffer.crypto] at hm
  -- the answerer's result: the first remote entry over the choice, the local tag kept
  have hstream : (copyBack remote (sentAnswer lib h remote)).stream k =
      copyBackStream (remote.stream k) ((sentAnswer lib h remote).stream k) :=
    copyBack_stream remote _ ((sentAnswer_stream lib h remote hk).1 ▸ hk)
  have hsecure : ((sentAnswer lib h remote).stream k).proto = .rtpSavpf ∨
      ((sentAnswer lib h remote).stream k).proto = .rtpSavp := by
    rw [hproto]
    simpa [SalStreamDescription.hasSrtp, or_comm] using hs
  have hres0 : ((copyBack remote (sentAnswer lib h remote)).stream k).crypto[0] =
      offer.crypto[0] := by
    simp only [hstream, copyBackStream, if_pos hacc, if_pos hsecure, hoffer.crypto]
    simp
  have hrtag : ((copyBack remote (sentAnswer lib h remote)).stream k).cryptoLocalTag = l.tag := by
    simp only [hstream, copyBackStream, if_pos hacc]
    exact htag
  -- the offerer's result: what it finds for the answered entry
  have hmc : offer.isMulticast lib = false := by
    have hmc' : (remote.stream k).isMulticast lib = false := by
      by_contra hmc'
      simp [acceptable, hmc', hs] at hok
    simpa [SalStreamDescription.isMulticast, hoffer.rtpAddr] using hmc'
  have hout : matchCryptoAlgo offer.crypto rcv.crypto false =
      some ({ algo := r.algo, masterKey := l.masterKey, tag := r.tag }, r.tag) := by
    obtain ⟨tail, htail⟩ := toList_eq_cons rcv.crypto
    have hr := (matchCryptoAlgoFrom_some hm).1
    simp only [hrcv.crypto, hc] at htail
    simp [matchCryptoAlgo, hrcv.crypto, htail, matchCryptoAlgoFrom, hr, find?_chosen hm]
  have hs' : rcv.hasSrtp = true := by
    simpa [SalStreamDescription.hasSrtp, hrcv.proto, hproto] using hs
  obtain ⟨hout0, hotag⟩ := initiateOutgoing_crypto lib (r := {}) (hrcv.rtpPort ▸ hacc) hmc hs' hout
  exact ⟨j, hj, keysAgree_of_choice htags hm hc hres0 hrtag hout0 hotag⟩

/-- SDES streams of one suite list. -/
def secureAudio (port : Int) (crypto : Vector SalSrtpCryptoAlgo cryptoAlgoMax) :
    SalStreamDescription :=
  { plainStream .audio .rtpSavp port "PCMU" with crypto := crypto }

/-- An operation that answers the one m-line `offer` with the one local stream `locals`. -/
def answering (locals offer : SalStreamDescription) : SalOp where
  localMedia := lines 1 locals
  remoteMedia := some (lines 1 offer)
  sdpOffering := false

/-- Two suites offered, the second the only local one: the answerer keeps the first offered
entry, although the answer names the second. -/
theorem second_suite_keys_disagree :
    let offer := secureAudio 9078 #v[⟨1, .aes128Sha1_80, "a"⟩, ⟨2, .aes128Sha1_32, "b"⟩, {}, {}]
    let locals := secureAudio 7078 #v[⟨1, .aes128Sha1_32, "c"⟩, {}, {}, {}]
    let h := sdpProcess plainLib (answering locals offer)
    DistinctTags offer.crypto ∧ ∃ answer result, h.sdpAnswer = some answer ∧
      h.result = some result ∧ (answer.stream 0).rtpPort ≠ 0 ∧
      ¬KeysAgree offer locals (answer.stream 0) (result.stream 0)
        (initiateOutgoing plainLib offer (answer.stream 0) {}).2 := by
  refine ⟨by unfold DistinctTags; decide, _, _, rfl, rfl, by decide, fun hagree => ?_⟩
  obtain ⟨e, -, htag, -, -, he⟩ := hagree.chosen
  rw [← he] at htag
  exact absurd htag (by decide)

/-- The first suite shared: the condition holds at a concrete exchange. -/
theorem keysAgree_iff_first :
    let offer := secureAudio 9078 #v[⟨1, .aes128Sha1_80, "a"⟩, ⟨2, .aes128Sha1_32, "b"⟩, {}, {}]
    let locals := secureAudio 7078 #v[⟨1, .aes128Sha1_80, "c"⟩, {}, {}, {}]
    let h := answering locals offer
    let answer := sentAnswer plainLib h (lines 1 offer)
    ∃ j, matching h.localMedia ((lines 1 offer).stream 0) = some j ∧
      (KeysAgree offer (h.localMedia.stream j) (answer.stream 0)
          ((copyBack (lines 1 offer) answer).stream 0)
          (initiateOutgoing plainLib offer (answer.stream 0) {}).2 ↔
        FirstSuiteUsable offer (h.localMedia.stream j)) :=
  keysAgree_iff plainLib rfl rfl (by decide) ⟨rfl, rfl, rfl, rfl⟩ rfl
    (by unfold DistinctTags; decide) rfl rfl (by decide) ⟨rfl, rfl, rfl, rfl⟩

end Linphone
