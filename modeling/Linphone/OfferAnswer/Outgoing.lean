import Linphone.OfferAnswer.Streams

/-!
# Reading an answer

`offer_answer_initiate_outgoing`: the description to run the streams with, from a local offer and
the answer to it.

The loop walks over the offer with `i` and looks each stream up in the answer by transport and
type; what it finds is negotiated into slot `j` of the result, which only moves on a hit, while
the RTCP-XR settings go to slot `i`. So slot `i` of the result need not be about position `i` at
all. `outgoing_stream` says what every slot holds, for all inputs: `source` names the pair of
m-lines its media comes from and `xrSource` the answered m-line its RTCP-XR settings come from.
The rest of the module is about these two: each slot is about its own position exactly when the
answer is `InStep` with the offer.
-/

namespace Linphone

variable (lib : MediaLib) (offer answer result : SalMediaDescription)

/-! ## The function -/

/-- The RTCP-XR settings kept from the offer. -/
def negotiatedRtcpXr (locals remote : OrtpRtcpXrConfiguration) : OrtpRtcpXrConfiguration :=
  if locals.enabled && !remote.enabled then { locals with enabled := false } else locals

/-- `memcpy` into the RTCP-XR settings of a stream. -/
def SalStreamDescription.setRtcpXr (sd : SalStreamDescription) (x : OrtpRtcpXrConfiguration) :
    SalStreamDescription :=
  { sd with rtcpXr := x }

/-- The variables of the loop; the matchers may change `local_offer`. -/
structure OutgoingState where
  offer : SalMediaDescription
  result : SalMediaDescription
  j : Nat

/-- A round that found `rs` for the stream `ls = &local_offer->streams[i]`. -/
def outgoingFound (s : OutgoingState) (i : Nat) (ls rs : SalStreamDescription) : OutgoingState :=
  let r := initiateOutgoing lib ls rs (s.result.stream s.j)
  let result := s.result.setStream s.j r.2
  { offer := s.offer.setStream i { ls with payloads := r.1 }
    result := result.setStream i
      ((result.stream i).setRtcpXr (negotiatedRtcpXr ls.rtcpXr rs.rtcpXr))
    j := s.j + 1 }

/-- The body of the loop, at stream `i` of the offer. -/
def outgoingStep (s : OutgoingState) (i : Nat) : OutgoingState :=
  let ls := s.offer.stream i
  match answer.findStream ls.proto ls.type with
  | some k => outgoingFound lib s i ls (answer.stream k)
  | none => s -- no matching stream: a warning

/-- The loop of `offer_answer_initiate_outgoing` over the first `n` streams of the offer. -/
def outgoingLoop (n : Nat) : OutgoingState :=
  (List.range n).foldl (outgoingStep lib answer) { offer := offer, result := result, j := 0 }

/-- `offer_answer_initiate_outgoing`: `local_offer` after the call, and the result. -/
def offerAnswerInitiateOutgoing : SalMediaDescription × SalMediaDescription :=
  let s := outgoingLoop lib offer answer result offer.nbStreams
  (s.offer,
    { s.result with
      nbStreams := offer.nbStreams, nb_le := offer.nb_le
      bandwidth := answer.bandwidth
      addr := answer.addr
      rtcpXr := negotiatedRtcpXr offer.rtcpXr answer.rtcpXr })

/-! ## What each slot holds -/

/-- The stream of the answer that stream `i` of the offer is looked up to. -/
def lookup (i : Nat) : Option Nat :=
  answer.findStream (offer.stream i).proto (offer.stream i).type

/-- The pairs negotiated by the first `n` rounds, in order: the `t`-th goes to slot `t`. -/
def pairs (n : Nat) : List (Nat × Nat) :=
  (List.range n).filterMap fun i => (lookup offer answer i).map (i, ·)

/-- The pair of m-lines that slot `t` of the result is the negotiation of. -/
def source (t : Nat) : Option (Nat × Nat) := (pairs offer answer offer.nbStreams)[t]?

/-- The m-line of the answer the RTCP-XR settings of slot `t` come from. -/
def xrSource (t : Nat) : Option Nat := if t < offer.nbStreams then lookup offer answer t else none

/-- A slot filled from the pair `src`, with the RTCP-XR settings of `xr`. -/
def filled (src : Option (Nat × Nat)) (t : Nat) (xr : Option Nat) : SalStreamDescription :=
  (match src with
    | some (i, k) => (initiateOutgoing lib (offer.stream i) (answer.stream k) {}).2
    | none => {}).setRtcpXr <|
  match xr with
    | some k => negotiatedRtcpXr (offer.stream t).rtcpXr (answer.stream k).rtcpXr
    | none => {}

theorem foldl_range_succ {σ : Type} (f : σ → Nat → σ) (a : σ) (n : Nat) :
    (List.range (n + 1)).foldl f a = f ((List.range n).foldl f a) n := by
  rw [List.range_succ, List.foldl_append]
  rfl

section

variable (ls rs r : SalStreamDescription) (x : OrtpRtcpXrConfiguration)

theorem selectCrypto_setRtcpXr (useLocalKey : Bool) :
    selectCrypto ls.crypto rs.crypto useLocalKey (r.setRtcpXr x) =
      (selectCrypto ls.crypto rs.crypto useLocalKey r).setRtcpXr x := by
  have hs : (r.setRtcpXr x).hasSrtp = r.hasSrtp := rfl
  unfold selectCrypto
  rw [hs]
  cases r.hasSrtp
  · rfl
  · cases matchCryptoAlgo ls.crypto rs.crypto useLocalKey <;> rfl

theorem answeredTransport_setRtcpXr :
    answeredTransport rs (r.setRtcpXr x) = (answeredTransport rs r).setRtcpXr x := by
  have hp : (r.setRtcpXr x).payloads = r.payloads := rfl
  unfold answeredTransport
  rw [hp]
  cases !r.payloads.isEmpty && !onlyTelephoneEvent r.payloads <;> rfl

theorem answeredIdentity_setRtcpXr :
    answeredIdentity ls rs (r.setRtcpXr x) = (answeredIdentity ls rs r).setRtcpXr x := by
  unfold answeredIdentity
  cases bothDtls ls rs <;> rfl

theorem finishOutgoing_setRtcpXr :
    finishOutgoing ls rs (r.setRtcpXr x) = (finishOutgoing ls rs r).setRtcpXr x := by
  unfold finishOutgoing
  rw [answeredTransport_setRtcpXr, selectCrypto_setRtcpXr, answeredIdentity_setRtcpXr]

/-- `initiate_outgoing` neither reads nor writes the RTCP-XR settings of the result. -/
theorem initiateOutgoing_setRtcpXr :
    (initiateOutgoing lib ls rs (r.setRtcpXr x)).2 =
      (initiateOutgoing lib ls rs r).2.setRtcpXr x := by
  unfold initiateOutgoing
  by_cases hport : rs.rtpPort = 0
  · rw [if_pos hport, if_pos hport]; rfl
  · rw [if_neg hport, if_neg hport]
    let m := matchPayloads lib ls.payloads rs.payloads true false
    cases ls.isMulticast lib
    · exact finishOutgoing_setRtcpXr ls rs
        { r with
          payloads := m.2, proto := rs.proto, type := ls.type
          dir := computeDirOutgoing ls.dir rs.dir } x
    · cases multicastMismatch ls rs
      · exact finishOutgoing_setRtcpXr ls rs
          { r with
            payloads := m.2, proto := rs.proto, type := ls.type
            ttl := ls.ttl, dir := ls.dir, multicastRole := .sender } x
      · rfl

end

/-! ## The loop invariant -/

theorem pairs_succ_some {n k : Nat} (h : lookup offer answer n = some k) :
    pairs offer answer (n + 1) = pairs offer answer n ++ [(n, k)] := by
  simp [pairs, List.range_succ, List.filterMap_append, h]

theorem pairs_succ_none {n : Nat} (h : lookup offer answer n = none) :
    pairs offer answer (n + 1) = pairs offer answer n := by
  simp [pairs, List.range_succ, List.filterMap_append, h]

theorem length_pairs_le (n : Nat) : (pairs offer answer n).length ≤ n := by
  have h := List.length_filterMap_le (fun i => (lookup offer answer i).map (i, ·)) (List.range n)
  simpa [pairs] using h

/-- What the loop maintains over its first `n` rounds: `j` counts the pairs, the offer is
untouched from `n` on, and every slot is filled from its pair and its RTCP-XR source. -/
structure LoopInv (n : Nat) (s : OutgoingState) : Prop where
  j_eq : s.j = (pairs offer answer n).length
  offer_eq : ∀ i, n ≤ i → s.offer.stream i = offer.stream i
  slot_eq : ∀ t < maxStreams, s.result.stream t =
    filled lib offer answer (pairs offer answer n)[t]? t
      (if t < n then lookup offer answer t else none)

theorem filled_none (t : Nat) : filled lib offer answer none t none = {} := rfl

theorem initiateOutgoing_filled (i k t : Nat) (xr : Option Nat) :
    (initiateOutgoing lib (offer.stream i) (answer.stream k)
      (filled lib offer answer none t xr)).2 = filled lib offer answer (some (i, k)) t xr :=
  initiateOutgoing_setRtcpXr lib (offer.stream i) (answer.stream k) {} _

theorem setRtcpXr_filled (src : Option (Nat × Nat)) (t k : Nat) (xr : Option Nat) :
    (filled lib offer answer src t xr).setRtcpXr
        (negotiatedRtcpXr (offer.stream t).rtcpXr (answer.stream k).rtcpXr) =
      filled lib offer answer src t (some k) := rfl

theorem getElem?_concat_ne {α : Type} (l : List α) (a : α) {t : Nat} (h : t ≠ l.length) :
    (l ++ [a])[t]? = l[t]? := by
  rcases Nat.lt_or_gt_of_ne h with hlt | hgt
  · exact List.getElem?_append_left hlt
  · rw [List.getElem?_eq_none (by simp; omega), List.getElem?_eq_none (by omega)]

theorem loopInv_zero :
    LoopInv lib offer answer 0 (outgoingLoop lib offer answer .new 0) where
  j_eq := rfl
  offer_eq _ _ := rfl
  slot_eq t _ := by
    have hp : (pairs offer answer 0)[t]? = none := by simp [pairs]
    rw [hp, if_neg (Nat.not_lt_zero t), filled_none]
    exact SalMediaDescription.stream_new t

theorem loopInv_step {n : Nat} {s : OutgoingState} (hn : n < maxStreams)
    (h : LoopInv lib offer answer n s) :
    LoopInv lib offer answer (n + 1) (outgoingStep lib answer s n) := by
  have hls := h.offer_eq n (Nat.le_refl n)
  cases hk : lookup offer answer n with
  | none =>
      have hstep : outgoingStep lib answer s n = s := by
        simp only [outgoingStep, hls]
        rw [show answer.findStream (offer.stream n).proto (offer.stream n).type = none from hk]
      rw [hstep]
      refine ⟨by rw [h.j_eq, pairs_succ_none offer answer hk],
        fun i hi => h.offer_eq i (by omega), fun t ht => ?_⟩
      rw [h.slot_eq t ht, pairs_succ_none offer answer hk]
      -- slot `n` had no RTCP-XR source yet and gets none
      by_cases htn : t = n
      · subst htn; simp [hk]
      · have : t < n + 1 ↔ t < n := by omega
        simp only [this]
  | some k =>
      have hj : s.j < maxStreams := by
        have := length_pairs_le offer answer n
        have := h.j_eq
        omega
      have hpairs := pairs_succ_some offer answer hk
      let xr := fun t => if t < n then lookup offer answer t else none
      -- the media write: slot `j` was empty, all others keep their pair
      have hmedia : ∀ t < maxStreams,
          (s.result.setStream s.j
            (initiateOutgoing lib (offer.stream n) (answer.stream k)
              (s.result.stream s.j)).2).stream t =
            filled lib offer answer (pairs offer answer (n + 1))[t]? t (xr t) := by
        intro t ht
        rw [hpairs]
        by_cases htj : s.j = t
        · subst htj
          have hnone : (pairs offer answer n)[s.j]? = none := by simp [h.j_eq]
          rw [SalMediaDescription.stream_setStream_self _ _ ht, h.slot_eq s.j ht, hnone,
            initiateOutgoing_filled, h.j_eq, List.getElem?_concat_length]
        · rw [SalMediaDescription.stream_setStream_ne _ _ htj, h.slot_eq t ht,
            getElem?_concat_ne _ _ (h.j_eq ▸ Ne.symm htj)]
      have hstep : outgoingStep lib answer s n =
          outgoingFound lib s n (offer.stream n) (answer.stream k) := by
        simp only [outgoingStep, hls]
        rw [show answer.findStream (offer.stream n).proto (offer.stream n).type = some k from hk]
      rw [hstep, outgoingFound]
      refine ⟨by simp [h.j_eq, hpairs], fun i hi => ?_, fun t ht => ?_⟩
      · rw [SalMediaDescription.stream_setStream_ne _ _ (by omega)]
        exact h.offer_eq i (by omega)
      · by_cases htn : n = t
        · subst htn
          rw [SalMediaDescription.stream_setStream_self _ _ ht, hmedia n ht, setRtcpXr_filled,
            if_pos (Nat.lt_succ_self n), hk]
        · rw [SalMediaDescription.stream_setStream_ne _ _ htn, hmedia t ht]
          have : t < n + 1 ↔ t < n := by omega
          simp only [this, xr]

theorem loopInv (n : Nat) (hn : n ≤ maxStreams) :
    LoopInv lib offer answer n (outgoingLoop lib offer answer .new n) := by
  induction n with
  | zero => exact loopInv_zero lib offer answer
  | succ n ih =>
      unfold outgoingLoop
      rw [foldl_range_succ]
      exact loopInv_step lib offer answer (by omega) (ih (by omega))

/-- **What every slot of the result holds**, for any offer and any answer. -/
theorem outgoing_stream {t : Nat} (ht : t < maxStreams) :
    (offerAnswerInitiateOutgoing lib offer answer .new).2.stream t =
      filled lib offer answer (source offer answer t) t (xrSource offer answer t) :=
  (loopInv lib offer answer offer.nbStreams offer.nb_le).slot_eq t ht

/-! ## When each slot is about its own position -/

/-- The m-line of the answer has not been refused and is of the offered transport and type. -/
def answers (ls rs : SalStreamDescription) : Bool :=
  rs.active && rs.proto == ls.proto && rs.type == ls.type

/-- The negotiation of one offered stream with the answer to it. -/
def negotiation (ls rs : SalStreamDescription) : SalStreamDescription :=
  if answers ls rs then
    (initiateOutgoing lib ls rs {}).2.setRtcpXr (negotiatedRtcpXr ls.rtcpXr rs.rtcpXr)
  else {}

/-- Every stream of the result is the negotiation of the two streams at its position. -/
def PositionWise : Prop :=
  let res := (offerAnswerInitiateOutgoing lib offer answer .new).2
  res.nbStreams = offer.nbStreams ∧ ∀ t < offer.nbStreams,
    res.stream t = negotiation lib (offer.stream t) (answer.stream t) ∧
      ((answer.stream t).rtpPort = 0 → (res.stream t).rtpPort = 0)

/-- The answer keeps step with the offer: up to some position every offered stream is found at its
own position, and from there on none is found. -/
def InStep : Prop :=
  ∃ p ≤ offer.nbStreams, (∀ i < p, lookup offer answer i = some i) ∧
    ∀ i < offer.nbStreams, p ≤ i → lookup offer answer i = none

/-- Slot `t` is filled from position `t` of both descriptions, or from none. -/
def OwnSource (t : Nat) : Prop :=
  source offer answer t = if answers (offer.stream t) (answer.stream t) then some (t, t) else none

/-- Two descriptions with the same m-lines: types, transports and which of them are refused. -/
structure SameMLines (d d' : SalMediaDescription) : Prop where
  nbStreams : d'.nbStreams = d.nbStreams
  line : ∀ t < d.nbStreams, (d'.stream t).type = (d.stream t).type ∧
    (d'.stream t).proto = (d.stream t).proto ∧ (d'.stream t).active = (d.stream t).active

theorem lookup_eq_some {i k : Nat} :
    lookup offer answer i = some k ↔ answers (offer.stream i) (answer.stream k) ∧
      k < answer.nbStreams ∧ ∀ j < k, ¬answers (offer.stream i) (answer.stream j) := by
  simp only [lookup, SalMediaDescription.findStream_eq_some, answers, Bool.and_eq_true, beq_iff_eq,
    and_assoc]

theorem lookup_eq_none {i : Nat} :
    lookup offer answer i = none ↔
      ∀ k < answer.nbStreams, ¬answers (offer.stream i) (answer.stream k) := by
  simp only [lookup, SalMediaDescription.findStream_eq_none, answers, Bool.and_eq_true, beq_iff_eq,
    and_assoc]

theorem lookup_congr {o a : SalMediaDescription} (ho : SameMLines offer o)
    (ha : SameMLines answer a)
    {i : Nat} (hi : i < offer.nbStreams) : lookup o a i = lookup offer answer i := by
  have hans : ∀ k < answer.nbStreams, answers (o.stream i) (a.stream k) =
      answers (offer.stream i) (answer.stream k) := by
    intro k hk
    obtain ⟨hot, hop, -⟩ := ho.line i hi
    obtain ⟨hat, hap, haa⟩ := ha.line k hk
    simp only [answers, hot, hop, hat, hap, haa]
  cases h : lookup offer answer i with
  | none =>
      rw [lookup_eq_none] at h ⊢
      intro k hk
      rw [ha.nbStreams] at hk
      rw [hans k hk]
      exact h k hk
  | some k =>
      rw [lookup_eq_some] at h ⊢
      obtain ⟨hk, hlt, hmin⟩ := h
      refine ⟨by rw [hans k hlt]; exact hk, by rw [ha.nbStreams]; exact hlt, fun j hj => ?_⟩
      rw [hans j (by omega)]
      exact hmin j hj

theorem InStep.congr {o a : SalMediaDescription} (ho : SameMLines offer o)
    (ha : SameMLines answer a) (h : InStep offer answer) : InStep o a := by
  obtain ⟨p, hp, hown, hnone⟩ := h
  refine ⟨p, by rw [ho.nbStreams]; exact hp, fun i hi => ?_, fun i hi hpi => ?_⟩
  · rw [lookup_congr offer answer ho ha (by omega)]
    exact hown i hi
  · rw [ho.nbStreams] at hi
    rw [lookup_congr offer answer ho ha hi]
    exact hnone i hi hpi

/-- In step, the first `n` rounds pair each of the first `p` positions with itself. -/
theorem pairs_of_inStep {p : Nat} (hown : ∀ i < p, lookup offer answer i = some i)
    (hnone : ∀ i < offer.nbStreams, p ≤ i → lookup offer answer i = none) {n : Nat}
    (hn : n ≤ offer.nbStreams) :
    pairs offer answer n = (List.range (min n p)).map fun i => (i, i) := by
  induction n with
  | zero => simp [pairs]
  | succ n ih =>
      by_cases hnp : n < p
      · rw [pairs_succ_some offer answer (hown n hnp), ih (by omega),
          show min (n + 1) p = min n p + 1 by omega, List.range_succ, List.map_append,
          show min n p = n by omega]
        rfl
      · rw [pairs_succ_none offer answer (hnone n (by omega) (by omega)), ih (by omega),
          show min (n + 1) p = min n p by omega]

theorem mem_pairs {n i k : Nat} :
    (i, k) ∈ pairs offer answer n ↔ i < n ∧ lookup offer answer i = some k := by
  simp only [pairs, List.mem_filterMap, List.mem_range, Option.map_eq_some_iff, Prod.mk.injEq]
  constructor
  · rintro ⟨i', hi', k', hk', rfl, rfl⟩
    exact ⟨hi', hk'⟩
  · rintro ⟨hi, hk⟩
    exact ⟨i, hi, k, hk, rfl, rfl⟩

/-- In step, position `t` is answered exactly when it is before `p`. -/
theorem answers_of_inStep {p t : Nat} (h : offer.nbStreams = answer.nbStreams)
    (hown : ∀ i < p, lookup offer answer i = some i)
    (hnone : ∀ i < offer.nbStreams, p ≤ i → lookup offer answer i = none)
    (ht : t < offer.nbStreams) :
    answers (offer.stream t) (answer.stream t) = decide (t < p) := by
  by_cases htp : t < p
  · simpa [htp] using ((lookup_eq_some offer answer).mp (hown t htp)).1
  · simpa [htp] using (lookup_eq_none offer answer).mp (hnone t ht (by omega)) t (by omega)

/-- **Every slot has its own source exactly when the answer is in step.** -/
theorem ownSource_iff (h : offer.nbStreams = answer.nbStreams) :
    (∀ t < offer.nbStreams, OwnSource offer answer t) ↔ InStep offer answer := by
  constructor
  · intro hsrc
    refine ⟨(pairs offer answer offer.nbStreams).length, length_pairs_le .., ?_, ?_⟩
    all_goals
      have hpair : ∀ {t : Nat} {q : Nat × Nat},
          (pairs offer answer offer.nbStreams)[t]? = some q → q = (t, t) := by
        intro t q hq
        have hlt := (List.getElem?_eq_some_iff.mp hq).1
        have hle := length_pairs_le offer answer offer.nbStreams
        have hown := hsrc t (by omega)
        simp only [OwnSource, source, hq] at hown
        split at hown
        · exact Option.some.inj hown
        · exact absurd hown (by simp)
    · intro i hi
      have hget := List.getElem?_eq_getElem hi
      have hmem : (i, i) ∈ pairs offer answer offer.nbStreams :=
        hpair hget ▸ List.getElem_mem hi
      exact ((mem_pairs offer answer).mp hmem).2
    · intro i hi hpi
      -- a pair for `i` sits in some slot, and that slot is slot `i`
      cases hk : lookup offer answer i with
      | none => rfl
      | some k =>
          obtain ⟨t, hlt, hget⟩ := List.mem_iff_getElem.mp ((mem_pairs offer answer).mpr ⟨hi, hk⟩)
          have heq := hpair (List.getElem?_eq_some_iff.mpr ⟨hlt, hget⟩)
          simp only [Prod.mk.injEq] at heq
          omega
  · rintro ⟨p, hp, hown, hnone⟩ t ht
    have hans := answers_of_inStep offer answer h hown hnone ht
    rw [OwnSource, hans, source, pairs_of_inStep offer answer hown hnone (Nat.le_refl _),
      Nat.min_eq_right hp]
    by_cases htp : t < p <;> simp [htp]

theorem InStep.positionWise (h : offer.nbStreams = answer.nbStreams)
    (hstep : InStep offer answer) : PositionWise lib offer answer := by
  have hsrc := (ownSource_iff offer answer h).mpr hstep
  obtain ⟨p, hp, hown, hnone⟩ := hstep
  refine ⟨rfl, fun t ht => ?_⟩
  have hans := answers_of_inStep offer answer h hown hnone ht
  have hstream : (offerAnswerInitiateOutgoing lib offer answer .new).2.stream t =
      negotiation lib (offer.stream t) (answer.stream t) := by
    rw [outgoing_stream lib offer answer (offer.lt_maxStreams ht), hsrc t ht, negotiation, hans,
      xrSource, if_pos ht]
    by_cases htp : t < p
    · simp only [htp, decide_true, if_true, hown t htp]; rfl
    · simp only [htp, decide_false, Bool.false_eq_true, if_false, hnone t ht (by omega)]; rfl
  refine ⟨hstream, fun hport => ?_⟩
  have href : answers (offer.stream t) (answer.stream t) = false := by
    simp [answers, SalStreamDescription.active, hport]
  rw [hstream, negotiation, href]
  rfl

/-! ### The condition cannot be weakened

Out of step, there are streams with the same m-lines whose results do get mixed up: `mark` names
every stream after its position, and the negotiation carries both names over. -/

/-- A text that tells its position. -/
def markText (k : Nat) : String := String.ofList (List.replicate (k + 1) 'a')

theorem markText_inj {k k' : Nat} (h : markText k = markText k') : k = k' := by
  have := congrArg (fun s : String => s.toList.length) h
  simpa [markText] using this

theorem markText_ne (k : Nat) : markText k ≠ "" := by
  intro h
  have := congrArg (fun s : String => s.toList.length) h
  simp [markText] at this

/-- The same m-lines, with every stream named after its position. -/
def mark (md : SalMediaDescription) : SalMediaDescription :=
  { md with
    streams := Vector.ofFn fun i =>
      { md.stream i with
        rtpAddr := "", rtcpCname := markText i, dtlsFingerprint := markText i
        dtlsRole := .isServer } }

theorem stream_mark (md : SalMediaDescription) {t : Nat} (ht : t < maxStreams) :
    (mark md).stream t =
      { md.stream t with
        rtpAddr := "", rtcpCname := markText t, dtlsFingerprint := markText t
        dtlsRole := .isServer } := by
  simp [mark, SalMediaDescription.stream, ht]

theorem sameMLines_mark (md : SalMediaDescription) : SameMLines md (mark md) where
  nbStreams := rfl
  line t ht := by
    rw [stream_mark md (md.lt_maxStreams ht)]
    exact ⟨rfl, rfl, rfl⟩

theorem initiateOutgoing_mark {i k : Nat} (hi : i < maxStreams) (hk : k < maxStreams)
    (hport : (answer.stream k).rtpPort ≠ 0) :
    let r := (initiateOutgoing lib ((mark offer).stream i) ((mark answer).stream k) {}).2
    r.rtcpCname = markText i ∧ r.dtlsFingerprint = markText k := by
  have hmc : ((mark offer).stream i).isMulticast lib = false := by
    rw [stream_mark offer hi]; rfl
  have hp : ((mark answer).stream k).rtpPort ≠ 0 := by
    rw [stream_mark answer hk]; exact hport
  have hboth : bothDtls ((mark offer).stream i) ((mark answer).stream k) = true := by
    rw [stream_mark offer hi, stream_mark answer hk]
    simp [bothDtls, markText_ne]
  simp only [initiateOutgoing, hp, hmc, if_false, Bool.false_eq_true, finishOutgoing,
    answeredIdentity, hboth, if_true]
  rw [stream_mark offer hi, stream_mark answer hk]
  exact ⟨rfl, rfl⟩

/-- Over marked streams the values tell the sources. -/
theorem ownSource_of_positionWise_mark (h : PositionWise lib (mark offer) (mark answer)) {t : Nat}
    (ht : t < offer.nbStreams) : OwnSource (mark offer) (mark answer) t := by
  have ht8 := offer.lt_maxStreams ht
  have hval := (h.2 t ht).1
  rw [outgoing_stream lib _ _ ht8] at hval
  have hname : ((filled lib (mark offer) (mark answer) (source (mark offer) (mark answer) t) t
        (xrSource (mark offer) (mark answer) t)).rtcpCname,
      (filled lib (mark offer) (mark answer) (source (mark offer) (mark answer) t) t
        (xrSource (mark offer) (mark answer) t)).dtlsFingerprint) =
      if answers ((mark offer).stream t) ((mark answer).stream t) then
        (markText t, markText t) else ("", "") := by
    rw [hval, negotiation]
    cases hans : answers ((mark offer).stream t) ((mark answer).stream t) with
    | false => rfl
    | true =>
        have hport : (answer.stream t).rtpPort ≠ 0 := by
          intro h0
          rw [stream_mark answer ht8] at hans
          simp [answers, SalStreamDescription.active, h0] at hans
        obtain ⟨hc, hf⟩ := initiateOutgoing_mark lib offer answer ht8 ht8 hport
        simp only [if_true, SalStreamDescription.setRtcpXr, hc, hf]
  rw [OwnSource]
  cases hs : source (mark offer) (mark answer) t with
  | none =>
      rw [hs] at hname
      split
      · rename_i hans
        rw [hans, if_pos rfl] at hname
        exact absurd (Prod.mk.inj hname).1.symm (markText_ne t)
      · rfl
  | some q =>
      obtain ⟨i, k⟩ := q
      have hmem : (i, k) ∈ pairs (mark offer) (mark answer) (mark offer).nbStreams :=
        List.mem_of_getElem? hs
      obtain ⟨hi, hk⟩ := (mem_pairs _ _).mp hmem
      obtain ⟨hans, hk, -⟩ := (lookup_eq_some _ _).mp hk
      have hk8 := answer.lt_maxStreams hk
      have hport : (answer.stream k).rtpPort ≠ 0 := by
        intro h0
        rw [stream_mark answer hk8] at hans
        simp [answers, SalStreamDescription.active, h0] at hans
      obtain ⟨hc, hf⟩ := initiateOutgoing_mark lib offer answer (offer.lt_maxStreams hi) hk8 hport
      rw [hs] at hname
      simp only [filled, SalStreamDescription.setRtcpXr, hc, hf] at hname
      split
      · rename_i hans'
        rw [hans', if_pos rfl] at hname
        rw [markText_inj (Prod.mk.inj hname).1, markText_inj (Prod.mk.inj hname).2]
      · rename_i hans'
        rw [if_neg hans'] at hname
        exact absurd (Prod.mk.inj hname).1 (markText_ne i)

theorem SameMLines.symm {d d' : SalMediaDescription} (h : SameMLines d d') : SameMLines d' d where
  nbStreams := h.nbStreams.symm
  line t ht := by
    obtain ⟨h1, h2, h3⟩ := h.line t (h.nbStreams ▸ ht)
    exact ⟨h1.symm, h2.symm, h3.symm⟩

/-- **Results are position-wise exactly when the answer keeps step with the offer.** In step,
every stream of the result is the negotiation of the two streams at its position; out of step,
some slot is filled from other m-lines, and for some streams with these m-lines the values
differ. -/
theorem positionWise_iff_inStep (h : offer.nbStreams = answer.nbStreams) :
    ((PositionWise lib offer answer ∧ ∀ t < offer.nbStreams, OwnSource offer answer t) ↔
      InStep offer answer) ∧
    (¬InStep offer answer →
      ∃ o a, SameMLines offer o ∧ SameMLines answer a ∧ ¬PositionWise lib o a) := by
  have hiff := ownSource_iff offer answer h
  refine ⟨⟨fun hp => hiff.mp hp.2, fun hs => ⟨hs.positionWise lib offer answer h, hiff.mpr hs⟩⟩,
    fun hns => ⟨mark offer, mark answer, sameMLines_mark offer, sameMLines_mark answer, ?_⟩⟩
  intro hp
  apply hns
  have hmark : InStep (mark offer) (mark answer) :=
    (ownSource_iff (mark offer) (mark answer) h).mp fun t ht =>
      ownSource_of_positionWise_mark lib offer answer hp ht
  exact hmark.congr _ _ (sameMLines_mark offer).symm (sameMLines_mark answer).symm

/-! ### An answer out of step -/

/-- Codecs without parameters and unicast IPv4 addresses. -/
def plainLib : MediaLib where
  fmtpGetValue _ _ := none
  appendSendFmtp old f := some (old.elim f (· ++ ";" ++ f))
  isMulticast _ := false
  isIpv6 _ := false

/-- An active stream with one codec. -/
def plainStream (type : SalStreamType) (proto : SalMediaProto) (port : Int) (codec : String) :
    SalStreamDescription :=
  { type := type, proto := proto, rtpPort := port
    payloads := [{ mimeType := codec, clockRate := 8000, channels := 1 }] }

/-- Audio and video. -/
def audioVideo (audioPort videoPort : Int) : SalMediaDescription where
  nbStreams := 2
  streams := #v[plainStream .audio .rtpAvp audioPort "PCMU",
    plainStream .video .rtpAvp videoPort "VP8", {}, {}, {}, {}, {}, {}]

/-- The peer refuses audio and accepts video: the video stream lands in the audio slot. -/
theorem refused_audio_shifts_video :
    (audioVideo 7078 9078).nbStreams = (audioVideo 0 9078).nbStreams ∧
      ¬PositionWise plainLib (audioVideo 7078 9078) (audioVideo 0 9078) := by
  refine ⟨rfl, fun h => ?_⟩
  have h0 := (h.2 0 (by decide)).2 rfl
  exact absurd h0 (by decide)

/-- Both accepted, the results are in place. -/
theorem positionWise_iff_inStep_both :
    ((PositionWise plainLib (audioVideo 7078 9078) (audioVideo 7078 9078) ∧
        ∀ t < (audioVideo 7078 9078).nbStreams,
          OwnSource (audioVideo 7078 9078) (audioVideo 7078 9078) t) ↔
      InStep (audioVideo 7078 9078) (audioVideo 7078 9078)) ∧
    (¬InStep (audioVideo 7078 9078) (audioVideo 7078 9078) →
      ∃ o a, SameMLines (audioVideo 7078 9078) o ∧ SameMLines (audioVideo 7078 9078) a ∧
        ¬PositionWise plainLib o a) :=
  positionWise_iff_inStep plainLib _ _ rfl

end Linphone
