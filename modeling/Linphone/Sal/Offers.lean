import Linphone.Sal.CallHandlers

/-!
# Answers to an offer

What the call layer is told of the responses to an offer that `sal_call_update` sent, in a
re-INVITE or in an UPDATE, and which result it reads when the offer is accepted. The branches of
`call_process_response` for the two methods were written apart, and do not agree.

`offer_outcome_iff` is the exact condition, over the dialog, the operation, the method and the
response, under which the outcome is the one of the response.
-/

namespace Linphone

open Reentrant SalOpCall

/-- Runs in which the call layer does nothing in the callbacks. -/
abbrev opRun {α : Type} (answers : (q : OpQuery) → q.Answer) (p : OpProg α) (s : CallOp) :
    Option (α × CallOp) :=
  p.play (fun _ _ => true) answers s

/-- An upcall was made. -/
def Reports (s s' : CallOp) (u : Upcall) : Prop :=
  ∃ new, s'.trace = new ++ s.trace ∧ .told u ∈ new

namespace CallOp

/-- The last request was sent with the local description as its offer. -/
structure Offered (s : CallOp) (offer : SalMediaDescription) : Prop where
  localMedia : s.media.localMedia = some offer
  sdpOffering : s.media.sdpOffering = true
  pending : s.pendingClientTrans = some .invite ∨ s.pendingClientTrans = some .update

/-- The result that is cached, or computed from what is cached, when it is read. -/
def cachedResult (lib : MediaLib) (s : CallOp) : Option SalMediaDescription :=
  (s.media.getFinal lib).result

end CallOp

/-- The negotiation of an offer with the SDP of a response. -/
def negotiated (lib : MediaLib) (handling : SalOpSDPHandling) (offer : SalMediaDescription)
    (r : SalResponse) : Option SalMediaDescription :=
  match extractSdp handling r.body with
  | .ok (some answer) => some (offerAnswerInitiateOutgoing lib offer answer .new).2
  | _ => none

/-- A response has the outcome it should have: `call_accepted` for a 2xx, with the result of the
negotiation, and `call_failure` from 300 on. -/
def Outcome (answers : (q : OpQuery) → q.Answer) (s : CallOp) (offer : SalMediaDescription)
    (r : SalResponse) : Prop :=
  ∃ s', opRun answers (callProcessResponse r) s = some ((), s') ∧
    (Reports s s' .callAccepted ↔ 200 ≤ r.code ∧ r.code < 300) ∧
    (Reports s s' .callFailure ↔ 300 ≤ r.code) ∧
    (Reports s s' .callAccepted →
      s'.cachedResult (answers .mediaLib) =
        negotiated (answers .mediaLib) s.media.sdpHandling offer r)

/-- The condition. In a confirmed dialog a re-INVITE is handled well and an UPDATE only by chance,
when it is accepted with what is cached; elsewhere each method misses one kind of response. -/
def HandledWell (lib : MediaLib) (s : CallOp) (offer : SalMediaDescription) (r : SalResponse) :
    Prop :=
  match (r.dialog.map Prod.snd).getD .null, s.state, r.method with
  | .confirmed, .early, .update | .confirmed, .active, .update =>
      200 ≤ r.code ∧ r.code < 300 ∧
        s.cachedResult lib = negotiated lib s.media.sdpHandling offer r
  | .confirmed, .early, _ | .confirmed, .active, _ =>
      200 ≤ r.code → r.code < 300 → r.ackCreated = true
  | .confirmed, _, _ => r.code < 200
  | .terminated, _, _ => 200 ≤ r.code → 300 ≤ r.code
  | _, _, .update => r.code < 300
  | _, .terminating, _ => r.code < 200
  | _, _, _ => (200 ≤ r.code → 300 ≤ r.code) ∧ (180 ≤ r.code → r.code < 200 → r.dialog.isSome)

/-! ## Small runs -/

theorem reports_iff {s s' : CallOp} (new : List Trace) (h : s'.trace = new ++ s.trace)
    (u : Upcall) : Reports s s' u ↔ .told u ∈ new := by
  constructor
  · rintro ⟨new', h', hu⟩
    rwa [List.append_cancel_right (h.symm.trans h')]
  · exact fun hu => ⟨new, h, hu⟩

section runs

variable {answers : (q : OpQuery) → q.Answer} {s : CallOp}

theorem opRun_seq {α β : Type} {p : OpProg α} {f : α → OpProg β} {a : α} {s' : CallOp}
    (h : opRun answers p s = some (a, s')) :
    opRun answers (p >>= f) s = opRun answers (f a) s' := by
  rw [opRun, Prog.play_bind]
  exact congrArg (fun o => Option.bind o _) h

theorem opRun_getOp {β : Type} (f : CallOp → OpProg β) :
    opRun answers (getOp >>= f) s = opRun answers (f s) s := rfl

theorem opRun_handleSdp (r : SalResponse) :
    opRun answers (handleSdpFromResponse r) s =
      some ((), { s with media := s.media.handleSdpFromResponse (answers .mediaLib) r.body }) := rfl

theorem opRun_sendRequest (m : SipMethod) :
    opRun answers (sendRequest m) s = some (answers (.created m),
      if answers (.created m) then OpAction.apply (.send m) s else s) := by
  change opRun answers (Prog.when (answers (.created m)) (SalOpCall.perform (.send m)) >>= fun _ =>
    pure (answers (.created m))) s = _
  cases answers (.created m) <;> rfl

end runs

/-! ## The negotiation of an offer -/

section media

variable (lib : MediaLib) {m : OpMedia} {offer : SalMediaDescription}

/-- A result is read as it is. -/
theorem getFinal_of_result {m : OpMedia} (h : m.remoteMedia = none ∨ m.result.isSome) :
    m.getFinal lib = m := by
  unfold OpMedia.getFinal
  cases m.localMedia with
  | none => rfl
  | some locals =>
      rcases h with h | h
      · rw [h]
        rfl
      · rw [Option.isNone_eq_false_iff.mpr h, Bool.and_false]
        rfl

/-- The result of `sdp_process` for an offer. -/
theorem sdpProcessWith_result (ho : m.sdpOffering = true) (offer : SalMediaDescription) :
    (m.sdpProcessWith lib offer).remoteMedia = m.remoteMedia ∧
      (m.sdpProcessWith lib offer).result = m.remoteMedia.map fun answer =>
        (offerAnswerInitiateOutgoing lib offer answer .new).2 := by
  refine ⟨rfl, ?_⟩
  cases hr : m.remoteMedia with
  | none => simp [OpMedia.sdpProcessWith, sdpProcess, OpMedia.salOp, hr]
  | some answer => simp [OpMedia.sdpProcessWith, sdpProcess, OpMedia.salOp, hr, ho]

/-- After the SDP of a response, what is read is its negotiation with the offer. -/
theorem handleSdpFromResponse_result (hl : m.localMedia = some offer)
    (ho : m.sdpOffering = true) (r : SalResponse) :
    let m' := m.handleSdpFromResponse lib r.body
    m'.result = negotiated lib m.sdpHandling offer r ∧
      (m'.remoteMedia = none ∨ m'.result.isSome) := by
  have hp : ∀ md : Option SalMediaDescription,
      let m' := { m with remoteMedia := md }.sdpProcessWith lib offer
      m'.result = md.map (fun answer => (offerAnswerInitiateOutgoing lib offer answer .new).2) ∧
        (m'.remoteMedia = none ∨ m'.result.isSome) := by
    intro md
    obtain ⟨hrem, hres⟩ := sdpProcessWith_result lib (m := { m with remoteMedia := md }) ho offer
    refine ⟨hres, ?_⟩
    rw [hrem, hres]
    cases md with
    | none => exact .inl rfl
    | some answer => exact .inr rfl
  unfold OpMedia.handleSdpFromResponse negotiated
  rw [hl]
  cases extractSdp m.sdpHandling r.body with
  | error e => exact hp none
  | ok md =>
      cases md with
      | none => exact hp none
      | some answer => exact hp (some answer)

theorem getFinal_ackSdp (h : m.remoteMedia = none ∨ m.result.isSome) :
    (m.ackSdp.1.getFinal lib).result = m.result := by
  unfold OpMedia.ackSdp
  split
  · have hm := getFinal_of_result lib (m := { m with sdpAnswer := none }) h
    exact (congrArg OpMedia.result hm).trans rfl
  · rw [getFinal_of_result lib h]

end media

/-! ## The responses -/

section responses

variable {answers : (q : OpQuery) → q.Answer} {s : CallOp} {offer : SalMediaDescription}
  {r : SalResponse}

/-- The outcome of a run, from what it added to the trace. -/
theorem outcome_of_run {s' : CallOp} {new : List Trace}
    (h : opRun answers (callProcessResponse r) s = some ((), s'))
    (hnew : s'.trace = new ++ s.trace) :
    Outcome answers s offer r ↔
      (.told .callAccepted ∈ new ↔ 200 ≤ r.code ∧ r.code < 300) ∧
        (.told .callFailure ∈ new ↔ 300 ≤ r.code) ∧
        (.told .callAccepted ∈ new → s'.cachedResult (answers .mediaLib) =
          negotiated (answers .mediaLib) s.media.sdpHandling offer r) := by
  constructor
  · rintro ⟨s'', h', hout⟩
    cases h.symm.trans h'
    rwa [reports_iff _ hnew, reports_iff _ hnew] at hout
  · intro hout
    refine ⟨s', h, ?_⟩
    rwa [reports_iff _ hnew, reports_iff _ hnew]

theorem opRun_callProcessResponse :
    opRun answers (callProcessResponse r) s =
      opRun answers (match (r.dialog.map Prod.snd).getD .null with
        | .null | .early => responseEarly r
        | .confirmed => responseConfirmed r
        | .terminated => Prog.when (300 ≤ r.code) callSetError)
        { s with dialog := r.dialog.map Prod.fst } := rfl

/-- Neither of the two was told in between. -/
def Untold (s s' : CallOp) : Prop :=
  ∃ new, s'.trace = new ++ s.trace ∧ .told .callAccepted ∉ new ∧ .told .callFailure ∉ new

theorem Untold.refl (s : CallOp) : Untold s s := ⟨[], rfl, by simp, by simp⟩

theorem Untold.trans {s s' s'' : CallOp} (h₁ : Untold s s') (h₂ : Untold s' s'') :
    Untold s s'' := by
  obtain ⟨new₁, ht₁, ha₁, hf₁⟩ := h₁
  obtain ⟨new₂, ht₂, ha₂, hf₂⟩ := h₂
  refine ⟨new₂ ++ new₁, by rw [ht₂, ht₁, List.append_assoc], ?_, ?_⟩
  · rw [List.mem_append]
    exact not_or_intro ha₂ ha₁
  · rw [List.mem_append]
    exact not_or_intro hf₂ hf₁

theorem Untold.record {s : CallOp} {e : Trace} (ha : e ≠ .told .callAccepted)
    (hf : e ≠ .told .callFailure) : Untold s (s.record e) :=
  ⟨[e], rfl, by simpa using ha.symm, by simpa using hf.symm⟩

/-- A run that comes to its end and tells neither. -/
def TellsNothing (answers : (q : OpQuery) → q.Answer) (p : OpProg Unit) (s : CallOp) : Prop :=
  ∃ s', opRun answers p s = some ((), s') ∧ Untold s s'

theorem tellsNothing_seq {α : Type} {p : OpProg α} {f : α → OpProg Unit} {a : α} {s' : CallOp}
    (h : opRun answers p s = some (a, s')) (hu : Untold s s')
    (hf : TellsNothing answers (f a) s') : TellsNothing answers (p >>= f) s := by
  obtain ⟨s'', hrun, hu'⟩ := hf
  exact ⟨s'', (opRun_seq h).trans hrun, hu.trans hu'⟩

theorem tellsNothing_of_run {p : OpProg Unit} (s' : CallOp)
    (h : opRun answers p s = some ((), s')) (ht : s'.trace = s.trace) :
    TellsNothing answers p s :=
  ⟨s', h, [], ht, by simp, by simp⟩

theorem tellsNothing_pure : TellsNothing answers (pure ()) s := ⟨s, rfl, Untold.refl s⟩

theorem tellsNothing_when {b : Bool} {p : OpProg Unit} (h : b = true → TellsNothing answers p s) :
    TellsNothing answers (Prog.when b p) s := by
  cases b with
  | true => exact h rfl
  | false => exact tellsNothing_pure

theorem tellsNothing_setState (x : SalOpState) :
    TellsNothing answers (SalOpCall.perform (.setState x)) s := ⟨_, rfl, Untold.refl s⟩

theorem tellsNothing_sendRequest (m : SipMethod) : TellsNothing answers (do
    let _ ← sendRequest m
    pure ()) s := by
  refine tellsNothing_seq (opRun_sendRequest m) ?_ tellsNothing_pure
  split
  · exact Untold.record (e := .request m) (by simp) (by simp)
  · exact Untold.refl s

theorem tellsNothing_callSetReleased : TellsNothing answers callSetReleased s := by
  rw [TellsNothing, callSetReleased, opRun_getOp]
  refine tellsNothing_when fun _ => ?_
  exact ⟨_, rfl, Untold.record (s := s) (e := .told .callReleased) (by simp) (by simp)⟩

theorem tellsNothing_cancellingInvite (h : s.pendingClientTrans.isSome = true) :
    TellsNothing answers cancellingInvite s := by
  obtain ⟨m, hm⟩ := Option.isSome_iff_exists.mp h
  rw [TellsNothing, cancellingInvite, opRun_getOp, hm]
  have hsend : TellsNothing answers (Prog.when (m = .invite) do
      let _ ← sendRequest .cancel
      pure ()) s := tellsNothing_when fun _ => tellsNothing_sendRequest .cancel
  obtain ⟨s', hrun, hu⟩ := hsend
  exact tellsNothing_seq hrun hu (tellsNothing_setState .terminating)

/-- Without the two, the outcome is right for provisional responses only. -/
theorem outcome_of_tellsNothing
    (h : TellsNothing answers (callProcessResponse r) s) :
    Outcome answers s offer r ↔ r.code < 200 := by
  obtain ⟨s', hrun, new, hnew, ha, hf⟩ := h
  rw [outcome_of_run hrun hnew]
  constructor
  · rintro ⟨h₁, h₂, -⟩
    by_contra hcode
    by_cases h300 : 300 ≤ r.code
    · exact hf (h₂.mpr h300)
    · exact ha (h₁.mpr ⟨by omega, by omega⟩)
  · intro hcode
    exact ⟨iff_of_false ha (by omega), iff_of_false hf (by omega), fun h => absurd h ha⟩

/-- `call_failure` was told, and nothing else of the two. -/
theorem outcome_of_failure {s' : CallOp} (new : List Trace)
    (h : opRun answers (callProcessResponse r) s = some ((), s'))
    (hnew : s'.trace = new ++ s.trace) (ha : .told .callAccepted ∉ new)
    (hf : .told .callFailure ∈ new) : Outcome answers s offer r ↔ 300 ≤ r.code := by
  rw [outcome_of_run h hnew]
  constructor
  · exact fun hout => hout.2.1.mp hf
  · intro hcode
    exact ⟨iff_of_false ha (by omega), iff_of_true hf hcode, fun h => absurd h ha⟩

/-- `call_accepted` was told, and nothing else of the two. -/
theorem outcome_of_accepted {s' : CallOp} (offer : SalMediaDescription) (new : List Trace)
    (h : opRun answers (callProcessResponse r) s = some ((), s'))
    (hnew : s'.trace = new ++ s.trace) (ha : .told .callAccepted ∈ new)
    (hf : .told .callFailure ∉ new) :
    Outcome answers s offer r ↔ 200 ≤ r.code ∧ r.code < 300 ∧
      s'.cachedResult (answers .mediaLib) =
        negotiated (answers .mediaLib) s.media.sdpHandling offer r := by
  rw [outcome_of_run h hnew]
  constructor
  · rintro ⟨h₁, -, h₃⟩
    exact ⟨(h₁.mp ha).1, (h₁.mp ha).2, h₃ ha⟩
  · rintro ⟨h₁, h₂, h₃⟩
    exact ⟨iff_of_true ha ⟨h₁, h₂⟩, iff_of_false hf (by omega), fun _ => h₃⟩

/-- In a confirmed dialog, an UPDATE is accepted whatever the response. -/
theorem outcome_confirmed_update (hst : s.state = .early ∨ s.state = .active)
    (hd : (r.dialog.map Prod.snd).getD .null = .confirmed) (hm : r.method = .update) :
    Outcome answers s offer r ↔ 200 ≤ r.code ∧ r.code < 300 ∧
      s.cachedResult (answers .mediaLib) =
        negotiated (answers .mediaLib) s.media.sdpHandling offer r := by
  have hrun : opRun answers (callProcessResponse r) s =
      some ((), { s with dialog := r.dialog.map Prod.fst }.tell .callAccepted) := by
    rw [opRun_callProcessResponse, hd]
    change opRun answers (responseConfirmed r) _ = _
    rw [responseConfirmed, opRun_getOp]
    dsimp only
    rcases hst with h | h
    · rw [h, hm]
      rfl
    · rw [h, hm]
      rfl
  have hout := outcome_of_accepted offer [.told .callAccepted] hrun rfl
    (by simp) (by simp)
  exact hout

/-- In a confirmed dialog, a re-INVITE is accepted with the SDP of the response. -/
theorem outcome_confirmed_invite (ho : s.Offered offer)
    (hst : s.state = .early ∨ s.state = .active)
    (hd : (r.dialog.map Prod.snd).getD .null = .confirmed) (hm : r.method = .invite) :
    Outcome answers s offer r ↔ (200 ≤ r.code → r.code < 300 → r.ackCreated = true) := by
  have hconf : opRun answers (callProcessResponse r) s =
      opRun answers (if 200 ≤ r.code ∧ r.code < 300 then responseInviteOk r
        else Prog.when (300 ≤ r.code) callSetError)
        { s with dialog := r.dialog.map Prod.fst } := by
    rw [opRun_callProcessResponse, hd]
    change opRun answers (responseConfirmed r) _ = _
    rw [responseConfirmed, opRun_getOp]
    dsimp only
    rcases hst with h | h
    · rw [h, hm]
      rfl
    · rw [h, hm]
      rfl
  by_cases hok : 200 ≤ r.code ∧ r.code < 300
  · rw [if_pos hok] at hconf
    obtain ⟨hres, hread⟩ := handleSdpFromResponse_result (answers .mediaLib) ho.localMedia
      ho.sdpOffering r
    cases hack : r.ackCreated with
    | true =>
        have hrun : ∃ s', opRun answers (callProcessResponse r) s = some ((), s') ∧
            s'.trace = [.told .callAccepted, .ack] ++ s.trace ∧
            s'.media = (s.media.handleSdpFromResponse (answers .mediaLib) r.body).ackSdp.1 := by
          rw [hconf, responseInviteOk, opRun_seq (opRun_handleSdp r), hack]
          exact ⟨_, rfl, rfl, rfl⟩
        obtain ⟨s', hrun, hnew, hmedia⟩ := hrun
        rw [outcome_of_accepted offer _ hrun hnew (by simp) (by simp), CallOp.cachedResult, hmedia,
          getFinal_ackSdp _ hread]
        exact iff_of_true ⟨hok.1, hok.2, hres⟩ fun _ _ => rfl
    | false =>
        have hrun : TellsNothing answers (callProcessResponse r) s := by
          refine tellsNothing_of_run { s with
            dialog := r.dialog.map Prod.fst
            media := s.media.handleSdpFromResponse (answers .mediaLib) r.body } ?_ rfl
          rw [hconf, responseInviteOk, opRun_seq (opRun_handleSdp r), hack]
          rfl
        rw [outcome_of_tellsNothing hrun]
        refine iff_of_false (by omega) fun h => ?_
        exact absurd (h hok.1 hok.2) (by simp)
  · rw [if_neg hok] at hconf
    by_cases hbad : 300 ≤ r.code
    · have hrun : opRun answers (callProcessResponse r) s =
          some ((), { s with dialog := r.dialog.map Prod.fst }.tell .callFailure) := by
        rw [hconf, decide_eq_true hbad]
        rfl
      rw [outcome_of_failure [.told .callFailure] hrun rfl (by simp) (by simp)]
      exact iff_of_true hbad fun _ _ => by omega
    · have hrun : TellsNothing answers (callProcessResponse r) s := by
        refine tellsNothing_of_run { s with dialog := r.dialog.map Prod.fst } ?_ rfl
        rw [hconf, decide_eq_false hbad]
        rfl
      rw [outcome_of_tellsNothing hrun]
      exact iff_of_true (by omega) fun _ _ => by omega

theorem tellsNothing_responseConfirmed (hst : s.state = .terminating ∨ s.state = .terminated) :
    TellsNothing answers (responseConfirmed r) s := by
  rw [TellsNothing, responseConfirmed, opRun_getOp]
  rcases hst with h | h
  · rw [h]
    exact tellsNothing_sendRequest .bye
  · rw [h]
    exact tellsNothing_pure

theorem outcome_confirmed_closed (hst : s.state = .terminating ∨ s.state = .terminated)
    (hd : (r.dialog.map Prod.snd).getD .null = .confirmed) :
    Outcome answers s offer r ↔ r.code < 200 := by
  refine outcome_of_tellsNothing ?_
  rw [TellsNothing, opRun_callProcessResponse, hd]
  exact tellsNothing_responseConfirmed (s := { s with dialog := r.dialog.map Prod.fst }) hst

/-- In a terminated dialog only failures are told. -/
theorem outcome_terminated (hd : (r.dialog.map Prod.snd).getD .null = .terminated) :
    Outcome answers s offer r ↔ (200 ≤ r.code → 300 ≤ r.code) := by
  by_cases hbad : 300 ≤ r.code
  · have hrun : opRun answers (callProcessResponse r) s =
        some ((), { s with dialog := r.dialog.map Prod.fst }.tell .callFailure) := by
      rw [opRun_callProcessResponse, hd, decide_eq_true hbad]
      rfl
    rw [outcome_of_failure [.told .callFailure] hrun rfl (by simp) (by simp)]
    exact iff_of_true hbad fun _ => hbad
  · have hrun : TellsNothing answers (callProcessResponse r) s := by
      refine tellsNothing_of_run { s with dialog := r.dialog.map Prod.fst } ?_ rfl
      rw [opRun_callProcessResponse, hd, decide_eq_false hbad]
      rfl
    rw [outcome_of_tellsNothing hrun]
    omega

theorem opRun_early
    (hd : (r.dialog.map Prod.snd).getD .null = .null ∨
      (r.dialog.map Prod.snd).getD .null = .early) :
    opRun answers (callProcessResponse r) s =
      opRun answers (responseEarly r) { s with dialog := r.dialog.map Prod.fst } := by
  rw [opRun_callProcessResponse]
  rcases hd with hd | hd
  · rw [hd]
  · rw [hd]

/-- In an early dialog, the failure of an UPDATE is not told. -/
theorem outcome_early_update (ho : s.Offered offer)
    (hd : (r.dialog.map Prod.snd).getD .null = .null ∨
      (r.dialog.map Prod.snd).getD .null = .early) (hm : r.method = .update) :
    Outcome answers s offer r ↔ r.code < 300 := by
  have hearly : opRun answers (callProcessResponse r) s =
      opRun answers (Prog.when (200 ≤ r.code && r.code < 300) do
        handleSdpFromResponse r
        upcall .callAccepted) { s with dialog := r.dialog.map Prod.fst } := by
    rw [opRun_early hd, responseEarly, opRun_getOp, hm, if_neg (by decide), decide_eq_true rfl,
      Bool.and_true]
  by_cases hok : 200 ≤ r.code ∧ r.code < 300
  · obtain ⟨hres, hread⟩ := handleSdpFromResponse_result (answers .mediaLib) ho.localMedia
      ho.sdpOffering r
    have hrun : opRun answers (callProcessResponse r) s = some ((), { s with
        dialog := r.dialog.map Prod.fst
        media := s.media.handleSdpFromResponse (answers .mediaLib) r.body }.tell
          .callAccepted) := by
      rw [hearly, decide_eq_true hok.1, decide_eq_true hok.2]
      rfl
    have hout := outcome_of_accepted offer [.told .callAccepted] hrun rfl
      (by simp) (by simp)
    refine hout.trans (iff_of_true ⟨hok.1, hok.2, ?_⟩ hok.2)
    have hfinal := getFinal_of_result (answers .mediaLib) hread
    exact (congrArg OpMedia.result hfinal).trans hres
  · have hrun : TellsNothing answers (callProcessResponse r) s := by
      refine tellsNothing_of_run { s with dialog := r.dialog.map Prod.fst } ?_ rfl
      have hno : (200 ≤ r.code && r.code < 300) = false := by
        rw [Bool.and_eq_false_iff]
        by_cases h : 200 ≤ r.code
        · exact .inr (decide_eq_false fun h' => hok ⟨h, h'⟩)
        · exact .inl (decide_eq_false h)
      rw [hearly, hno]
      rfl
    rw [outcome_of_tellsNothing hrun]
    omega

theorem tellsNothing_responseTerminating {m : SipMethod} (hm : s.pendingClientTrans = some m)
    (hne : m ≠ .cancel) : TellsNothing answers (responseTerminating r) s := by
  rw [TellsNothing, responseTerminating, opRun_getOp, hm]
  change TellsNothing answers (if m ≠ .cancel then _ else _) s
  rw [if_pos hne]
  by_cases hcode : r.code < 200
  · rw [if_pos hcode]
    exact tellsNothing_cancellingInvite (Option.isSome_iff_exists.mpr ⟨m, hm⟩)
  · rw [if_neg hcode]
    exact tellsNothing_when fun _ => tellsNothing_callSetReleased

/-- In an early dialog, a re-INVITE of an operation that is ended is only cancelled. -/
theorem outcome_early_terminating (ho : s.Offered offer) (hst : s.state = .terminating)
    (hd : (r.dialog.map Prod.snd).getD .null = .null ∨
      (r.dialog.map Prod.snd).getD .null = .early) (hm : r.method = .invite) :
    Outcome answers s offer r ↔ r.code < 200 := by
  refine outcome_of_tellsNothing ?_
  rw [TellsNothing, opRun_early hd, responseEarly, opRun_getOp, if_pos hm, if_pos hst]
  rcases ho.pending with h | h
  · exact tellsNothing_responseTerminating (s := { s with dialog := r.dialog.map Prod.fst }) h
      (by decide)
  · exact tellsNothing_responseTerminating (s := { s with dialog := r.dialog.map Prod.fst }) h
      (by decide)

theorem tellsNothing_responseRinging {d : DialogId} {x : DialogState}
    (hd : r.dialog = some (d, x)) : TellsNothing answers (responseRinging r) s := by
  have hring : TellsNothing answers (do
      handleSdpFromResponse r
      upcall .callRinging) s := by
    refine tellsNothing_seq (opRun_handleSdp r) ⟨[], rfl, by simp, by simp⟩ ?_
    exact ⟨_, rfl, Untold.record (e := .told .callRinging) (by simp) (by simp)⟩
  obtain ⟨s', hrun, hu⟩ := tellsNothing_when (b := (s.earlyResponse d).all (· < r.code))
    fun _ => hring
  rw [responseRinging, hd]
  change TellsNothing answers (getOp >>= fun s => _) s
  rw [TellsNothing, opRun_getOp]
  exact tellsNothing_seq hrun hu ⟨_, rfl, [], rfl, by simp, by simp⟩

/-- In an early dialog, a re-INVITE that is accepted is ignored. -/
theorem outcome_early_invite (hst : s.state ≠ .terminating)
    (hd : (r.dialog.map Prod.snd).getD .null = .null ∨
      (r.dialog.map Prod.snd).getD .null = .early) (hm : r.method = .invite) :
    Outcome answers s offer r ↔ (200 ≤ r.code → 300 ≤ r.code) ∧
      (180 ≤ r.code → r.code < 200 → r.dialog.isSome) := by
  have hearly : opRun answers (callProcessResponse r) s =
      opRun answers (if 180 ≤ r.code ∧ r.code < 200 then responseRinging r
        else Prog.when (300 ≤ r.code) do
          callSetError
          let s ← getOp
          Prog.when s.dialog.isNone callSetReleased)
        { s with dialog := r.dialog.map Prod.fst } := by
    rw [opRun_early hd, responseEarly, opRun_getOp, if_pos hm, if_neg hst]
  by_cases hring : 180 ≤ r.code ∧ r.code < 200
  · rw [if_pos hring] at hearly
    cases hdialog : r.dialog with
    | none =>
        refine iff_of_false ?_ fun h => ?_
        · rintro ⟨s', hrun, -⟩
          rw [hearly, responseRinging, hdialog] at hrun
          cases hrun
        · exact absurd (h.2 hring.1 hring.2) (by simp)
    | some dx =>
        have hrun : TellsNothing answers (callProcessResponse r) s := by
          rw [TellsNothing, hearly]
          exact tellsNothing_responseRinging (s := { s with dialog := r.dialog.map Prod.fst })
            hdialog
        rw [outcome_of_tellsNothing hrun]
        exact iff_of_true hring.2 ⟨fun h => by omega, fun _ _ => rfl⟩
  · rw [if_neg hring] at hearly
    by_cases hbad : 300 ≤ r.code
    · rw [decide_eq_true hbad] at hearly
      have hrest : TellsNothing answers (Prog.when (r.dialog.map Prod.fst).isNone callSetReleased)
          ({ s with dialog := r.dialog.map Prod.fst }.tell .callFailure) :=
        tellsNothing_when fun _ => tellsNothing_callSetReleased
      obtain ⟨s', hrun, new, hnew, ha, -⟩ := hrest
      have hnew' : s'.trace = (new ++ [.told .callFailure]) ++ s.trace := by
        rw [hnew, List.append_assoc]
        rfl
      rw [outcome_of_failure _ (hearly.trans hrun) hnew' (by simp [ha]) (by simp)]
      exact iff_of_true hbad ⟨fun _ => hbad, fun _ _ => by omega⟩
    · have hrun : TellsNothing answers (callProcessResponse r) s := by
        refine tellsNothing_of_run { s with dialog := r.dialog.map Prod.fst } ?_ rfl
        rw [hearly, decide_eq_false hbad]
        rfl
      rw [outcome_of_tellsNothing hrun]
      omega

end responses

/-- `sal_call_update` sends the local description as the offer of a re-INVITE or UPDATE. -/
theorem offered_of_update {answers : (q : OpQuery) → q.Answer} {noUserConsent : Bool}
    {s s' : CallOp} {offer : SalMediaDescription} (hl : s.media.localMedia = some offer)
    (h : opRun answers (update noUserConsent) s = some (true, s')) : s'.Offered offer := by
  have hsent : ∀ m : SipMethod, m = .invite ∨ m = .update →
      opRun answers (do
        let created ← SalOpCall.query (.created m)
        Prog.when created do
          attach fun _ m => m.fillInvite
          SalOpCall.perform (.send m)
        pure created) s = some (true, s') → s'.Offered offer := by
    intro m hm hrun
    change opRun answers (Prog.when (answers (.created m)) (do
      attach fun _ m => m.fillInvite
      SalOpCall.perform (.send m)) >>= fun _ => pure (answers (.created m))) s = _ at hrun
    cases hc : answers (.created m) with
    | false =>
        rw [hc] at hrun
        cases hrun
    | true =>
        rw [hc] at hrun
        cases hrun
        refine ⟨?_, ?_, hm.imp (congrArg some) (congrArg some)⟩
        · change s.media.fillInvite.1.localMedia = _
          rw [OpMedia.fillInvite, hl]
        · change s.media.fillInvite.1.sdpOffering = _
          rw [OpMedia.fillInvite, hl]
  rw [update, opRun_getOp] at h
  cases hd : s.dialog with
  | none =>
      rw [hd] at h
      cases h
  | some d =>
      rw [hd] at h
      cases hx : s.dialogState d with
      | null =>
          simp only [hx] at h
          cases h
      | early =>
          simp only [hx] at h
          exact hsent .update (.inr rfl) h
      | confirmed =>
          simp only [hx] at h
          cases noUserConsent with
          | true => exact hsent .update (.inr rfl) h
          | false => exact hsent .invite (.inl rfl) h
      | terminated =>
          simp only [hx] at h
          cases h

/-- **The outcome of an offer.** An offer that `sal_call_update` sends is pending with the local
description, and the outcome of a response to a pending offer is the right one if and only if it
is handled well. -/
theorem offer_outcome_iff (answers : (q : OpQuery) → q.Answer) (offer : SalMediaDescription) :
    (∀ noUserConsent s s', s.media.localMedia = some offer →
      opRun answers (update noUserConsent) s = some (true, s') → s'.Offered offer) ∧
    ∀ s r, s.Offered offer → r.method = .invite ∨ r.method = .update →
      (Outcome answers s offer r ↔ HandledWell (answers .mediaLib) s offer r) := by
  refine ⟨fun noUserConsent s s' => offered_of_update, fun s r ho hm => ?_⟩
  unfold HandledWell
  cases hd : (r.dialog.map Prod.snd).getD .null with
  | confirmed =>
      cases hst : s.state with
      | early =>
          rcases hm with hm | hm
          · rw [hm]
            exact outcome_confirmed_invite ho (.inl hst) hd hm
          · rw [hm]
            exact outcome_confirmed_update (.inl hst) hd hm
      | active =>
          rcases hm with hm | hm
          · rw [hm]
            exact outcome_confirmed_invite ho (.inr hst) hd hm
          · rw [hm]
            exact outcome_confirmed_update (.inr hst) hd hm
      | terminating => exact outcome_confirmed_closed (.inl hst) hd
      | terminated => exact outcome_confirmed_closed (.inr hst) hd
  | terminated => exact outcome_terminated hd
  | null =>
      rcases hm with hm | hm
      · rw [hm]
        cases hst : s.state with
        | terminating => exact outcome_early_terminating ho hst (.inl hd) hm
        | early => exact outcome_early_invite (by rw [hst]; decide) (.inl hd) hm
        | active => exact outcome_early_invite (by rw [hst]; decide) (.inl hd) hm
        | terminated => exact outcome_early_invite (by rw [hst]; decide) (.inl hd) hm
      · rw [hm]
        exact outcome_early_update ho (.inl hd) hm
  | early =>
      rcases hm with hm | hm
      · rw [hm]
        cases hst : s.state with
        | terminating => exact outcome_early_terminating ho hst (.inr hd) hm
        | early => exact outcome_early_invite (by rw [hst]; decide) (.inr hd) hm
        | active => exact outcome_early_invite (by rw [hst]; decide) (.inr hd) hm
        | terminated => exact outcome_early_invite (by rw [hst]; decide) (.inr hd) hm
      · rw [hm]
        exact outcome_early_update ho (.inr hd) hm

/-! ## An UPDATE that is refused -/

/-- An established call whose local description was just set. -/
def establishedOp : CallOp where
  state := .active
  dialog := some 0
  dialogState _ := .confirmed
  media := { localMedia := some audioOffer, localVer := 1 }

/-- 488 to an UPDATE. -/
def updateRefused : SalResponse where
  method := .update
  code := 488
  dialog := some (0, .confirmed)

/-- The offer goes out in an UPDATE, the peer refuses it, and the call layer is told that it was
accepted. -/
theorem refused_update_accepted :
    ∃ s s', opRun plainStack (update true) establishedOp = some (true, s) ∧ s.Offered audioOffer ∧
      opRun plainStack (callProcessResponse updateRefused) s = some ((), s') ∧
      Reports s s' .callAccepted ∧ ¬Reports s s' .callFailure ∧
      ¬Outcome plainStack s audioOffer updateRefused := by
  refine ⟨_, _, rfl, ⟨rfl, rfl, .inr rfl⟩, rfl, ⟨[.told .callAccepted], rfl, by simp⟩, ?_, ?_⟩
  · rw [reports_iff [.told .callAccepted] rfl]
    simp
  · rintro ⟨s', hrun, haccepted, -⟩
    cases hrun
    have h := haccepted.mp ⟨[.told .callAccepted], rfl, by simp⟩
    exact absurd h.2 (by decide)

/-- The same offer in a re-INVITE, refused: the failure is told. -/
theorem offer_outcome_iff_refused_invite :
    ∃ s, opRun plainStack (update false) establishedOp = some (true, s) ∧
      Outcome plainStack s audioOffer { updateRefused with method := .invite } := by
  obtain ⟨hsent, houtcome⟩ := offer_outcome_iff plainStack audioOffer
  refine ⟨_, rfl, ?_⟩
  rw [houtcome _ _ (hsent false establishedOp _ rfl rfl) (.inl rfl)]
  exact fun _ h => absurd h (by decide)

end Linphone
