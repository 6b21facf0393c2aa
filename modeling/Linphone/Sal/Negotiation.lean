import Linphone.Sal.CallHandlers

/-!
# Which negotiation is sent and returned

An operation keeps the result of its last negotiation and the answer it prepared for it. Setting a
local description drops the answer and not the result; a new offer of the peer drops the result and
not the answer.

`coherent_of_reachable`: in a run in which neither is used when the invalidation that is missing
would have dropped it, every answer sent and every result returned comes from the last local and
the last remote description.
-/

namespace Linphone

open Reentrant SalOpCall

/-! ## The condition -/

/-- The runs that use what is fresh. A local description is set over a prepared answer while the
offer is there; an answer is sent that was prepared after the last SDP came in, or one is computed
while that SDP is the one kept; a result is read that was computed after the last local description
was set, while that SDP is kept; and an INVITE opens a dialog when there is no result. -/
def UsesFresh : OpAction → CallOp → Prop
  | .media f, s => (f s.media).localVer ≠ s.media.localVer → s.media.sdpAnswer.isSome = true →
      s.media.remoteMedia.isSome = true
  | .attach _ (some (.answer _)), s =>
      (if s.media.sdpAnswer.isSome then s.media.answerOf.2 else s.media.remoteOf) =
        s.media.remoteVer
  | .read, s => s.media.result.isSome = true →
      s.media.resultOf.1 = s.media.localVer ∧ s.media.remoteOf = s.media.remoteVer
  | .receive .invite, s => s.currentDialogState = .null → s.media.result.isNone = true
  | _, _ => True

instance (x : OpAction) (s : CallOp) : Decidable (UsesFresh x s) := by
  apply @OpAction.casesOn (fun x => Decidable (UsesFresh x s)) x
  case receive =>
    intro m
    apply @SipMethod.casesOn (fun m => Decidable (UsesFresh (.receive m) s)) m <;>
      unfold UsesFresh <;> infer_instance
  case attach =>
    rintro m (_ | _ | _) <;> unfold UsesFresh <;> infer_instance
  all_goals
    intros
    unfold UsesFresh
    infer_instance

namespace OpMedia

/-- The answer comes from the last local description, and so does the result as long as it is from
the last one at all; then it comes from the remote description that is kept. -/
structure Fresh (m : OpMedia) : Prop where
  answer : m.sdpAnswer.isSome = true → m.answerOf.1 = m.localVer
  bound : m.resultOf.1 ≤ m.localVer
  result : m.result.isSome = true → m.resultOf.1 = m.localVer →
    m.localMedia.isSome = true ∧ m.resultOf.2 = m.remoteOf

/-- An answer that goes out comes from the last local description, and was prepared before or comes
from the remote description that is kept. -/
def Sends (m : OpMedia) (r : OpMedia × Option SentSdp) : Prop :=
  r.1.remoteVer = m.remoteVer ∧ ∀ md, r.2 = some (.answer md) →
    r.1.answerOf = (r.1.localVer, if m.sdpAnswer.isSome then m.answerOf.2 else m.remoteOf)

variable {lib : MediaLib} {m : OpMedia}

/-- **`sdp_process`** makes both fresh. -/
theorem fresh_sdpProcessWith (h : m.sdpAnswer.isSome = true → m.answerOf.1 = m.localVer)
    (locals : SalMediaDescription) : (m.sdpProcessWith lib locals).Fresh := by
  refine ⟨fun hs => ?_, Nat.le_refl _, fun _ _ => ⟨rfl, rfl⟩⟩
  change (if m.remoteMedia.isSome && !m.sdpOffering then m.kept else m.answerOf).1 = m.localVer
  split
  · rfl
  · rename_i hno
    refine h ?_
    rw [← hs]
    -- without a remote offer the prepared answer stays
    unfold OpMedia.sdpProcessWith Linphone.sdpProcess OpMedia.salOp
    cases hr : m.remoteMedia with
    | none => rfl
    | some remote =>
        rw [hr, Option.isSome_some, Bool.true_and, Bool.not_eq_true, Bool.not_eq_false'] at hno
        simp [hno]

theorem Fresh.hear (h : m.Fresh) (body : MessageBody) : (m.hear body).Fresh := by
  cases body with
  | sdp md => exact ⟨h.answer, h.bound, h.result⟩
  | empty => exact h
  | invalidSdp => exact h
  | untyped => exact h
  | other => exact h

theorem Fresh.getFinal (h : m.Fresh) : (m.getFinal lib).Fresh := by
  unfold OpMedia.getFinal
  cases m.localMedia with
  | none => exact h
  | some locals =>
      change (if m.remoteMedia.isSome && m.result.isNone then _ else _ : OpMedia).Fresh
      split
      · exact fresh_sdpProcessWith h.answer locals
      · exact h

/-- A new local description; what it leaves of the result is out of date. -/
theorem Fresh.setLocal (h : m.Fresh) (desc : Option SalMediaDescription)
    (hoffer : m.sdpAnswer.isSome = true → m.remoteMedia.isSome = true) :
    (m.setLocal desc).Fresh := by
  refine ⟨fun hs => ?_, Nat.le_succ_of_le h.bound, fun _ hold => ?_⟩
  · change (if m.remoteMedia.isSome then none else m.sdpAnswer).isSome = true at hs
    split at hs
    · cases hs
    · exact absurd (hoffer hs) ‹_›
  · have hle := h.bound
    change m.resultOf.1 = m.localVer + 1 at hold
    omega

theorem Fresh.resetDescriptions (h : m.Fresh) : m.resetDescriptions.Fresh :=
  ⟨h.answer, h.bound, nofun⟩

theorem Fresh.processSdpForInvite (h : m.Fresh) (hresult : m.result = none) (body : MessageBody) :
    (m.processSdpForInvite body).1.Fresh := by
  have hno : ∀ {P : Prop}, m.result.isSome = true → P := by
    rw [hresult]
    exact fun hs => nomatch hs
  unfold OpMedia.processSdpForInvite
  cases extractSdp m.sdpHandling body with
  | error reason => exact h
  | ok md =>
      cases md with
      | none => exact ⟨h.answer, h.bound, fun hs => hno hs⟩
      | some md => exact ⟨h.answer, h.bound, fun hs => hno hs⟩

theorem Fresh.handleSdpFromResponse (h : m.Fresh) (body : MessageBody) :
    (m.handleSdpFromResponse lib body).Fresh := by
  unfold OpMedia.handleSdpFromResponse
  cases hl : m.localMedia with
  | none =>
      refine ⟨h.answer, h.bound, fun hs hold => ?_⟩
      have hsome := (h.result hs hold).1
      rw [hl] at hsome
      cases hsome
  | some locals =>
      -- the result is computed again, with or without SDP
      change (OpMedia.sdpProcessWith lib _ locals).Fresh
      refine fresh_sdpProcessWith ?_ locals
      exact h.answer

theorem Fresh.handleSdpFromAck (h : m.Fresh) {body : MessageBody} {m' : OpMedia}
    (hm : m.handleSdpFromAck lib body = some m') : m'.Fresh := by
  unfold OpMedia.handleSdpFromAck at hm
  split at hm
  · split at hm
    · unfold OpMedia.sdpProcess at hm
      split at hm
      · cases hm
        refine fresh_sdpProcessWith ?_ _
        exact h.answer
      · rename_i hnone
        cases hnone
      · cases hm
    · cases hm
      exact h
  · cases hm
    exact h

theorem sends_none {m' : OpMedia} (h : m'.remoteVer = m.remoteVer) : m.Sends (m', none) := by
  refine ⟨h, ?_⟩
  intro md hmd
  cases hmd

theorem sends_offer {m' : OpMedia} (h : m'.remoteVer = m.remoteVer) (md : SalMediaDescription) :
    m.Sends (m', some (.offer md)) := by
  refine ⟨h, ?_⟩
  intro md' hmd
  cases hmd

/-- An answer is prepared where there was none. -/
theorem answerOf_sdpProcessWith (locals : SalMediaDescription) (hnone : m.sdpAnswer = none)
    (hs : (m.sdpProcessWith lib locals).sdpAnswer.isSome = true) :
    (m.sdpProcessWith lib locals).answerOf = m.kept := by
  change (if m.remoteMedia.isSome && !m.sdpOffering then m.kept else m.answerOf) = m.kept
  split
  · rfl
  · rename_i hno
    unfold OpMedia.sdpProcessWith Linphone.sdpProcess OpMedia.salOp at hs
    cases hr : m.remoteMedia with
    | none =>
        rw [hr] at hs
        change m.sdpAnswer.isSome = true at hs
        rw [hnone] at hs
        cases hs
    | some remote =>
        rw [hr, Option.isSome_some, Bool.true_and, Bool.not_eq_true, Bool.not_eq_false'] at hno
        simp [hr, hno, hnone] at hs

/-- Whatever answer there is goes out. -/
theorem Fresh.sends_answer {m' : OpMedia} (h : m'.Fresh) (hver : m'.remoteVer = m.remoteVer)
    (hof : m'.sdpAnswer.isSome = true →
      m'.answerOf = (m'.localVer, if m.sdpAnswer.isSome then m.answerOf.2 else m.remoteOf)) :
    let r : OpMedia × Option SentSdp := match m'.sdpAnswer with
      | some answer => ({ m' with sdpAnswer := none }, some (.answer answer))
      | none => (m', none)
    r.1.Fresh ∧ m.Sends r := by
  cases ha : m'.sdpAnswer with
  | none => exact ⟨h, sends_none hver⟩
  | some answer =>
      refine ⟨⟨nofun, h.bound, h.result⟩, hver, fun _ _ => hof ?_⟩
      rw [ha]
      rfl

theorem Fresh.answerOf_eq (h : m.Fresh) (hs : m.sdpAnswer.isSome = true) :
    m.answerOf = (m.localVer, if m.sdpAnswer.isSome then m.answerOf.2 else m.remoteOf) := by
  rw [hs]
  exact Prod.ext (h.answer hs) rfl

/-- The answer that is sent is the prepared one, or is prepared now. -/
theorem Fresh.handleOfferAnswerResponse (h : m.Fresh) :
    (m.handleOfferAnswerResponse lib).1.Fresh ∧ m.Sends (m.handleOfferAnswerResponse lib) := by
  unfold OpMedia.handleOfferAnswerResponse
  cases m.localMedia with
  | none => exact ⟨h, sends_none rfl⟩
  | some locals =>
      change ((if m.sdpOffering then _ else _ : OpMedia × Option SentSdp)).1.Fresh ∧ _
      split
      · exact ⟨h, sends_offer rfl locals⟩
      · split
        · rename_i hprepare
          rw [Bool.and_eq_true, Option.isNone_iff_eq_none] at hprepare
          refine (fresh_sdpProcessWith h.answer locals).sends_answer rfl fun hs => ?_
          rw [hprepare.1]
          exact answerOf_sdpProcessWith locals hprepare.1 hs
        · exact h.sends_answer rfl h.answerOf_eq

theorem Fresh.fillInvite (h : m.Fresh) :
    m.fillInvite.1.Fresh ∧ m.Sends m.fillInvite := by
  unfold OpMedia.fillInvite
  split
  · exact ⟨⟨h.answer, h.bound, h.result⟩, sends_offer rfl _⟩
  · exact ⟨⟨h.answer, h.bound, h.result⟩, sends_none rfl⟩

theorem Fresh.ackSdp (h : m.Fresh) : m.ackSdp.1.Fresh ∧ m.Sends m.ackSdp :=
  h.sends_answer rfl h.answerOf_eq

end OpMedia

namespace CallOp

/-- Every answer that was sent, and every result that was returned, came from the local description
set last and the remote description that came in last. -/
structure Coherent (s : CallOp) : Prop where
  answers : ∀ e ∈ s.sentSdp, ∀ md, e.1 = .answer md → e.2.1 = e.2.2
  results : ∀ e ∈ s.reads, e.1 = e.2

/-- What is kept for later is fresh as well. -/
structure Negotiating (s : CallOp) : Prop extends Coherent s where
  fresh : s.media.Fresh

theorem Negotiating.congr {s s' : CallOp} (hs : s.Negotiating) (hmedia : s'.media.Fresh)
    (hsent : s'.sentSdp = s.sentSdp) (hreads : s'.reads = s.reads) : s'.Negotiating := by
  refine ⟨⟨?_, ?_⟩, hmedia⟩
  · rw [hsent]
    exact hs.answers
  · rw [hreads]
    exact hs.results

end CallOp

/-- What is negotiated is right after every function, which is all they owe each other. -/
def negotiating : Contract opSig where
  Inv := CallOp.Negotiating
  Rel _ _ := True
  Idle := CallOp.Negotiating
  Ok := UsesFresh
  refl _ := trivial
  trans _ _ := trivial
  inv_of_idle h := h
  idle_of_rel _ h _ := h

/-! ## Programs -/

/-- A program that leaves what is negotiated right. -/
abbrev Negotiates {α : Type} (p : OpProg α) : Prop := negotiating.Keeps (fun _ => True) p

/-- Actions on no description. -/
def OpAction.noMedia : OpAction → Prop
  | .media _ | .attach _ _ | .read => False
  | _ => True

theorem negotiates_of_acts {α : Type} {p : OpProg α} (hp : p.Acts OpAction.noMedia) :
    Negotiates p := by
  have hrespects : negotiating.Respects (fun _ => True) OpAction.noMedia := by
    intro x s hx hs _ _
    have hsame : ∀ s' : CallOp, s'.media = s.media → s'.sentSdp = s.sentSdp →
        s'.reads = s.reads → negotiating.Inv s' ∧ negotiating.Rel s s' := by
      intro s' hmedia hsent hreads
      refine ⟨hs.congr ?_ hsent hreads, trivial⟩
      rw [hmedia]
      exact hs.fresh
    cases x with
    | media f => exact absurd hx id
    | attach m sdp => exact absurd hx id
    | read => exact absurd hx id
    | arrive r =>
        rw [OpAction.apply_arrive]
        refine ⟨hs.congr ?_ rfl rfl, trivial⟩
        change (if _ then s.media.hear r.body else s.media : OpMedia).Fresh
        split
        · exact hs.fresh.hear r.body
        · exact hs.fresh
    | _ => exact hsame _ rfl rfl rfl
  exact hrespects.keeps Contract.stable_true hp

theorem negotiates_of_plain {α : Type} {p : OpProg α} (hp : p.Acts OpAction.plain) :
    Negotiates p := by
  refine negotiates_of_acts (hp.mono fun x hx => ?_)
  cases x <;> first | exact hx | trivial

theorem negotiates_action {x : OpAction} (hx : x.noMedia) : Negotiates (SalOpCall.perform x) :=
  negotiates_of_acts ⟨hx, trivial⟩

theorem Negotiates.seq {α β : Type} {p : OpProg α} {f : α → OpProg β} (hp : Negotiates p)
    (hf : ∀ a, Negotiates (f a)) : Negotiates (p >>= f) :=
  hp.bind Contract.stable_true hf

theorem Negotiates.when {b : Bool} {p : OpProg Unit} (hp : Negotiates p) :
    Negotiates (Prog.when b p) :=
  Contract.Keeps.when fun _ => hp

theorem Negotiates.ite {α : Type} {c : Prop} [Decidable c] {p q : OpProg α} (hp : Negotiates p)
    (hq : Negotiates q) : Negotiates (if c then p else q) :=
  Contract.Keeps.ite (fun _ => hp) fun _ => hq

theorem negotiates_getOp {α : Type} {f : CallOp → OpProg α} (hf : ∀ s, Negotiates (f s)) :
    Negotiates (getOp >>= f) :=
  Contract.keeps_current fun s hs _ => hf s s hs trivial

theorem negotiates_processMedia {f : MediaLib → OpMedia → Option OpMedia}
    (hf : ∀ lib (m m' : OpMedia), m.Fresh → f lib m = some m' → m'.Fresh) :
    Negotiates (processMedia f) := by
  refine Negotiates.seq (Contract.keeps_query _) fun lib => ?_
  refine Contract.keeps_current fun s hs _ => ?_
  cases hm : f lib s.media with
  | none => trivial
  | some m => exact fun _ => ⟨hs.congr (hf lib _ _ hs.fresh hm) rfl rfl, trivial⟩

/-- SDP goes out. -/
theorem negotiates_attach {f : MediaLib → OpMedia → OpMedia × Option SentSdp}
    (hf : ∀ lib (m : OpMedia), m.Fresh → (f lib m).1.Fresh ∧ m.Sends (f lib m)) :
    Negotiates (attach f) := by
  intro s hs _ lib hok
  have h := hf lib s.media hs.fresh
  change UsesFresh (.attach (f lib s.media).1 (f lib s.media).2) s at hok
  change CallOp.Negotiating (OpAction.apply (.attach (f lib s.media).1 (f lib s.media).2) s) ∧ True
  generalize f lib s.media = r at h hok ⊢
  obtain ⟨m, sdp⟩ := r
  obtain ⟨hfresh, hver, hsends⟩ := h
  refine ⟨⟨⟨?_, hs.results⟩, hfresh⟩, trivial⟩
  cases sdp with
  | none => exact hs.answers
  | some sdp =>
      cases sdp with
      | offer md =>
          intro e he md' hanswer
          rcases List.mem_cons.mp he with rfl | he
          · cases hanswer
          · exact hs.answers e he md' hanswer
      | answer md =>
          intro e he md' hanswer
          rcases List.mem_cons.mp he with rfl | he
          · exact (hsends md rfl).trans (Prod.ext rfl (hok.trans hver.symm))
          · exact hs.answers e he md' hanswer

/-! ## Functions of the call layer -/

theorem negotiates_getFinal : Negotiates getFinalMediaDescription := by
  refine (negotiates_processMedia fun lib m m' h hm => ?_).seq fun _ =>
    Negotiates.seq ?_ fun _ => ?_
  · cases hm
    exact h.getFinal
  · refine Contract.keeps_perform fun s hs _ hok => ⟨⟨⟨hs.answers, ?_⟩, hs.fresh⟩, trivial⟩
    change ∀ e ∈ (if s.media.result.isSome then (s.media.resultOf, s.media.versions) :: s.reads
      else s.reads), e.1 = e.2
    split
    · rename_i hsome
      obtain ⟨hlocal, hremote⟩ := hok hsome
      intro e he
      rcases List.mem_cons.mp he with rfl | he
      · exact Prod.ext hlocal ((hs.fresh.result hsome hlocal).2.trans hremote)
      · exact hs.results e he
    · exact hs.results
  · exact negotiates_getOp fun s => Contract.keeps_pure _

theorem negotiates_fillInvite (m : SipMethod) : Negotiates (do
    let created ← SalOpCall.query (.created m)
    Prog.when created do
      attach fun _ m => m.fillInvite
      SalOpCall.perform (.send m)
    pure created) := by
  refine Negotiates.seq (Contract.keeps_query _) fun created => ?_
  refine Negotiates.seq (Negotiates.when ?_) fun _ => Contract.keeps_pure _
  refine (negotiates_attach fun _ m h => h.fillInvite).seq fun _ => ?_
  exact negotiates_of_plain ⟨trivial, trivial⟩

theorem negotiates_update (noUserConsent : Bool) : Negotiates (update noUserConsent) := by
  refine negotiates_getOp fun s => ?_
  cases s.dialog with
  | none => exact Contract.keeps_stuck
  | some d =>
      dsimp only
      cases s.dialogState d with
      | null => exact Contract.keeps_pure false
      | terminated => exact Contract.keeps_pure false
      | early => exact negotiates_fillInvite .update
      | confirmed => exact negotiates_fillInvite _

theorem negotiates_answer : Negotiates (attach fun lib m => m.handleOfferAnswerResponse lib) :=
  negotiates_attach fun _ _ h => h.handleOfferAnswerResponse

theorem negotiates_notifyRinging (earlyMedia : Bool) : Negotiates (notifyRinging earlyMedia) := by
  refine negotiates_getOp fun s => ?_
  cases s.pendingServerTrans with
  | none => exact Contract.keeps_stuck
  | some t =>
      refine (Negotiates.when negotiates_answer).seq fun _ => ?_
      exact negotiates_of_plain ⟨trivial, trivial⟩

theorem negotiates_accept : Negotiates accept := by
  refine negotiates_getOp fun s => ?_
  cases s.pendingUpdateServerTrans <|> s.pendingServerTrans with
  | none => exact Contract.keeps_pure ()
  | some t =>
      refine negotiates_answer.seq fun _ => negotiates_of_acts ?_
      exact ⟨trivial, trivial, trivial⟩

theorem negotiates_decline : Negotiates decline := by
  refine negotiates_of_acts (responds_decline.mono fun x hx => ?_)
  obtain ⟨t, rfl⟩ := hx
  trivial

theorem negotiates_setLocal (desc : Option SalMediaDescription) :
    Negotiates (setLocalMediaDescription desc) := by
  refine Contract.keeps_perform fun s hs _ hok => ⟨hs.congr ?_ rfl rfl, trivial⟩
  exact hs.fresh.setLocal desc (hok (Nat.succ_ne_self _))

theorem negotiates_salCall (a : SalCall) : Negotiates a.program := by
  have hignore : ∀ {α : Type} {p : OpProg α}, Negotiates p → Negotiates (SalCall.ignore p) :=
    fun hp => hp.seq fun _ => Contract.keeps_pure ()
  cases a with
  | call => exact hignore (negotiates_fillInvite .invite)
  | setLocalMediaDescription desc => exact negotiates_setLocal desc
  | getFinalMediaDescription => exact hignore negotiates_getFinal
  | notifyRinging earlyMedia => exact negotiates_notifyRinging earlyMedia
  | accept => exact negotiates_accept
  | decline => exact negotiates_decline
  | update noUserConsent => exact hignore (negotiates_update noUserConsent)
  | sendInDialog m => exact negotiates_of_plain (acts_sendInDialog m)
  | terminate => exact hignore (negotiates_of_plain acts_terminate)
  | release => exact negotiates_of_plain acts_release

/-! ## Responses -/

section responses

variable (r : SalResponse)

theorem negotiates_handleSdpFromResponse : Negotiates (handleSdpFromResponse r) := by
  refine negotiates_processMedia fun lib m m' h hm => ?_
  cases hm
  exact h.handleSdpFromResponse r.body

theorem negotiates_responseRinging : Negotiates (responseRinging r) := by
  unfold responseRinging
  cases r.dialog with
  | none => exact Contract.keeps_stuck
  | some dx =>
      refine negotiates_getOp fun s => ?_
      refine (Negotiates.when ?_).seq fun _ => negotiates_of_plain ⟨trivial, trivial⟩
      refine (negotiates_handleSdpFromResponse r).seq fun _ => ?_
      exact negotiates_of_plain (acts_upcall .callRinging)

theorem negotiates_responseEarly : Negotiates (responseEarly r) := by
  refine negotiates_getOp fun s => ?_
  have hreleased : Negotiates callSetReleased := negotiates_of_plain acts_callSetReleased
  refine Negotiates.ite ?_ ?_
  · refine Negotiates.ite (negotiates_of_plain (acts_responseTerminating r)) ?_
    refine Negotiates.ite (negotiates_responseRinging r) (Negotiates.when ?_)
    refine (negotiates_of_plain (acts_upcall .callFailure)).seq fun _ => ?_
    exact negotiates_getOp fun s => hreleased.when
  · refine Negotiates.when ((negotiates_handleSdpFromResponse r).seq fun _ => ?_)
    exact negotiates_of_plain (acts_upcall .callAccepted)

theorem negotiates_responseInviteOk : Negotiates (responseInviteOk r) := by
  refine (negotiates_handleSdpFromResponse r).seq fun _ => Negotiates.when ?_
  refine (negotiates_attach fun _ m h => h.ackSdp).seq fun _ => ?_
  exact negotiates_of_plain ⟨trivial, (acts_upcall .callAccepted).bind fun _ => ⟨trivial, trivial⟩⟩

theorem negotiates_responseConfirmed : Negotiates (responseConfirmed r) := by
  refine negotiates_getOp fun s => ?_
  have hfailure := negotiates_of_plain (acts_upcall .callFailure)
  have hopen : Negotiates (if r.method = .invite then
        if 200 ≤ r.code ∧ r.code < 300 then responseInviteOk r
        else Prog.when (300 ≤ r.code) callSetError
      else if r.method = .info then
        Prog.when (r.code = 491 && r.vfu) (SalOpCall.perform .addTimer)
      else Prog.when (r.method = .update) (upcall .callAccepted)) := by
    refine Negotiates.ite ?_ (Negotiates.ite ?_ ?_)
    · exact Negotiates.ite (negotiates_responseInviteOk r) hfailure.when
    · exact (negotiates_action (x := .addTimer) trivial).when
    · exact (negotiates_of_plain (acts_upcall .callAccepted)).when
  cases s.state with
  | early => exact hopen
  | active => exact hopen
  | terminating => exact negotiates_of_plain (acts_send .bye)
  | terminated => exact Contract.keeps_pure ()

theorem negotiates_callProcessResponse : Negotiates (callProcessResponse r) := by
  refine (negotiates_action (x := .process r) trivial).seq fun _ => ?_
  refine (negotiates_action (x := .setDialog _) trivial).seq fun _ => ?_
  cases (r.dialog.map Prod.snd).getD .null with
  | null => exact negotiates_responseEarly r
  | early => exact negotiates_responseEarly r
  | confirmed => exact negotiates_responseConfirmed r
  | terminated => exact (negotiates_of_plain (acts_upcall .callFailure)).when

theorem negotiates_passResponse : Negotiates (passResponse r) := by
  refine (Negotiates.when ?_).seq fun _ => negotiates_callProcessResponse r
  exact negotiates_of_plain ⟨trivial, trivial⟩

theorem negotiates_processResponseEvent : Negotiates (processResponseEvent r) := by
  have hother := negotiates_of_plain (acts_upcall .other)
  have hfilter : Negotiates (filterResponse r) := by
    refine negotiates_getOp fun s => ?_
    refine Negotiates.ite (Contract.keeps_pure ()) (Negotiates.ite ?_ ?_)
    · refine Negotiates.seq (negotiates_of_plain ⟨trivial, trivial⟩) fun _ => ?_
      refine Negotiates.ite (hother.seq fun _ => negotiates_passResponse r) ?_
      exact (negotiates_action (x := .resend r.method) trivial).when
    · exact hother.when.seq fun _ => negotiates_passResponse r
  refine (negotiates_action (x := .arrive r) trivial).seq fun _ => ?_
  cases r.dialog with
  | none => exact hfilter
  | some dx => exact (negotiates_action (x := .moveDialog _ _) trivial).seq fun _ => hfilter

end responses

/-! ## Requests -/

theorem negotiates_of_wp {α : Type} {p : OpProg α}
    (h : ∀ s : CallOp, s.Negotiating → negotiating.wp p (fun _ => CallOp.Negotiating) s) :
    Negotiates p :=
  fun s hs _ => Contract.wp_mono (fun _ _ hs' => ⟨hs', trivial⟩) (h s hs)

theorem Negotiates.wp {α : Type} {p : OpProg α} (h : Negotiates p) {s : CallOp}
    (hs : s.Negotiating) : negotiating.wp p (fun _ => CallOp.Negotiating) s :=
  Contract.wp_mono (fun _ _ hs' => hs'.1) (h s hs trivial)

theorem Negotiates.wp_seq {α β : Type} {p : OpProg α} {f : α → OpProg β} {s : CallOp}
    (hf : ∀ a, Negotiates (f a)) (hp : negotiating.wp p (fun _ => CallOp.Negotiating) s) :
    negotiating.wp (p >>= f) (fun _ => CallOp.Negotiating) s := by
  rw [Contract.wp_bind]
  exact Contract.wp_mono (fun a _ hs' => (hf a).wp hs') hp

section requests

variable (q : SalRequest) (t : TransId) {s : CallOp}

/-- A new offer, when there is no result. -/
theorem wp_processSdpForInvite (hs : s.Negotiating) (hresult : s.media.result = none)
    (body : MessageBody) :
    negotiating.wp (processSdpForInvite body) (fun _ => CallOp.Negotiating) s := by
  intro _
  have hs' : CallOp.Negotiating
      (OpAction.apply (.media fun _ => (s.media.processSdpForInvite body).1) s) :=
    hs.congr (hs.fresh.processSdpForInvite hresult body) rfl rfl
  cases (s.media.processSdpForInvite body).2 with
  | none => exact hs'
  | some reason =>
      exact Negotiates.wp (negotiates_decline.seq fun _ => Contract.keeps_pure false) hs'

theorem negotiates_requestUpdating : Negotiates (requestUpdating q) := by
  refine negotiates_of_wp fun s hs _ => ?_
  have hreset : CallOp.Negotiating (OpAction.apply (.media (·.resetDescriptions)) s) :=
    hs.congr hs.fresh.resetDescriptions rfl rfl
  refine Negotiates.wp_seq (p := processSdpForInvite q.body) (fun ok => Negotiates.when ?_)
    (wp_processSdpForInvite hreset rfl q.body)
  exact negotiates_of_plain (acts_upcall _)

theorem negotiates_requestCancel : Negotiates (requestCancel q t) := by
  refine negotiates_getOp fun s => Negotiates.ite ?_ (negotiates_action (x := .final t) trivial)
  cases s.pendingServerTrans with
  | none => exact Contract.keeps_stuck
  | some invite =>
      refine (negotiates_action (x := .final t) trivial).seq fun _ => ?_
      refine (negotiates_of_plain (acts_upcall .callTerminated)).seq fun _ => ?_
      exact negotiates_action (x := .final invite) trivial

theorem negotiates_requestEarly : Negotiates (requestEarly q t) := by
  unfold requestEarly
  cases q.method with
  | cancel => exact negotiates_requestCancel q t
  | update => exact negotiates_requestUpdating q
  | ack => exact Contract.keeps_stuck
  | _ => exact negotiates_action (x := .final t) trivial

theorem negotiates_requestConfirmed : Negotiates (requestConfirmed q t) := by
  have hfinal := negotiates_action (x := .final t) trivial
  have hother := negotiates_of_plain (acts_upcall .other)
  unfold requestConfirmed
  cases q.method with
  | ack =>
      refine (negotiates_processMedia fun lib m m' h hm => h.handleSdpFromAck hm).seq fun _ => ?_
      exact negotiates_of_plain (acts_upcall .callAck)
  | bye =>
      refine hfinal.seq fun _ => ?_
      refine (negotiates_of_plain (acts_upcall .callTerminated)).seq fun _ => ?_
      exact negotiates_action (x := .setState _) trivial
  | invite => exact negotiates_requestUpdating q
  | update =>
      cases q.body with
      | empty => exact hfinal.seq fun _ => negotiates_action (x := .clearUpdateTrans) trivial
      | _ => exact negotiates_requestUpdating q
  | info => exact hother.seq fun _ => hfinal
  | refer => exact hfinal.seq fun _ => hother
  | notify => exact hfinal.seq fun _ => hother
  | message => exact hother
  | _ => exact hfinal

/-- The request in its dialog; an INVITE that opens one finds no result. -/
theorem wp_requestInDialog (hs : s.Negotiating)
    (hopen : q.method = .invite → s.currentDialogState = .null → s.media.result = none) :
    negotiating.wp (requestInDialog q t) (fun _ => CallOp.Negotiating) s := by
  rw [requestInDialog, wp_getOp]
  cases hd : s.currentDialogState with
  | null =>
      change negotiating.wp (if q.method = .invite then _ else _) _ s
      split
      · refine Negotiates.wp_seq (fun ok => ?_) (wp_processSdpForInvite hs (hopen ‹_› hd) q.body)
        exact (negotiates_of_plain (acts_upcall .callReceived)).when
      · exact (negotiates_requestEarly q t).wp hs
  | early => exact (negotiates_requestEarly q t).wp hs
  | confirmed => exact (negotiates_requestConfirmed q t).wp hs
  | terminated => exact hs

theorem wp_requestReceived (hs : s.Negotiating) (b : Bool) {d : Option DialogId}
    (hopen : q.method = .invite → s.currentDialogState = .null → s.media.result = none)
    {b' : Bool} (hdialog : b' = true → s.dialog = none) :
    negotiating.wp (do
      Prog.when b (SalOpCall.perform (.media (·.hear q.body)))
      Prog.when b' (SalOpCall.perform (.setDialog d))
      requestInDialog q t) (fun _ => CallOp.Negotiating) s := by
  -- hearing the offer changes neither the dialog nor the result
  have hheard : ∀ s' : CallOp, s'.Negotiating → s'.dialog = s.dialog →
      s'.dialogState = s.dialogState → s'.media.result = s.media.result →
      negotiating.wp (do
        Prog.when b' (SalOpCall.perform (.setDialog d))
        requestInDialog q t) (fun _ => CallOp.Negotiating) s' := by
    intro s' hs' h₁ h₂ h₃
    cases b' with
    | true =>
        intro _
        refine wp_requestInDialog q t (hs'.congr hs'.fresh rfl rfl) fun hm _ => h₃.trans ?_
        refine hopen hm ?_
        rw [CallOp.currentDialogState, hdialog rfl]
        rfl
    | false =>
        refine wp_requestInDialog q t hs' fun hm hd => h₃.trans (hopen hm ?_)
        rw [← hd, CallOp.currentDialogState, CallOp.currentDialogState, h₁, h₂]
  cases b with
  | true =>
      intro _
      refine hheard _ (hs.congr (hs.fresh.hear q.body) rfl rfl) rfl rfl ?_
      change (s.media.hear q.body).result = s.media.result
      cases q.body <;> rfl
  | false => exact hheard s hs rfl rfl rfl

theorem negotiates_processRequestEvent : Negotiates (processRequestEvent q) := by
  refine (negotiates_action (x := .moveDialog _ _) trivial).seq fun _ => ?_
  refine negotiates_getOp fun s => Negotiates.when ?_
  refine negotiates_of_wp fun s hs => ?_
  by_cases hm : q.method = .ack
  · have hno : decide (q.method ≠ .ack) = false := by
      rw [hm]
      rfl
    change negotiating.wp (Prog.when (q.method ≠ .ack) (SalOpCall.perform (.receive q.method)) >>=
      fun _ => _) _ s
    rw [hno]
    refine wp_requestReceived q _ hs _ (fun hinvite => ?_) Option.isNone_iff_eq_none.mp
    rw [hm] at hinvite
    cases hinvite
  · have hyes : decide (q.method ≠ .ack) = true := decide_eq_true hm
    change negotiating.wp (Prog.when (q.method ≠ .ack) (SalOpCall.perform (.receive q.method)) >>=
      fun _ => _) _ s
    rw [hyes]
    intro hok
    have hs' : CallOp.Negotiating (OpAction.apply (.receive q.method) s) :=
      hs.congr hs.fresh rfl rfl
    refine wp_requestReceived q _ hs' _ (fun hinvite hd => ?_) Option.isNone_iff_eq_none.mp
    rw [hinvite] at hok
    exact Option.isNone_iff_eq_none.mp (hok hd)

end requests

/-! ## Runs -/

theorem negotiates_salEvent (e : SalEvent) : Negotiates e.program := by
  by_cases hresponse : ∃ r, e = .response r
  · obtain ⟨r, rfl⟩ := hresponse
    exact negotiates_processResponseEvent r
  by_cases hrequest : ∃ q, e = .request q
  · obtain ⟨q, rfl⟩ := hrequest
    exact negotiates_processRequestEvent q
  by_cases hend : ∃ m code t, e = .transactionTerminated m code (some t)
  · obtain ⟨m, code, t, rfl⟩ := hend
    refine negotiates_getOp fun s => ?_
    refine (negotiates_action (x := .endTrans t) trivial).seq fun _ => Negotiates.when ?_
    exact negotiates_of_plain acts_callSetReleased
  · refine negotiates_of_plain (e.acts_program ?_ ?_ ?_)
    · exact fun r h => hresponse ⟨r, h⟩
    · exact fun q h => hrequest ⟨q, h⟩
    · exact fun m code t h => hend ⟨m, code, t, h⟩

theorem meets_negotiating : Meets negotiating (opSystem UsesFresh) where
  init := by
    rintro s ⟨dir, handling, cnx, one, authInfo, rfl⟩
    refine ⟨⟨fun e he => absurd he List.not_mem_nil, fun e he => absurd he List.not_mem_nil⟩, ?_⟩
    exact ⟨Bool.false_ne_true.elim, Nat.le_refl 0, Bool.false_ne_true.elim⟩
  ok _ _ h := h
  api := by
    rintro s _ ⟨a, -, rfl⟩ hs
    exact negotiates_salCall a s hs trivial
  event := by
    rintro s _ ⟨e, -, rfl⟩ hs
    exact (negotiates_salEvent e).wp hs

/-- **What is sent and returned is up to date.** In every run that uses only what is fresh, every
answer that was sent and every result that was returned came from the local description set last
and the remote description that came in last. -/
theorem coherent_of_reachable {cfg : Config opSig} (hr : Reachable (opSystem UsesFresh) cfg)
    (ho : cfg.Observed) : CallOp.Coherent cfg.state :=
  (meets_negotiating.inv_of_reachable hr ho).toCoherent

/-! ## A result that is read early -/

/-- The INVITE, the first local description, and the result of the two. -/
def negotiatedOp (ok : OpAction → CallOp → Bool) : CallOp :=
  opAfter ok (SalCall.program .getFinalMediaDescription)
    (opAfter ok (SalCall.setLocalMediaDescription (some audioOffer)).program
      (opAfter ok (offered .invite .null).program (.fresh .incoming .normal false false false)))

theorem reachable_negotiatedOp {ok : OpAction → CallOp → Prop}
    (hok : ∀ x s, UsesFresh x s → ok x s) :
    Reachable (opSystem ok) ⟨[], negotiatedOp fun x s => UsesFresh x s⟩ := by
  have hok' : ∀ x s, decide (UsesFresh x s) = true → ok x s :=
    fun x s h => hok x s (of_decide_eq_true h)
  have hinvited := reachable_afterEvent hok' (reachable_fresh ok .incoming)
    (offered .invite .null) trivial rfl
  have hlocal := reachable_afterCall hok' hinvited (.setLocalMediaDescription (some audioOffer))
    trivial rfl
  exact reachable_afterCall hok' hlocal .getFinalMediaDescription trivial rfl

/-- The answer that is sent is the one of the result. -/
theorem coherent_of_accept :
    CallOp.Coherent (opAfter (fun x s => UsesFresh x s) SalCall.accept.program
      (negotiatedOp fun x s => UsesFresh x s)) := by
  have hok : ∀ x s, decide (UsesFresh x s) = true → UsesFresh x s :=
    fun x s h => of_decide_eq_true h
  have hr := reachable_afterCall hok (reachable_negotiatedOp fun x s h => h) .accept rfl rfl
  exact coherent_of_reachable hr (.inl rfl)

/-- A new local description leaves the result of the old one, and it is returned. -/
theorem stale_result_returned : ¬∀ cfg : Config opSig,
    Reachable (opSystem fun _ _ => True) cfg → cfg.Observed → CallOp.Coherent cfg.state := by
  intro h
  have hany : ∀ x s, (fun (_ : OpAction) (_ : CallOp) => true) x s = true → True :=
    fun _ _ _ => trivial
  have hlocal := reachable_afterCall hany (reachable_negotiatedOp fun _ _ _ => trivial)
    (.setLocalMediaDescription (some audioOffer)) trivial rfl
  have hread := reachable_afterCall hany hlocal .getFinalMediaDescription trivial rfl
  have hresult := (h _ hread (.inl rfl)).results ((1, 1), (2, 1)) List.mem_cons_self
  exact absurd hresult (by decide)

end Linphone
