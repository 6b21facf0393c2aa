import Linphone.Call.Lifecycle
import Linphone.Sal.CallHandlers

/-!
# Operations without a call

`sal_op_release` clears the user pointer of an operation, and the operation lives on as long as
transactions and dialogs refer to it. The callbacks of `coreapi/callbacks.c` find the call through
that pointer, and most of them test it first. `call_failure` reads the referer of the call before
its test, and `call_updating` has none.

`spares_of_reachable`: in a run in which no event that is reported as a failure or as an update
comes in after the release, every upcall made without a call returns and leaves the core alone.
-/

namespace Linphone

open Reentrant SalOpCall

/-! ## Callbacks -/

/-- A callback that tests the user pointer first. -/
def testing (p : CallId → CoreProg Unit) : Option CallId → CoreProg Unit
  | some c => p c
  | none => pure ()

/-- A callback that uses the call before any test. -/
def trusting (p : CallId → CoreProg Unit) : Option CallId → CoreProg Unit
  | some c => p c
  | none => .stuck

namespace Upcall

/-- The upcalls on a session. -/
def ofCall : Upcall → Bool
  | .callReceived | .other => false
  | _ => true

/-- The callbacks, on the call the operation points to; those that are not on a session are left
out. -/
def program (reason : SalReason) (contact : Bool) (call : Option CallId) : Upcall → CoreProg Unit
  | .callRinging => testing Linphone.callRinging call
  | .callAccepted => testing Linphone.callAccepted call
  | .callAck => testing Linphone.callAck call
  -- the operation or the state of the call is read
  | .callUpdating isUpdate => trusting (Linphone.callUpdating · isUpdate) call
  | .callTerminated => testing Linphone.callTerminated call
  -- the referer is read before the test
  | .callFailure => trusting (Linphone.callFailure · reason contact) call
  | .callReleased => testing Linphone.callReleased call
  | .callReceived | .other => pure ()

/-- The upcalls that are made on calls only. -/
def needsCall : Upcall → Bool
  | .callFailure | .callUpdating _ => true
  | _ => false

end Upcall

/-- A callback returns, and all calls are what they were. -/
def Spares (p : CoreProg Unit) : Prop :=
  ∀ answers s, p.play (fun _ _ => true) answers s = some ((), s)

/-- **The callbacks that return** without a call are those that test for it. -/
theorem spares_iff (u : Upcall) (reason : SalReason) (contact : Bool) :
    Spares (u.program reason contact none) ↔ u.needsCall = false := by
  have hreturns : Spares (pure ()) := fun _ _ => rfl
  have hstuck : ¬Spares .stuck := fun h => nomatch h plainAnswers {}
  cases u with
  | callFailure => exact iff_of_false hstuck (by decide)
  | callUpdating isUpdate => exact iff_of_false hstuck (by simp [Upcall.needsCall])
  | _ => exact iff_of_true hreturns rfl

/-! ## The condition -/

/-- A response that is reported as a failure. -/
def SalResponse.reportsFailure (r : SalResponse) (s : CallOp) : Bool :=
  300 ≤ r.code && match (r.dialog.map Prod.snd).getD .null with
    | .null | .early => r.method = .invite && s.state ≠ .terminating
    | .confirmed => r.method = .invite && (s.state = .early || s.state = .active)
    | .terminated => true

/-- The state of the dialog in which the operation finds a request. -/
def SalRequest.dialogState (q : SalRequest) (s : CallOp) : DialogState :=
  Function.update s.dialogState q.dialog.1 q.dialog.2 (s.dialog.getD q.dialog.1)

/-- The requests that change a session. -/
def SalRequest.changes (q : SalRequest) (x : DialogState) : Bool :=
  match x, q.method, q.body with
  | .terminated, _, _ | .confirmed, .update, .empty => false
  | .confirmed, .invite, _ | _, .update, _ => true
  | _, _, _ => false

/-- A request that is reported as an update: its offer, if any, can be read. -/
def SalRequest.reportsUpdate (q : SalRequest) (s : CallOp) : Bool :=
  s.state ≠ .terminated && q.changes (q.dialogState s) &&
    (s.media.processSdpForInvite q.body).2.isNone

/-- Responses that are reported as failures are for operations with a call. -/
def AnswersCall : OpAction → CallOp → Prop
  | .process r, s => s.attached = false → r.reportsFailure s = false
  | _, _ => True

instance (x : OpAction) (s : CallOp) : Decidable (AnswersCall x s) := by
  unfold AnswersCall
  split <;> infer_instance

/-- So are the other events that are reported as failures, and those reported as updates. -/
def SalEvent.FindsCall (s : CallOp) : SalEvent → Prop
  | .request q => s.attached = false → q.reportsUpdate s = false
  | .ioError | .timeout => s.attached = false → s.state = .terminated ∨ s.dialog.isSome = true
  | _ => True

/-- The runs in which they all are. -/
def callSystem : System opSig :=
  { opSystem AnswersCall with
    event := fun s p => ∃ e : SalEvent, e.Enabled s ∧ e.FindsCall s ∧ p = e.program }

/-! ## What is kept -/

/-- The upcalls that were made without a call do not need one. -/
def CallOp.Orphaned (s : CallOp) : Prop := ∀ u ∈ s.orphaned, u.needsCall = false

theorem CallOp.Orphaned.tell {s : CallOp} (hs : s.Orphaned) {u : Upcall}
    (hu : s.attached = false → u.needsCall = false) : (s.tell u).Orphaned := by
  intro v hv
  change v ∈ (if s.attached then s.orphaned else u :: s.orphaned) at hv
  split at hv
  · exact hs v hv
  · rename_i hno
    rcases List.mem_cons.mp hv with rfl | hv
    · exact hu (Bool.eq_false_iff.mpr hno)
    · exact hs v hv

def orphaned : Contract opSig where
  Inv := CallOp.Orphaned
  Rel _ _ := True
  Idle := CallOp.Orphaned
  Ok := AnswersCall
  refl _ := trivial
  trans _ _ := trivial
  inv_of_idle h := h
  idle_of_rel _ h _ := h

/-- A program all of whose upcalls without a call are fine. -/
abbrev Suits {α : Type} (p : OpProg α) : Prop := orphaned.Keeps (fun _ => True) p

/-- Actions apart from the upcalls that need a call. -/
def OpAction.suits : OpAction → Prop
  | .tell u => u.needsCall = false
  | _ => True

/-- Actions apart from upcalls. -/
def OpAction.silent : OpAction → Prop
  | .tell _ => False
  | _ => True

theorem suits_of_acts {α : Type} {p : OpProg α} (hp : p.Acts OpAction.suits) : Suits p := by
  have hrespects : orphaned.Respects (fun _ => True) OpAction.suits := by
    intro x s hx hs _ _
    refine ⟨?_, trivial⟩
    cases x with
    | tell u => exact CallOp.Orphaned.tell hs fun _ => hx
    | arrive r =>
        rw [OpAction.apply_arrive]
        exact hs
    | _ => exact hs
  exact hrespects.keeps Contract.stable_true hp

theorem suits_of_silent {α : Type} {p : OpProg α} (hp : p.Acts OpAction.silent) : Suits p := by
  refine suits_of_acts (hp.mono fun x hx => ?_)
  cases x with
  | tell u => exact absurd hx id
  | _ => trivial

/-! ## Functions of the call layer -/

section calls

theorem silent_processMedia (f : MediaLib → OpMedia → Option OpMedia) :
    (processMedia f).Acts OpAction.silent := by
  refine Prog.Acts.bind (fun _ => trivial) fun lib => Prog.Acts.bind (fun _ => trivial) fun s => ?_
  cases f lib s.media with
  | none => trivial
  | some m => exact ⟨trivial, trivial⟩

theorem silent_attach (f : MediaLib → OpMedia → OpMedia × Option SentSdp) :
    (attach f).Acts OpAction.silent := fun _ _ => ⟨trivial, trivial⟩

theorem silent_of_basic {α : Type} {p : OpProg α} (hp : p.Acts OpAction.basic) :
    p.Acts OpAction.silent := by
  refine hp.mono fun x hx => ?_
  cases x with
  | tell u => exact absurd hx id
  | _ => trivial

theorem silent_fillInvite (m : SipMethod) : (do
    let created ← SalOpCall.query (.created m)
    Prog.when created do
      attach fun _ m => m.fillInvite
      SalOpCall.perform (.send m)
    pure created).Acts OpAction.silent := by
  refine Prog.Acts.bind (fun _ => trivial) fun created => ?_
  refine Prog.Acts.bind (Prog.Acts.when ?_) fun _ => trivial
  exact (silent_attach _).bind fun _ => ⟨trivial, trivial⟩

theorem silent_update (noUserConsent : Bool) : (update noUserConsent).Acts OpAction.silent := by
  refine Prog.Acts.bind (fun _ => trivial) fun s => ?_
  cases s.dialog with
  | none => trivial
  | some d =>
      dsimp only
      cases s.dialogState d with
      | null => trivial
      | terminated => trivial
      | early => exact silent_fillInvite .update
      | confirmed => exact silent_fillInvite _

theorem silent_notifyRinging (earlyMedia : Bool) :
    (notifyRinging earlyMedia).Acts OpAction.silent := by
  refine Prog.Acts.bind (fun _ => trivial) fun s => ?_
  cases s.pendingServerTrans with
  | none => trivial
  | some t => exact (Prog.Acts.when (silent_attach _)).bind fun _ => ⟨trivial, trivial⟩

theorem silent_accept : accept.Acts OpAction.silent := by
  refine Prog.Acts.bind (fun _ => trivial) fun s => ?_
  cases s.pendingUpdateServerTrans <|> s.pendingServerTrans with
  | none => trivial
  | some t => exact (silent_attach _).bind fun _ => ⟨trivial, trivial, trivial⟩

/-- No function of the call layer makes an upcall. -/
theorem silent_salCall (a : SalCall) : a.program.Acts OpAction.silent := by
  have hignore : ∀ {α : Type} {p : OpProg α}, p.Acts OpAction.silent →
      (SalCall.ignore p).Acts OpAction.silent := fun hp => hp.bind fun _ => trivial
  cases a with
  | call => exact hignore (silent_fillInvite .invite)
  | setLocalMediaDescription desc => exact ⟨trivial, trivial⟩
  | getFinalMediaDescription =>
      refine hignore (Prog.Acts.bind (silent_processMedia _) fun _ => ?_)
      exact ⟨trivial, fun _ => trivial⟩
  | notifyRinging earlyMedia => exact silent_notifyRinging earlyMedia
  | accept => exact silent_accept
  | decline => exact silent_of_basic basic_decline
  | update noUserConsent => exact hignore (silent_update noUserConsent)
  | sendInDialog m => exact silent_of_basic (basic_sendInDialog m)
  | terminate => exact hignore (silent_of_basic basic_terminate)
  | release => exact silent_of_basic basic_release

end calls

/-! ## Small programs -/

theorem Suits.seq {α β : Type} {p : OpProg α} {f : α → OpProg β} (hp : Suits p)
    (hf : ∀ a, Suits (f a)) : Suits (p >>= f) :=
  hp.bind Contract.stable_true hf

theorem Suits.when {b : Bool} {p : OpProg Unit} (hp : Suits p) : Suits (Prog.when b p) :=
  Contract.Keeps.when fun _ => hp

theorem suits_action {x : OpAction} (hx : x.suits) : Suits (SalOpCall.perform x) :=
  suits_of_acts ⟨hx, trivial⟩

theorem suits_upcall {u : Upcall} (hu : u.needsCall = false) : Suits (upcall u) :=
  suits_of_acts ⟨hu, trivial⟩

theorem wp_attached {u : Upcall} {s : CallOp} (hs : s.Orphaned)
    (hu : s.attached = false → u.needsCall = false) :
    orphaned.wp (upcall u) (fun _ s' => orphaned.Inv s' ∧ orphaned.Rel s s') s :=
  fun _ => ⟨hs.tell hu, fun _ hs' _ => ⟨hs', trivial⟩⟩

theorem Suits.wp_seq {α β : Type} {p : OpProg α} {f : α → OpProg β} {s : CallOp}
    (hp : orphaned.wp p (fun _ s' => orphaned.Inv s' ∧ orphaned.Rel s s') s)
    (hf : ∀ a, Suits (f a)) :
    orphaned.wp (p >>= f) (fun _ s' => orphaned.Inv s' ∧ orphaned.Rel s s') s := by
  rw [Contract.wp_bind]
  exact Contract.wp_mono (fun a s' hs' => hf a s' hs'.1 trivial) hp

theorem suits_callSetReleased : Suits callSetReleased := by
  refine Contract.keeps_current fun s hs _ => ?_
  refine Suits.when ?_ s hs trivial
  refine (suits_action (x := .setState _) trivial).seq fun _ => ?_
  refine (suits_upcall rfl).seq fun _ => ?_
  exact suits_of_acts ⟨trivial, trivial, trivial⟩

/-! ## Responses -/

section responses

variable (r : SalResponse) {s : CallOp}

theorem suits_responseTerminating : Suits (responseTerminating r) := by
  refine Contract.keeps_current fun s hs _ => ?_
  cases s.pendingClientTrans with
  | none => trivial
  | some m =>
      change orphaned.wp (if m ≠ .cancel then _ else _) _ s
      split
      · split
        · exact suits_of_silent (silent_of_basic basic_cancellingInvite) s hs trivial
        · exact suits_callSetReleased.when s hs trivial
      · exact suits_callSetReleased.when s hs trivial

theorem suits_responseRinging : Suits (responseRinging r) := by
  unfold responseRinging
  cases r.dialog with
  | none => exact Contract.keeps_stuck
  | some dx =>
      refine Contract.keeps_current fun s hs _ => ?_
      refine Suits.seq ?_ (fun _ => suits_action (x := .keepEarlyResponse _ _) trivial) s hs trivial
      refine Suits.when (Suits.seq ?_ fun _ => suits_upcall rfl)
      exact suits_of_silent (silent_processMedia _)

theorem wp_callSetError (hs : s.Orphaned) (hfind : s.attached = false → False) :
    orphaned.wp callSetError (fun _ s' => orphaned.Inv s' ∧ orphaned.Rel s s') s :=
  wp_attached hs fun h => (hfind h).elim

theorem wp_earlyResponse (hs : s.Orphaned)
    (hdialog : (r.dialog.map Prod.snd).getD .null = .null ∨
      (r.dialog.map Prod.snd).getD .null = .early)
    (hfind : s.attached = false → r.reportsFailure s = false) :
    orphaned.wp (responseEarly r) (fun _ s' => orphaned.Inv s' ∧ orphaned.Rel s s') s := by
  change orphaned.wp (if r.method = .invite then _ else _) _ s
  split
  · rename_i hm
    change orphaned.wp (if s.state = .terminating then _ else _) _ s
    split
    · exact suits_responseTerminating r s hs trivial
    · rename_i hst
      split
      · exact suits_responseRinging r s hs trivial
      · rw [Contract.wp_when]
        split
        · rename_i hcode
          refine Suits.wp_seq (wp_callSetError hs fun h => ?_) fun _ => ?_
          · have hreports : r.reportsFailure s = true := by
              unfold SalResponse.reportsFailure
              rw [hcode, hm]
              rcases hdialog with h | h <;> simp [h, hst]
            exact Bool.false_ne_true ((hfind h).symm.trans hreports)
          · exact Contract.keeps_current fun s hs _ => suits_callSetReleased.when s hs trivial
        · exact ⟨hs, trivial⟩
  · refine Suits.when (Suits.seq ?_ fun _ => suits_upcall rfl) s hs trivial
    exact suits_of_silent (silent_processMedia _)

theorem suits_responseInviteOk : Suits (responseInviteOk r) := by
  refine Suits.seq (suits_of_silent (silent_processMedia _)) fun _ => Suits.when ?_
  refine Suits.seq (suits_of_silent (silent_attach _)) fun _ => ?_
  refine (suits_action (x := .ack) trivial).seq fun _ => (suits_upcall rfl).seq fun _ => ?_
  exact suits_action (x := .activate) trivial

theorem wp_confirmedResponse (hs : s.Orphaned)
    (hdialog : (r.dialog.map Prod.snd).getD .null = .confirmed)
    (hfind : s.attached = false → r.reportsFailure s = false) :
    orphaned.wp (responseConfirmed r) (fun _ s' => orphaned.Inv s' ∧ orphaned.Rel s s') s := by
  have hopen : s.state = .early ∨ s.state = .active → orphaned.wp (if r.method = .invite then
        if 200 ≤ r.code ∧ r.code < 300 then responseInviteOk r
        else Prog.when (300 ≤ r.code) callSetError
      else if r.method = .info then
        Prog.when (r.code = 491 && r.vfu) (SalOpCall.perform .addTimer)
      else Prog.when (r.method = .update) (upcall .callAccepted))
      (fun _ s' => orphaned.Inv s' ∧ orphaned.Rel s s') s := by
    intro hst
    split
    · rename_i hm
      split
      · exact suits_responseInviteOk r s hs trivial
      · rw [Contract.wp_when]
        split
        · rename_i hcode
          refine wp_callSetError hs fun h => ?_
          have hreports : r.reportsFailure s = true := by
            unfold SalResponse.reportsFailure
            rw [hcode, hm, hdialog]
            rcases hst with h | h <;> simp [h]
          exact Bool.false_ne_true ((hfind h).symm.trans hreports)
        · exact ⟨hs, trivial⟩
    · split
      · exact (suits_action (x := .addTimer) trivial).when s hs trivial
      · exact (suits_upcall rfl).when s hs trivial
  rw [responseConfirmed, wp_getOp]
  cases hst : s.state with
  | early => exact hopen (.inl hst)
  | active => exact hopen (.inr hst)
  | terminating => exact suits_of_silent (silent_of_basic (basic_send .bye)) s hs trivial
  | terminated => exact ⟨hs, trivial⟩

/-- **`call_process_response`**, under the condition on it. -/
theorem suits_callProcessResponse : Suits (callProcessResponse r) := by
  intro s hs _ hok _
  have hfind : s.attached = false →
      r.reportsFailure { s with dialog := r.dialog.map Prod.fst } = false := hok
  have hs' : CallOp.Orphaned { s with dialog := r.dialog.map Prod.fst } := hs
  change orphaned.wp (match (r.dialog.map Prod.snd).getD .null with
    | .null | .early => _ | .confirmed => _ | .terminated => _) _ _
  cases hdialog : (r.dialog.map Prod.snd).getD .null with
  | null => exact wp_earlyResponse r hs' (.inl hdialog) hfind
  | early => exact wp_earlyResponse r hs' (.inr hdialog) hfind
  | confirmed => exact wp_confirmedResponse r hs' hdialog hfind
  | terminated =>
      change orphaned.wp (Prog.when _ callSetError) _ _
      rw [Contract.wp_when]
      split
      · rename_i hcode
        refine wp_callSetError hs' fun h => ?_
        have hreports : r.reportsFailure { s with dialog := r.dialog.map Prod.fst } = true := by
          unfold SalResponse.reportsFailure
          rw [hcode, hdialog]
          rfl
        exact Bool.false_ne_true ((hfind h).symm.trans hreports)
      · exact ⟨hs', trivial⟩

theorem suits_processResponseEvent : Suits (processResponseEvent r) := by
  have hpass : Suits (passResponse r) :=
    (suits_action (x := .countAuth 0) trivial).when.seq fun _ => suits_callProcessResponse r
  have hfilter : Suits (filterResponse r) := by
    refine Contract.keeps_current fun s hs _ => ?_
    split
    · exact ⟨hs, trivial⟩
    · split
      · refine Suits.seq (suits_action (x := .countAuth _) trivial) (fun _ => ?_) s hs trivial
        refine Contract.Keeps.ite (fun _ => ?_) fun _ => ?_
        · exact (suits_upcall rfl).seq fun _ => hpass
        · exact (suits_action (x := .resend _) trivial).when
      · exact (suits_upcall rfl).when.seq (fun _ => hpass) s hs trivial
  refine (suits_action (x := .arrive r) trivial).seq fun _ => ?_
  cases r.dialog with
  | none => exact hfilter
  | some dx => exact (suits_action (x := .moveDialog _ _) trivial).seq fun _ => hfilter

end responses

/-! ## Requests -/

theorem processSdpForInvite_snd (m m' : OpMedia) (h : m'.sdpHandling = m.sdpHandling)
    (body : MessageBody) : (m'.processSdpForInvite body).2 = (m.processSdpForInvite body).2 := by
  unfold OpMedia.processSdpForInvite
  rw [h]
  cases extractSdp m.sdpHandling body with
  | error reason => rfl
  | ok md => cases md <;> rfl

section requests

variable (q : SalRequest) (t : TransId) {s : CallOp}

theorem suits_decline : Suits decline := suits_of_silent (silent_of_basic basic_decline)

/-- An update is reported to a call. -/
theorem wp_updating (hs : s.Orphaned)
    (hfind : s.attached = false → (s.media.processSdpForInvite q.body).2 ≠ none) :
    orphaned.wp (requestUpdating q) (fun _ s' => orphaned.Inv s' ∧ orphaned.Rel s s') s := by
  have hsame : (((OpAction.media (·.resetDescriptions)).apply s).media.processSdpForInvite
      q.body).2 = (s.media.processSdpForInvite q.body).2 :=
    processSdpForInvite_snd s.media s.media.resetDescriptions rfl q.body
  rw [requestUpdating, wp_performs, Contract.wp_bind, processSdpForInvite]
  intro _
  rw [wp_getOp]
  dsimp only
  rw [wp_performs]
  intro _
  rw [hsame]
  cases hread : (s.media.processSdpForInvite q.body).2 with
  | none => exact wp_attached hs fun h => absurd hread (hfind h)
  | some reason =>
      -- the offer is refused, and nobody is told
      rw [Contract.wp_bind]
      exact Contract.wp_mono (fun _ _ h => h) (suits_decline _ hs trivial)

theorem suits_requestInvite : Suits (do
    let ok ← processSdpForInvite q.body
    Prog.when ok (upcall .callReceived)) := by
  refine Suits.seq ?_ fun ok => (suits_upcall rfl).when
  refine Contract.keeps_current fun s hs _ => ?_
  refine Suits.seq (suits_action (x := .media _) trivial) (fun _ => ?_) s hs trivial
  cases (s.media.processSdpForInvite q.body).2 with
  | none => exact Contract.keeps_pure true
  | some reason => exact suits_decline.seq fun _ => Contract.keeps_pure false

theorem suits_requestCancel : Suits (requestCancel q t) := by
  refine Contract.keeps_current fun s hs _ => ?_
  split
  · cases s.pendingServerTrans with
    | none => trivial
    | some invite =>
        refine Suits.seq (suits_action (x := .final t) trivial) (fun _ => ?_) s hs trivial
        exact (suits_upcall rfl).seq fun _ => suits_action (x := .final invite) trivial
  · exact suits_action (x := .final t) trivial s hs trivial

theorem wp_earlyRequest (hs : s.Orphaned)
    (hfind : q.method = .update → s.attached = false →
      (s.media.processSdpForInvite q.body).2 ≠ none) :
    orphaned.wp (requestEarly q t) (fun _ s' => orphaned.Inv s' ∧ orphaned.Rel s s') s := by
  unfold requestEarly
  cases hm : q.method with
  | cancel => exact suits_requestCancel q t s hs trivial
  | update => exact wp_updating q hs (hfind hm)
  | ack => trivial
  | _ => exact suits_action (x := .final t) trivial s hs trivial

theorem wp_confirmedRequest (hs : s.Orphaned)
    (hfind : q.changes .confirmed = true → s.attached = false →
      (s.media.processSdpForInvite q.body).2 ≠ none) :
    orphaned.wp (requestConfirmed q t) (fun _ s' => orphaned.Inv s' ∧ orphaned.Rel s s') s := by
  have hfinal := suits_action (x := .final t) trivial
  have hother : Suits (upcall .other) := suits_upcall rfl
  unfold SalRequest.changes at hfind
  unfold requestConfirmed
  cases hm : q.method with
  | ack =>
      refine Suits.seq (suits_of_silent (silent_processMedia _)) (fun _ => ?_) s hs trivial
      exact suits_upcall rfl
  | bye =>
      refine hfinal.seq (fun _ => ?_) s hs trivial
      exact (suits_upcall rfl).seq fun _ => suits_action (x := .setState _) trivial
  | invite =>
      rw [hm] at hfind
      exact wp_updating q hs (hfind rfl)
  | update =>
      rw [hm] at hfind
      cases hbody : q.body with
      | empty =>
          refine hfinal.seq (fun _ => ?_) s hs trivial
          exact suits_action (x := .clearUpdateTrans) trivial
      | _ =>
          rw [hbody] at hfind
          refine wp_updating q hs ?_
          rw [hbody]
          exact hfind rfl
  | info => exact hother.seq (fun _ => hfinal) s hs trivial
  | refer => exact hfinal.seq (fun _ => hother) s hs trivial
  | notify => exact hfinal.seq (fun _ => hother) s hs trivial
  | message => exact hother s hs trivial
  | _ => exact hfinal s hs trivial

/-- The request in the dialog of the operation. -/
theorem wp_inDialog (hs : s.Orphaned)
    (hfind : q.changes s.currentDialogState = true → s.attached = false →
      (s.media.processSdpForInvite q.body).2 ≠ none) :
    orphaned.wp (requestInDialog q t) (fun _ s' => orphaned.Inv s' ∧ orphaned.Rel s s') s := by
  have hupdate : ∀ x, x = .null ∨ x = .early → q.method = .update → q.changes x = true := by
    intro x hx hm
    unfold SalRequest.changes
    rw [hm]
    rcases hx with rfl | rfl <;> rfl
  change orphaned.wp (match s.currentDialogState with
    | .null => _ | .early => _ | .confirmed => _ | .terminated => _) _ s
  cases hx : s.currentDialogState with
  | null =>
      rw [hx] at hfind
      change orphaned.wp (if q.method = .invite then _ else _) _ s
      split
      · exact suits_requestInvite q s hs trivial
      · exact wp_earlyRequest q t hs fun hm => hfind (hupdate .null (.inl rfl) hm)
  | early =>
      rw [hx] at hfind
      exact wp_earlyRequest q t hs fun hm => hfind (hupdate .early (.inr rfl) hm)
  | confirmed =>
      rw [hx] at hfind
      exact wp_confirmedRequest q t hs hfind
  | terminated => exact ⟨hs, trivial⟩

/-- The way to the dialog of the operation, which the request brings if there is none. -/
theorem wp_received (hs : s.Orphaned) (b : Bool)
    (hfind : q.changes (s.dialogState (s.dialog.getD q.dialog.1)) = true →
      s.attached = false → (s.media.processSdpForInvite q.body).2 ≠ none) :
    orphaned.wp (do
      Prog.when b (SalOpCall.perform (.media (·.hear q.body)))
      Prog.when s.dialog.isNone (SalOpCall.perform (.setDialog (some q.dialog.1)))
      requestInDialog q t) (fun _ s' => orphaned.Inv s' ∧ orphaned.Rel s s') s := by
  have hheard : ∀ s' : CallOp, s'.orphaned = s.orphaned → s'.attached = s.attached →
      s'.media.sdpHandling = s.media.sdpHandling → s'.dialog = s.dialog →
      s'.dialogState = s.dialogState → orphaned.wp (do
        Prog.when s.dialog.isNone (SalOpCall.perform (.setDialog (some q.dialog.1)))
        requestInDialog q t) (fun _ s' => orphaned.Inv s' ∧ orphaned.Rel s s') s' := by
    intro s' h₁ h₂ h₃ h₄ h₅
    have hs' : s'.Orphaned := by
      unfold CallOp.Orphaned
      rw [h₁]
      exact hs
    rw [← h₂, ← processSdpForInvite_snd _ _ h₃] at hfind
    cases hd : s.dialog with
    | none =>
        intro _
        refine wp_inDialog q t (s := { s' with dialog := some q.dialog.1 }) hs' ?_
        change q.changes (s'.dialogState q.dialog.1) = true → _
        rw [h₅]
        rw [hd] at hfind
        exact hfind
    | some d =>
        refine wp_inDialog q t hs' ?_
        rw [CallOp.currentDialogState, h₄, h₅, hd]
        rw [hd] at hfind
        exact hfind
  cases b with
  | true =>
      intro _
      refine hheard _ rfl rfl ?_ rfl rfl
      change (s.media.hear q.body).sdpHandling = s.media.sdpHandling
      cases q.body <;> rfl
  | false => exact hheard s rfl rfl rfl rfl rfl

theorem wp_request (hs : s.Orphaned)
    (hfind : s.attached = false → q.reportsUpdate s = false) :
    orphaned.wp (processRequestEvent q) (fun _ => CallOp.Orphaned) s := by
  intro _
  change orphaned.wp (Prog.when (s.state ≠ .terminated) (callProcessRequest q)) _ _
  rw [Contract.wp_when]
  split
  · rename_i hst
    have hchange : q.changes (q.dialogState s) = true → s.attached = false →
        (s.media.processSdpForInvite q.body).2 ≠ none := by
      intro hchanges hdetached hread
      have hno := hfind hdetached
      rw [SalRequest.reportsUpdate, hst, hchanges, hread] at hno
      cases hno
    refine Contract.wp_mono (fun _ _ h => h.1) (?_ : orphaned.wp _ (fun _ s' =>
      orphaned.Inv s' ∧ orphaned.Rel s s') _)
    change orphaned.wp (Prog.when (q.method ≠ .ack) (SalOpCall.perform (.receive q.method)) >>=
      fun _ => _) _ _
    cases decide (q.method ≠ .ack) with
    | true =>
        intro _
        exact wp_received q _ (s := OpAction.apply (.receive q.method)
          (OpAction.apply (.moveDialog q.dialog.1 q.dialog.2) s)) hs _ hchange
    | false =>
        exact wp_received q _ (s := OpAction.apply (.moveDialog q.dialog.1 q.dialog.2) s) hs _
          hchange
  · exact hs

end requests

/-! ## Runs -/

theorem wp_timeout {s : CallOp} (hs : s.Orphaned)
    (hfind : s.attached = false → s.state = .terminated ∨ s.dialog.isSome = true) :
    orphaned.wp callProcessTimeout (fun _ => CallOp.Orphaned) s := by
  refine Contract.wp_mono (fun _ _ h => h.1) (?_ : orphaned.wp _ (fun _ s' =>
    orphaned.Inv s' ∧ orphaned.Rel s s') s)
  change orphaned.wp (Prog.when _ (upcall .callFailure >>= fun _ => callSetReleased)) _ s
  rw [Contract.wp_when]
  split
  · rename_i hfails
    rw [Bool.and_eq_true, decide_eq_true_eq, Option.isNone_iff_eq_none] at hfails
    refine Suits.wp_seq (wp_attached hs fun hdetached => ?_) fun _ => suits_callSetReleased
    rcases hfind hdetached with hst | hd
    · exact absurd hst hfails.1
    · rw [hfails.2] at hd
      cases hd
  · exact ⟨hs, trivial⟩

theorem wp_event (e : SalEvent) {s : CallOp} (hs : s.Orphaned) (hfind : e.FindsCall s) :
    orphaned.wp e.program (fun _ => CallOp.Orphaned) s := by
  have hwp : ∀ {p : OpProg Unit}, Suits p → orphaned.wp p (fun _ => CallOp.Orphaned) s :=
    fun hp => Contract.wp_mono (fun _ _ h => h.1) (hp s hs trivial)
  cases e with
  | response r => exact hwp (suits_processResponseEvent r)
  | request q => exact wp_request q hs hfind
  | ioError => exact fun _ => wp_timeout (s := { s with authRequests := 0 }) hs hfind
  | timeout => exact wp_timeout hs hfind
  | transactionTerminated m code server =>
      refine hwp (Contract.keeps_current fun s hs _ => ?_)
      cases server with
      | none => exact suits_callSetReleased.when s hs trivial
      | some t =>
          refine Suits.seq (suits_action (x := .endTrans t) trivial) (fun _ => ?_) s hs trivial
          exact suits_callSetReleased.when
  | dialogTerminated d previous =>
      refine hwp (Contract.keeps_current fun s hs _ => ?_)
      refine Suits.when (Suits.seq (Suits.when ?_) fun _ => ?_) s hs trivial
      · exact (suits_upcall rfl).seq fun _ => suits_action (x := .setState _) trivial
      · exact suits_action (x := .scheduleRelease true) trivial
  | dialogMoved d x => exact hwp (suits_action (x := .moveDialog d x) trivial)
  | releaseNow =>
      refine hwp (Suits.seq (suits_action (x := .scheduleRelease false) trivial) fun _ => ?_)
      exact suits_callSetReleased
  | vfuRetry =>
      refine hwp (Suits.seq (suits_action (x := .dropTimer) trivial) fun _ => ?_)
      refine Contract.keeps_current fun s hs _ => ?_
      exact (suits_of_silent (silent_of_basic (basic_send .info))).when s hs trivial

theorem meets_orphaned : Meets orphaned callSystem where
  init := by
    rintro s ⟨dir, handling, cnx, one, authInfo, rfl⟩
    intro u hu
    exact absurd hu List.not_mem_nil
  ok _ _ h := h
  api := by
    rintro s _ ⟨a, -, rfl⟩ hs
    exact suits_of_silent (silent_salCall a) s hs trivial
  event := by
    rintro s _ ⟨e, -, hfind, rfl⟩ hs
    exact wp_event e hs hfind

/-- **Upcalls after the release.** In every run in which what is reported as a failure or as an
update finds the call, every callback that is called without one returns and changes no call. -/
theorem spares_of_reachable {cfg : Config opSig} (hr : Reachable callSystem cfg)
    (ho : cfg.Observed) (reason : SalReason) (contact : Bool) :
    ∀ u ∈ cfg.state.orphaned, u.ofCall = true → Spares (u.program reason contact none) :=
  fun u hu _ => (spares_iff u reason contact).mpr (meets_orphaned.inv_of_reachable hr ho u hu)

/-! ## A call that is cancelled -/

/-- An INVITE that was cancelled, and the release while its final response is waited for. -/
def cancelledOp : CallOp :=
  opAfter (fun x s => AnswersCall x s) SalCall.release.program
    (opAfter (fun x s => AnswersCall x s) SalCall.terminate.program
      (opAfter (fun x s => AnswersCall x s) SalCall.call.program
        (.fresh .outgoing .normal false false false)))

theorem reachable_cancelledOp {M : System opSig} (hinit : (opSystem AnswersCall).init = M.init)
    (hapi : (opSystem AnswersCall).api = M.api) (hok : ∀ x s, AnswersCall x s → M.ok x s) :
    Reachable M ⟨[], cancelledOp⟩ := by
  have hok' : ∀ x s, decide (AnswersCall x s) = true → M.ok x s :=
    fun x s h => hok x s (of_decide_eq_true h)
  have hcall : ∀ {s : CallOp}, Reachable M ⟨[], s⟩ → ∀ a : SalCall, a.Enabled s →
      (a.program.play (fun x s => AnswersCall x s) plainStack s).isSome = true →
      Reachable M ⟨[], opAfter (fun x s => AnswersCall x s) a.program s⟩ := by
    intro s hr a ha hp
    refine reachable_opAfter hok' (hr.step (.api ?_)) hp
    rw [← hapi]
    exact ⟨a, ha, rfl⟩
  have hfresh : Reachable M ⟨[], .fresh .outgoing .normal false false false⟩ := by
    refine .init ?_
    rw [← hinit]
    exact ⟨.outgoing, .normal, false, false, false, rfl⟩
  exact hcall (hcall (hcall hfresh .call rfl rfl) .terminate trivial rfl) .release trivial rfl

/-- The final response comes in: the release is reported to nobody. -/
def cancelAnswered : SalEvent := .response { method := .invite, code := 487 }

theorem spares_of_cancelAnswered :
    (opAfter (fun x s => AnswersCall x s) cancelAnswered.program cancelledOp).orphaned =
        [.callReleased] ∧
      Spares (Upcall.callReleased.program .none false none) := by
  have hok : ∀ x s, decide (AnswersCall x s) = true → AnswersCall x s :=
    fun x s h => of_decide_eq_true h
  have hr := reachable_cancelledOp (M := callSystem) rfl rfl fun _ _ h => h
  have hanswered : Reachable callSystem
      ⟨[], opAfter (fun x s => AnswersCall x s) cancelAnswered.program cancelledOp⟩ :=
    reachable_opAfter (M := callSystem) hok
      (hr.step (.event ⟨cancelAnswered, trivial, trivial, rfl⟩)) rfl
  refine ⟨rfl, ?_⟩
  exact spares_of_reachable hanswered (.inl rfl) .none false .callReleased List.mem_cons_self rfl

/-- No response comes in, and the timeout is reported as a failure of the call that is gone. -/
theorem timeout_reported_without_call : ¬∀ cfg : Config opSig,
    Reachable (opSystem fun _ _ => True) cfg → cfg.Observed → ∀ reason contact,
      ∀ u ∈ cfg.state.orphaned, u.ofCall = true → Spares (u.program reason contact none) := by
  intro h
  have hr := reachable_cancelledOp (M := opSystem fun _ _ => True) rfl rfl fun _ _ _ => trivial
  have htimeout := reachable_afterEvent (b := fun _ _ => true) (fun _ _ _ => trivial) hr .timeout
    trivial rfl
  have hspares := h _ htimeout (.inl rfl) .requestTimeout false .callFailure
    (by decide) rfl
  exact absurd ((spares_iff _ _ _).mp hspares) (by decide)

end Linphone
