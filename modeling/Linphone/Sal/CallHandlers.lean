import Linphone.Sal.CallOp

/-!
# What happens to a call operation

The handlers of `bellesip_sal/sal_op_call.c` for what the SIP stack reports, behind the filters of
`sal_impl.c`: responses, requests, errors of the transport, timeouts, and the ends of transactions
and dialogs. `opSystem` puts them together with the functions of the call layer.
-/

namespace Linphone

open Reentrant

namespace SalOpCall

/-! ## Responses -/

/-- `call_set_error` -/
def callSetError : OpProg Unit := upcall .callFailure

/-- `handle_sdp_from_response` -/
def handleSdpFromResponse (r : SalResponse) : OpProg Unit :=
  processMedia fun lib m => some (m.handleSdpFromResponse lib r.body)

/-- A response to the INVITE of an operation that is being terminated. -/
def responseTerminating (r : SalResponse) : OpProg Unit := do
  let s ← getOp
  match s.pendingClientTrans with
  | none => .stuck
  | some m =>
      -- check if a CANCEL was sent before
      if m ≠ .cancel then
        if r.code < 200 then cancellingInvite
        else Prog.when s.dialog.isNone callSetReleased
      else Prog.when (300 ≤ r.code && s.dialog.isNone) callSetReleased

/-- A provisional response that rings, once for each status code. -/
def responseRinging (r : SalResponse) : OpProg Unit := do
  match r.dialog with
  | none => .stuck -- data of the dialog is read
  | some (d, _) => do
      let s ← getOp
      Prog.when ((s.earlyResponse d).all (· < r.code)) do
        handleSdpFromResponse r
        upcall .callRinging
      perform (.keepEarlyResponse d r.code)

/-- `call_process_response`, without a dialog or in an early one. -/
def responseEarly (r : SalResponse) : OpProg Unit := do
  let s ← getOp
  if r.method = .invite then
    if s.state = .terminating then responseTerminating r
    else if 180 ≤ r.code ∧ r.code < 200 then responseRinging r
    else Prog.when (300 ≤ r.code) do
      callSetError
      let s ← getOp
      Prog.when s.dialog.isNone callSetReleased
  else Prog.when (200 ≤ r.code && r.code < 300 && r.method = .update) do
    handleSdpFromResponse r
    upcall .callAccepted

/-- A 2xx response to an INVITE or re-INVITE. -/
def responseInviteOk (r : SalResponse) : OpProg Unit := do
  handleSdpFromResponse r
  Prog.when r.ackCreated do
    attach fun _ m => m.ackSdp
    perform .ack
    upcall .callAccepted
    perform .activate

/-- `call_process_response`, in a confirmed dialog. -/
def responseConfirmed (r : SalResponse) : OpProg Unit := do
  let s ← getOp
  match s.state with
  | .early | .active =>
      if r.method = .invite then
        if 200 ≤ r.code ∧ r.code < 300 then responseInviteOk r
        else Prog.when (300 ≤ r.code) callSetError
      else if r.method = .info then Prog.when (r.code = 491 && r.vfu) (perform .addTimer)
      else Prog.when (r.method = .update) (upcall .callAccepted)
  | .terminating => do
      let _ ← sendRequest .bye
      pure ()
  | .terminated => pure () -- an unexpected answer

/-- `call_process_response` -/
def callProcessResponse (r : SalResponse) : OpProg Unit := do
  perform (.process r)
  perform (.setDialog (r.dialog.map Prod.fst))
  match (r.dialog.map Prod.snd).getD .null with
  | .null | .early => responseEarly r
  | .confirmed => responseConfirmed r
  | .terminated => Prog.when (300 ≤ r.code) callSetError

/-- The end of `process_response_event`. -/
def passResponse (r : SalResponse) : OpProg Unit := do
  Prog.when (180 ≤ r.code && r.code ≠ 401 && r.code ≠ 407 && r.code ≠ 403)
    (perform (.countAuth 0))
  callProcessResponse r

/-- `process_response_event` of `sal_impl.c`, for an operation with its state: what is sent again
with credentials, and what is passed on. -/
def filterResponse (r : SalResponse) : OpProg Unit := do
  let s ← getOp
  if s.state = .terminated then pure ()
  else if (r.code = 401 ∨ r.code = 407) ∧ ¬(s.state = .terminating ∧ r.method ≠ .bye) then do
    perform (.countAuth (s.authRequests + 1))
    if 2 < s.authRequests + 1 then do
      upcall .other -- auth_failure
      passResponse r
    else Prog.when r.authorized (perform (.resend r.method))
  else do
    Prog.when (r.code = 403 && s.authInfo) (upcall .other)
    passResponse r

/-- `process_response_event` of `sal_impl.c` -/
def processResponseEvent (r : SalResponse) : OpProg Unit := do
  perform (.arrive r)
  match r.dialog with
  | some (d, x) => perform (.moveDialog d x)
  | none => pure ()
  filterResponse r

/-! ## Requests -/

/-- `process_sdp_for_invite`; the answer is whether the request was not declined. -/
def processSdpForInvite (body : MessageBody) : OpProg Bool := do
  let s ← getOp
  let r := s.media.processSdpForInvite body
  perform (.media fun _ => r.1)
  match r.2 with
  | some _ => do
      decline
      pure false
  | none => pure true

/-- A re-INVITE or an UPDATE. -/
def requestUpdating (q : SalRequest) : OpProg Unit := do
  perform (.media (·.resetDescriptions))
  let ok ← processSdpForInvite q.body
  Prog.when ok (upcall (.callUpdating (q.method = .update)))

/-- A CANCEL, in its own transaction `t`. -/
def requestCancel (q : SalRequest) (t : TransId) : OpProg Unit := do
  let s ← getOp
  if q.matched then
    match s.pendingServerTrans with
    | none => .stuck
    | some invite => do
        perform (.final t)
        -- terminate the INVITE transaction
        upcall .callTerminated
        perform (.final invite)
  else perform (.final t) -- the call leg does not exist

/-- `process_request_event`, in an early dialog. -/
def requestEarly (q : SalRequest) (t : TransId) : OpProg Unit :=
  match q.method with
  | .cancel => requestCancel q t
  | .prack => perform (.final t)
  | .update => requestUpdating q
  | .ack => .stuck -- responded to without a transaction
  | _ => perform (.final t) -- unexpected method

/-- `process_request_event`, in a confirmed dialog. -/
def requestConfirmed (q : SalRequest) (t : TransId) : OpProg Unit :=
  match q.method with
  | .ack => do
      processMedia fun lib m => m.handleSdpFromAck lib q.body
      upcall .callAck
  | .bye => do
      perform (.final t)
      upcall .callTerminated
      perform (.setState .terminating)
  | .invite => requestUpdating q
  | .update =>
      match q.body with
      | .empty => do
          -- the session timer
          perform (.final t)
          perform .clearUpdateTrans
      | _ => requestUpdating q
  | .info => do
      upcall .other
      perform (.final t)
  | .refer | .notify => do
      perform (.final t)
      upcall .other
  | .message => upcall .other
  | _ => perform (.final t)

/-- A request, in the state of the dialog of the operation. -/
def requestInDialog (q : SalRequest) (t : TransId) : OpProg Unit := do
  let s ← getOp
  match s.currentDialogState with
  | .null =>
      if q.method = .invite then do
        let ok ← processSdpForInvite q.body
        Prog.when ok (upcall .callReceived)
      else requestEarly q t
  | .early => requestEarly q t
  | .confirmed => requestConfirmed q t
  | .terminated => pure () -- unexpected state

/-- `process_request_event` -/
def callProcessRequest (q : SalRequest) : OpProg Unit := do
  let s ← getOp
  -- an ACK has no server transaction
  Prog.when (q.method ≠ .ack) (perform (.receive q.method))
  Prog.when (q.method = .invite || q.method = .update || q.method = .ack && s.media.sdpOffering)
    (perform (.media (·.hear q.body)))
  Prog.when s.dialog.isNone (perform (.setDialog (some q.dialog.1)))
  requestInDialog q s.received

/-- `process_request_event` of `sal_impl.c` -/
def processRequestEvent (q : SalRequest) : OpProg Unit := do
  perform (.moveDialog q.dialog.1 q.dialog.2)
  let s ← getOp
  Prog.when (s.state ≠ .terminated) (callProcessRequest q)

/-! ## Errors and ends -/

/-- `call_process_timeout`, and `call_process_io_error`, which is the same. -/
def callProcessTimeout : OpProg Unit := do
  let s ← getOp
  Prog.when (s.state ≠ .terminated && s.dialog.isNone) do
    -- the call is terminated very early
    upcall .callFailure
    callSetReleased

/-- `process_io_error` of `sal_impl.c` -/
def processIoError : OpProg Unit := do
  perform (.countAuth 0)
  callProcessTimeout

/-- `call_process_transaction_terminated`, for a request and the last response to it, in a server
transaction or a client one. -/
def callProcessTransactionTerminated (m : SipMethod) (code : Option Nat)
    (server : Option TransId) : OpProg Unit := do
  let s ← getOp
  match server with
  | some t => perform (.endTrans t)
  | none => pure ()
  Prog.when (s.state = .terminating && m = .bye && code ≠ some 401 && code ≠ some 407 &&
    s.dialog.isNone) callSetReleased

/-- `process_dialog_terminated` -/
def processDialogTerminated (d : DialogId) (previous : DialogState) : OpProg Unit := do
  let s ← getOp
  Prog.when (s.dialog = some d) do
    Prog.when (previous = .confirmed && s.state ≠ .terminated && s.state ≠ .terminating) do
      -- this is probably a normal termination from a BYE
      upcall .callTerminated
      perform (.setState .terminating)
    perform (.scheduleRelease true)

/-- `call_set_released` on the main loop -/
def releaseNow : OpProg Unit := do
  perform (.scheduleRelease false)
  callSetReleased

/-- `vfu_retry` -/
def vfuRetry : OpProg Unit := do
  perform .dropTimer
  let s ← getOp
  Prog.when (s.currentDialogState = .confirmed) do
    let _ ← sendRequest .info
    pure ()

end SalOpCall

/-! ## The system -/

/-- The functions the call layer calls on an operation. -/
inductive SalCall
  | call
  | setLocalMediaDescription (desc : Option SalMediaDescription)
  | getFinalMediaDescription
  | notifyRinging (earlyMedia : Bool)
  | accept
  | decline
  | update (noUserConsent : Bool)
  | sendInDialog (m : SipMethod)
  | terminate
  | release

namespace CallOp

/-- The operation is being terminated, or was. -/
def closed (s : CallOp) : Bool := s.state = .terminating || s.state = .terminated

/-- Its release was reported. -/
def released (s : CallOp) : Bool := s.trace.contains (.told .callReleased)

end CallOp

namespace SalCall

/-- The call layer starts and changes sessions only on operations that are not ended, and has
nothing sent on one whose release was reported. The requests within a dialog that it sends apart
from these change no session. -/
def Enabled (s : CallOp) : SalCall → Prop
  | call | update _ => s.closed = false
  | notifyRinging _ | accept | decline => s.released = false
  | sendInDialog m => s.released = false ∧ m ∉ [SipMethod.invite, .ack, .cancel, .bye, .update]
  | _ => True

def ignore {α : Type} (p : OpProg α) : OpProg Unit := do
  let _ ← p
  pure ()

def program : SalCall → OpProg Unit
  | call => ignore SalOpCall.call
  | setLocalMediaDescription desc => SalOpCall.setLocalMediaDescription desc
  | getFinalMediaDescription => ignore SalOpCall.getFinalMediaDescription
  | notifyRinging earlyMedia => SalOpCall.notifyRinging earlyMedia
  | accept => SalOpCall.accept
  | decline => SalOpCall.decline
  | update noUserConsent => ignore (SalOpCall.update noUserConsent)
  | sendInDialog m => SalOpCall.sendInDialog m
  | terminate => ignore SalOpCall.terminate
  | release => SalOpCall.release

end SalCall

/-- What the stack and the main loop do. -/
inductive SalEvent
  | response (r : SalResponse)
  | request (q : SalRequest)
  | ioError
  | timeout
  | transactionTerminated (m : SipMethod) (code : Option Nat) (server : Option TransId)
  | dialogTerminated (d : DialogId) (previous : DialogState)
  /-- The stack changes the state of a dialog by itself. -/
  | dialogMoved (d : DialogId) (x : DialogState)
  | releaseNow
  | vfuRetry

namespace SalEvent

def Enabled (s : CallOp) : SalEvent → Prop
  | releaseNow => s.releaseLater = true
  | vfuRetry => 0 < s.vfuTimers
  | _ => True

def program : SalEvent → OpProg Unit
  | response r => SalOpCall.processResponseEvent r
  | request q => SalOpCall.processRequestEvent q
  | ioError => SalOpCall.processIoError
  | timeout => SalOpCall.callProcessTimeout
  | transactionTerminated m code server =>
      SalOpCall.callProcessTransactionTerminated m code server
  | dialogTerminated d previous => SalOpCall.processDialogTerminated d previous
  | dialogMoved d x => SalOpCall.perform (.moveDialog d x)
  | releaseNow => SalOpCall.releaseNow
  | vfuRetry => SalOpCall.vfuRetry

end SalEvent

/-- A new operation, in one direction and with its configuration. -/
def CallOp.fresh (dir : SalOpDir) (handling : SalOpSDPHandling) (cnx one authInfo : Bool) :
    CallOp where
  dir := dir
  authInfo := authInfo
  media :=
    { sdpHandling := handling, cnxIpTo0000IfSendonlyEnabled := cnx, oneMatchingCodec := one }

/-- One operation, its call layer, and the stack, with the actions that are admitted. -/
def opSystem (ok : OpAction → CallOp → Prop) : System opSig where
  api s p := ∃ a : SalCall, a.Enabled s ∧ p = a.program
  event s p := ∃ e : SalEvent, e.Enabled s ∧ p = e.program
  ok := ok
  init s := ∃ dir handling cnx one authInfo, s = .fresh dir handling cnx one authInfo

/-! ## Programs that leave descriptions and transactions alone -/

/-- Actions on no description, and on no server transaction but to respond to what waits. -/
def OpAction.plain : OpAction → Prop
  | .arrive _ | .media _ | .attach _ _ | .read | .receive _ | .clearUpdateTrans | .endTrans _
  | .final _ => False
  | _ => True

/-- The actions of requests and of the end of a session. -/
def OpAction.basic : OpAction → Prop
  | .send _ | .terminate | .respond _ | .setState _ | .detach => True
  | _ => False

theorem OpAction.plain_of_basic {x : OpAction} (h : x.basic) : x.plain := by
  cases x <;> trivial

theorem OpAction.apply_arrive (r : SalResponse) (s : CallOp) :
    opSig.apply (.arrive r) s = { s with
      trace := if r.inviteOk then .inviteOk :: s.trace else s.trace
      media := if (r.method = .invite ∨ r.method = .update) ∧ r.code < 300 then s.media.hear r.body
        else s.media } := by
  show OpAction.apply (.arrive r) s = _
  rw [OpAction.apply]
  cases r.inviteOk <;> rfl

namespace SalOpCall

theorem acts_upcall (u : Upcall) : (upcall u).Acts OpAction.plain := ⟨trivial, trivial⟩

theorem basic_sendRequest (m : SipMethod) : (sendRequest m).Acts OpAction.basic := by
  refine Prog.Acts.bind (fun _ => trivial) fun created => ?_
  refine Prog.Acts.bind (Prog.Acts.when ?_) fun _ => trivial
  exact ⟨trivial, trivial⟩

theorem basic_send (m : SipMethod) : (do
    let _ ← sendRequest m
    pure () : OpProg Unit).Acts OpAction.basic :=
  (basic_sendRequest m).bind fun _ => trivial

theorem acts_send (m : SipMethod) : (do
    let _ ← sendRequest m
    pure () : OpProg Unit).Acts OpAction.plain :=
  (basic_send m).mono fun _ => OpAction.plain_of_basic

theorem acts_callSetReleased : callSetReleased.Acts OpAction.plain := by
  intro s
  exact Prog.Acts.when ⟨trivial, trivial, trivial, trivial, trivial⟩

theorem basic_cancellingInvite : cancellingInvite.Acts OpAction.basic := by
  intro s
  change Prog.Acts _ (match s.pendingClientTrans with | none => _ | some m => _)
  cases s.pendingClientTrans with
  | none => trivial
  | some m => exact (Prog.Acts.when (basic_send .cancel)).bind fun _ => ⟨trivial, trivial⟩

theorem acts_cancellingInvite : cancellingInvite.Acts OpAction.plain :=
  basic_cancellingInvite.mono fun _ => OpAction.plain_of_basic

theorem responds_decline : decline.Acts fun x => ∃ t, x = OpAction.respond t := by
  refine Prog.Acts.bind (fun _ => trivial) fun s => ?_
  change Prog.Acts _ (match s.pendingServerTrans <|> s.pendingUpdateServerTrans with
    | none => _ | some t => _)
  cases s.pendingServerTrans <|> s.pendingUpdateServerTrans with
  | none => trivial
  | some t => exact ⟨⟨t, rfl⟩, trivial⟩

theorem basic_decline : decline.Acts OpAction.basic := by
  refine responds_decline.mono fun x hx => ?_
  obtain ⟨t, rfl⟩ := hx
  trivial

theorem basic_terminate : terminate.Acts OpAction.basic := by
  refine Prog.Acts.bind (fun _ => trivial) fun s => Prog.Acts.ite trivial ?_
  cases s.currentDialogState with
  | confirmed => exact ⟨trivial, (basic_sendRequest .bye).bind fun _ => ⟨trivial, trivial⟩⟩
  | null =>
      refine Prog.Acts.ite ⟨trivial, basic_decline.bind fun _ => ⟨trivial, trivial⟩⟩ ?_
      refine Prog.Acts.bind (Prog.Acts.when ⟨trivial, fun proceeding => ?_⟩) fun _ => trivial
      exact Prog.Acts.ite basic_cancellingInvite ⟨trivial, trivial⟩
  | early =>
      refine ⟨trivial, Prog.Acts.ite ?_ (basic_cancellingInvite.bind fun _ => trivial)⟩
      exact basic_decline.bind fun _ => ⟨trivial, trivial⟩
  | terminated => trivial

theorem acts_terminate : terminate.Acts OpAction.plain :=
  basic_terminate.mono fun _ => OpAction.plain_of_basic

theorem basic_sendInDialog (m : SipMethod) : (sendInDialog m).Acts OpAction.basic :=
  fun _ => Prog.Acts.when (basic_send m)

theorem acts_sendInDialog (m : SipMethod) : (sendInDialog m).Acts OpAction.plain :=
  (basic_sendInDialog m).mono fun _ => OpAction.plain_of_basic

theorem basic_release : release.Acts OpAction.basic := by
  refine Prog.Acts.bind (fun _ => trivial) fun s => ?_
  refine Prog.Acts.bind (Prog.Acts.when ?_) fun _ => ⟨trivial, trivial⟩
  exact ⟨trivial, trivial⟩

theorem acts_release : release.Acts OpAction.plain :=
  basic_release.mono fun _ => OpAction.plain_of_basic

theorem acts_callProcessTimeout : callProcessTimeout.Acts OpAction.plain := by
  intro s
  exact Prog.Acts.when ((acts_upcall .callFailure).bind fun _ => acts_callSetReleased)

theorem acts_processDialogTerminated (d : DialogId) (previous : DialogState) :
    (processDialogTerminated d previous).Acts OpAction.plain := by
  intro s
  refine Prog.Acts.when (Prog.Acts.bind (Prog.Acts.when ?_) fun _ => ⟨trivial, trivial⟩)
  exact (acts_upcall .callTerminated).bind fun _ => ⟨trivial, trivial⟩

theorem acts_vfuRetry : vfuRetry.Acts OpAction.plain :=
  ⟨trivial, fun _ => Prog.Acts.when (acts_send .info)⟩

theorem acts_responseTerminating (r : SalResponse) :
    (responseTerminating r).Acts OpAction.plain := by
  intro s
  change Prog.Acts _ (match s.pendingClientTrans with | none => _ | some m => _)
  cases s.pendingClientTrans with
  | none => trivial
  | some m =>
      refine Prog.Acts.ite (Prog.Acts.ite acts_cancellingInvite ?_) ?_
      · exact Prog.Acts.when acts_callSetReleased
      · exact Prog.Acts.when acts_callSetReleased

end SalOpCall

/-- The events that are handled so. -/
theorem SalEvent.acts_program (e : SalEvent) (hresponse : ∀ r, e ≠ .response r)
    (hrequest : ∀ q, e ≠ .request q)
    (hend : ∀ m code t, e ≠ .transactionTerminated m code (some t)) :
    e.program.Acts OpAction.plain := by
  cases e with
  | response r => exact absurd rfl (hresponse r)
  | request q => exact absurd rfl (hrequest q)
  | ioError => exact ⟨trivial, SalOpCall.acts_callProcessTimeout⟩
  | timeout => exact SalOpCall.acts_callProcessTimeout
  | transactionTerminated m code server =>
      cases server with
      | none => exact fun s => Prog.Acts.when SalOpCall.acts_callSetReleased
      | some t => exact absurd rfl (hend m code t)
  | dialogTerminated d previous => exact SalOpCall.acts_processDialogTerminated d previous
  | dialogMoved d x => exact ⟨trivial, trivial⟩
  | releaseNow => exact ⟨trivial, SalOpCall.acts_callSetReleased⟩
  | vfuRetry => exact SalOpCall.acts_vfuRetry

/-! ## Programs of offers and answers -/

/-- Actions on descriptions, responses to what waits for one, and reports that end nothing. -/
def OpAction.answers : OpAction → Prop
  | .media _ | .attach _ _ | .read | .provisional _ | .respond _ | .keepEarlyResponse _ _ => True
  | .tell u => u ∉ [Upcall.callAccepted, .callReleased]
  | _ => False

namespace SalOpCall

theorem acts_processMedia (f : MediaLib → OpMedia → Option OpMedia) :
    (processMedia f).Acts OpAction.answers := by
  refine Prog.Acts.bind (fun _ => trivial) fun lib => Prog.Acts.bind (fun _ => trivial) fun s => ?_
  cases f lib s.media with
  | none => trivial
  | some m => exact ⟨trivial, trivial⟩

theorem acts_attach (f : MediaLib → OpMedia → OpMedia × Option SentSdp) :
    (attach f).Acts OpAction.answers :=
  fun _ _ => ⟨trivial, trivial⟩

theorem acts_tell {u : Upcall} (hu : u ∉ [Upcall.callAccepted, .callReleased]) :
    (upcall u).Acts OpAction.answers := ⟨hu, trivial⟩

theorem acts_getFinal : (SalCall.ignore getFinalMediaDescription).Acts OpAction.answers := by
  refine Prog.Acts.bind ((acts_processMedia _).bind fun _ => ?_) fun _ => trivial
  exact ⟨trivial, fun _ => trivial⟩

theorem acts_notifyRinging (earlyMedia : Bool) :
    (notifyRinging earlyMedia).Acts OpAction.answers := by
  refine Prog.Acts.bind (fun _ => trivial) fun s => ?_
  cases s.pendingServerTrans with
  | none => trivial
  | some t => exact (Prog.Acts.when (acts_attach _)).bind fun _ => ⟨trivial, trivial⟩

theorem acts_decline : decline.Acts OpAction.answers := by
  refine responds_decline.mono fun x hx => ?_
  obtain ⟨t, rfl⟩ := hx
  trivial

theorem acts_handleSdpFromResponse (r : SalResponse) :
    (handleSdpFromResponse r).Acts OpAction.answers :=
  acts_processMedia _

theorem acts_responseRinging (r : SalResponse) : (responseRinging r).Acts OpAction.answers := by
  unfold responseRinging
  cases r.dialog with
  | none => trivial
  | some dx =>
      refine Prog.Acts.bind (fun _ => trivial) fun s => ?_
      refine (Prog.Acts.when ?_).bind fun _ => ⟨trivial, trivial⟩
      exact (acts_handleSdpFromResponse r).bind fun _ => acts_tell (by decide)

theorem acts_processSdpForInvite (body : MessageBody) :
    (processSdpForInvite body).Acts OpAction.answers := by
  refine Prog.Acts.bind (fun _ => trivial) fun s => ⟨trivial, ?_⟩
  change Prog.Acts _ (match (s.media.processSdpForInvite body).2 with | some _ => _ | none => _)
  cases (s.media.processSdpForInvite body).2 with
  | none => trivial
  | some reason => exact acts_decline.bind fun _ => trivial

theorem acts_requestUpdating (q : SalRequest) : (requestUpdating q).Acts OpAction.answers := by
  refine ⟨trivial, (acts_processSdpForInvite q.body).bind fun ok => Prog.Acts.when ?_⟩
  exact acts_tell (by simp)

theorem acts_requestInvite (q : SalRequest) : (do
    let ok ← processSdpForInvite q.body
    Prog.when ok (upcall .callReceived) : OpProg Unit).Acts OpAction.answers :=
  (acts_processSdpForInvite q.body).bind fun ok => Prog.Acts.when (acts_tell (by decide))

theorem acts_requestAck (q : SalRequest) : (do
    processMedia fun lib m => m.handleSdpFromAck lib q.body
    upcall .callAck : OpProg Unit).Acts OpAction.answers :=
  (acts_processMedia _).bind fun _ => acts_tell (by decide)

end SalOpCall

/-! ## Runs on concrete operations -/

/-- A stack that can make every request. -/
def plainStack : (q : OpQuery) → q.Answer
  | .mediaLib => plainLib
  | .proceeding => true
  | .created _ => true

/-- One audio stream. -/
def audioOffer : SalMediaDescription := lines 1 (plainStream .audio .rtpAvp 7078 "PCMU")

/-- An offer of the peer, in a dialog. -/
def offered (m : SipMethod) (x : DialogState) : SalEvent :=
  .request { method := m, dialog := (0, x), body := .sdp audioOffer }

/-- The state after a function or an event, with a call layer that does nothing in the upcalls. -/
def opAfter (ok : OpAction → CallOp → Bool) (p : OpProg Unit) (s : CallOp) : CallOp :=
  ((p.play ok plainStack s).map Prod.snd).getD s

theorem reachable_fresh (ok : OpAction → CallOp → Prop) (dir : SalOpDir) :
    Reachable (opSystem ok) ⟨[], .fresh dir .normal false false false⟩ :=
  .init ⟨dir, .normal, false, false, false, rfl⟩

section after

variable {ok : OpAction → CallOp → Prop} {b : OpAction → CallOp → Bool}

theorem reachable_opAfter {M : System opSig} (hok : ∀ x s, b x s = true → M.ok x s)
    {p : OpProg Unit} {s : CallOp} (hr : Reachable M ⟨[p], s⟩)
    (hp : (p.play b plainStack s).isSome = true) : Reachable M ⟨[], opAfter b p s⟩ := by
  obtain ⟨r, h⟩ := Option.isSome_iff_exists.mp hp
  have hreach : Reachable M ⟨[], r.2⟩ := reachable_of_play hok hr h
  rwa [opAfter, h]

theorem reachable_afterCall (hok : ∀ x s, b x s = true → ok x s) {s : CallOp}
    (hr : Reachable (opSystem ok) ⟨[], s⟩) (a : SalCall) (ha : a.Enabled s)
    (hp : (a.program.play b plainStack s).isSome = true) :
    Reachable (opSystem ok) ⟨[], opAfter b a.program s⟩ :=
  reachable_opAfter hok (hr.step (.api ⟨a, ha, rfl⟩)) hp

theorem reachable_afterEvent (hok : ∀ x s, b x s = true → ok x s) {s : CallOp}
    (hr : Reachable (opSystem ok) ⟨[], s⟩) (e : SalEvent) (he : e.Enabled s)
    (hp : (e.program.play b plainStack s).isSome = true) :
    Reachable (opSystem ok) ⟨[], opAfter b e.program s⟩ :=
  reachable_opAfter hok (hr.step (.event ⟨e, he, rfl⟩)) hp

end after

end Linphone
