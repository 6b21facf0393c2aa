import Linphone.Lib.Reentrant
import Linphone.Sal.OpMedia
import Mathlib.Logic.Function.Basic

/-!
# Call operations

The SIP side of a call (`bellesip_sal/sal_op_call.c`, and what `sal_op_impl.c` and `sal_impl.c` do
around it): a `SalOp` of type call, the functions the call layer calls on it, and the handlers of
what the SIP stack reports. A handler calls back into the call layer, which may call any of the
functions before it returns.

The stack is outside. Its dialogs are numbers with a state that it moves by itself; its answers are
queries or come with the event. Of a client transaction only the method counts, since a CANCEL can
be made for an INVITE alone. Headers, contacts and the routing of requests are left out, and so are
refreshers, the reference count and authentications that the user supplies later.

An operation carries a trace of what it sent and reported, the latest first, which no function
reads.
-/

namespace Linphone

open Reentrant

/-! ## Data -/

inductive SalOpState
  | early | active | terminating | terminated
deriving DecidableEq, Inhabited

inductive SalOpDir
  | incoming | outgoing
deriving DecidableEq, Inhabited

/-- `belle_sip_dialog_state_t` -/
inductive DialogState
  | null | early | confirmed | terminated
deriving DecidableEq, Inhabited

inductive SipMethod
  | invite | ack | cancel | bye | update | info | prack | refer | notify | options | message | other
deriving DecidableEq, Inhabited

abbrev DialogId : Type := Nat

/-- Server transactions are numbered as they come in. -/
abbrev TransId : Type := Nat

/-- The callbacks of the call layer. -/
inductive Upcall
  | callReceived | callRinging | callAccepted | callAck
  | callUpdating (isUpdate : Bool)
  | callTerminated | callFailure | callReleased
  /-- Upcalls that are not about the state of the call. -/
  | other
deriving DecidableEq

/-- What is recorded of an operation. -/
inductive Trace
  /-- A new request was sent. -/
  | request (m : SipMethod)
  /-- A request was sent again, with credentials. -/
  | retry (m : SipMethod)
  | ack
  | provisional (t : TransId)
  /-- A final response in a server transaction. -/
  | final (t : TransId)
  | told (u : Upcall)
  /-- A 2xx response to an INVITE came in. -/
  | inviteOk
  /-- `sal_call_terminate` took effect. -/
  | terminate
deriving DecidableEq

/-- A response, with what the stack says about it. -/
structure SalResponse where
  /-- The method of the request. -/
  method : SipMethod
  code : Nat
  dialog : Option (DialogId × DialogState) := none
  body : MessageBody := .empty
  /-- `belle_sip_dialog_create_ack` succeeds. -/
  ackCreated : Bool := true
  /-- `belle_sip_provider_add_authorization` finds credentials. -/
  authorized : Bool := false
  /-- The request was an INFO with `media_control+xml`. -/
  vfu : Bool := false

/-- A request, with what the stack says about it. -/
structure SalRequest where
  method : SipMethod
  /-- The dialog of the operation, or the one that is created for it. -/
  dialog : DialogId × DialogState
  body : MessageBody := .empty
  /-- A CANCEL has the server transaction of an INVITE. -/
  matched : Bool := true

/-- A `SalOp`. -/
structure CallOp where
  state : SalOpState := .early
  dir : SalOpDir := .incoming
  /-- `base.user_pointer != NULL` -/
  attached : Bool := true
  dialog : Option DialogId := none
  /-- The dialogs of the stack, and the provisional response kept with each. -/
  dialogState : DialogId → DialogState := fun _ => .null
  earlyResponse : DialogId → Option Nat := fun _ => none
  /-- The method of `pending_client_trans` -/
  pendingClientTrans : Option SipMethod := none
  pendingServerTrans : Option TransId := none
  pendingUpdateServerTrans : Option TransId := none
  authRequests : Nat := 0
  /-- `auth_info != NULL` -/
  authInfo : Bool := false
  media : OpMedia := {}
  callReleased : Bool := false
  /-- `call_set_released` was given to the main loop. -/
  releaseLater : Bool := false
  /-- Timers of `vfu_retry` -/
  vfuTimers : Nat := 0
  /-- Server transactions so far. -/
  received : Nat := 0
  /-- INVITEs and UPDATEs that have no final response and were not terminated, the latest first. -/
  unanswered : List TransId := []
  /-- Where `sal_call_accept` and `sal_call_decline` responded, each with the latest request without
  a response. -/
  responses : List (TransId × Option TransId) := []
  /-- SDP that was sent, each with the numbers of the descriptions it comes from and of the ones
  that were there. -/
  sentSdp : List (SentSdp × (Nat × Nat) × (Nat × Nat)) := []
  /-- Results that were returned, with the same numbers. -/
  reads : List ((Nat × Nat) × (Nat × Nat)) := []
  /-- Upcalls that were made when the user pointer was cleared. -/
  orphaned : List Upcall := []
  trace : List Trace := []

/-! ## Actions -/

inductive OpAction
  /-- A response comes in. -/
  | arrive (r : SalResponse)
  /-- `call_process_response` begins. -/
  | process (r : SalResponse)
  | setState (x : SalOpState)
  /-- The assignment that follows `call_accepted`. -/
  | activate
  | setDialog (d : Option DialogId)
  | moveDialog (d : DialogId) (x : DialogState)
  | keepEarlyResponse (d : DialogId) (code : Nat)
  | countAuth (n : Nat)
  | media (f : OpMedia → OpMedia)
  /-- `sal_op_send_request` -/
  | send (m : SipMethod)
  | resend (m : SipMethod)
  | ack
  | terminate
  /-- A server transaction is created, and kept when it is an INVITE or UPDATE. -/
  | receive (m : SipMethod)
  | clearUpdateTrans
  | endTrans (t : TransId)
  | provisional (t : TransId)
  | final (t : TransId)
  /-- The response of `sal_call_accept` or `sal_call_decline`. -/
  | respond (t : TransId)
  /-- SDP, if any, goes out with a message. -/
  | attach (m : OpMedia) (sdp : Option SentSdp)
  /-- The result is returned. -/
  | read
  | tell (u : Upcall)
  | markReleased
  | scheduleRelease (b : Bool)
  | detach
  | addTimer
  | dropTimer

/-- A 2xx response to an INVITE. -/
def SalResponse.inviteOk (r : SalResponse) : Bool :=
  r.method = .invite && 200 ≤ r.code && r.code < 300

namespace CallOp

variable (s : CallOp)

def record (e : Trace) : CallOp := { s with trace := e :: s.trace }

/-- A callback is called. -/
def tell (u : Upcall) : CallOp :=
  { s.record (.told u) with orphaned := if s.attached then s.orphaned else u :: s.orphaned }

/-- The latest server transaction. -/
def last : TransId := s.received - 1

/-- The state of the dialog of the operation, `NULL` without one. -/
def currentDialogState : DialogState := (s.dialog.map s.dialogState).getD .null

end CallOp

def OpAction.apply : OpAction → CallOp → CallOp
  | .arrive r, s =>
      let s := if r.inviteOk then s.record .inviteOk else s
      { s with
        media :=
          if (r.method = .invite ∨ r.method = .update) ∧ r.code < 300 then s.media.hear r.body
          else s.media }
  | .process _, s => s
  | .setState x, s => { s with state := x }
  | .activate, s => { s with state := .active }
  | .setDialog d, s => { s with dialog := d }
  | .moveDialog d x, s => { s with dialogState := Function.update s.dialogState d x }
  | .keepEarlyResponse d code, s =>
      { s with earlyResponse := Function.update s.earlyResponse d (some code) }
  | .countAuth n, s => { s with authRequests := n }
  | .media f, s => { s with media := f s.media }
  | .send m, s => { s.record (.request m) with pendingClientTrans := some m }
  | .resend m, s => { s.record (.retry m) with pendingClientTrans := some m }
  | .ack, s => s.record .ack
  | .terminate, s => s.record .terminate
  | .receive m, s =>
      { s with
        received := s.received + 1
        pendingServerTrans := if m = .invite then some s.received else s.pendingServerTrans
        pendingUpdateServerTrans :=
          if m = .update then some s.received else s.pendingUpdateServerTrans
        unanswered := if m = .invite ∨ m = .update then s.received :: s.unanswered else
          s.unanswered }
  | .clearUpdateTrans, s => { s with pendingUpdateServerTrans := none }
  | .endTrans t, s =>
      { s with
        pendingServerTrans := s.pendingServerTrans.filter (· ≠ t)
        pendingUpdateServerTrans := s.pendingUpdateServerTrans.filter (· ≠ t)
        unanswered := s.unanswered.erase t }
  | .provisional t, s => s.record (.provisional t)
  | .final t, s => { s.record (.final t) with unanswered := s.unanswered.erase t }
  | .respond t, s =>
      { s.record (.final t) with
        responses := (t, s.unanswered.head?) :: s.responses
        unanswered := s.unanswered.erase t }
  | .attach m sdp, s =>
      { s with
        media := m
        sentSdp :=
          match sdp with
          | some (.answer md) => (.answer md, m.answerOf, m.versions) :: s.sentSdp
          | some (.offer md) => (.offer md, m.versions, m.versions) :: s.sentSdp
          | none => s.sentSdp }
  | .read, s =>
      { s with
        reads :=
          if s.media.result.isSome then (s.media.resultOf, s.media.versions) :: s.reads
          else s.reads }
  | .tell u, s => s.tell u
  | .markReleased, s => { s with callReleased := true }
  | .scheduleRelease b, s => { s with releaseLater := b }
  | .detach, s => { s with attached := false }
  | .addTimer, s => { s with vfuTimers := s.vfuTimers + 1 }
  | .dropTimer, s => { s with vfuTimers := s.vfuTimers - 1 }

/-- What the stack is asked: the state of the pending transaction, and whether it can make a
request. -/
inductive OpQuery
  | mediaLib
  /-- `belle_sip_transaction_get_state(pending_client_trans) == BELLE_SIP_TRANSACTION_PROCEEDING` -/
  | proceeding
  /-- A request can be made, within the dialog or out of it. -/
  | created (m : SipMethod)

abbrev OpQuery.Answer : OpQuery → Type
  | .mediaLib => MediaLib
  | .proceeding => Bool
  | .created _ => Bool

abbrev opSig : Sig where
  State := CallOp
  Action := OpAction
  apply := OpAction.apply
  Query := OpQuery
  Answer := OpQuery.Answer
  Note := Upcall

abbrev OpProg (α : Type) : Type := Prog opSig α

namespace SalOpCall

def getOp : OpProg CallOp := Prog.current

def perform (x : OpAction) : OpProg Unit := Prog.perform x

def query (q : OpQuery) : OpProg q.Answer := Prog.query (S := opSig) q

section wp

variable {α : Type} (C : Contract opSig) (post : α → CallOp → Prop) (s : CallOp)

theorem wp_getOp (f : CallOp → OpProg α) : C.wp (getOp >>= f) post s = C.wp (f s) post s := rfl

theorem wp_performs (x : OpAction) (f : Unit → OpProg α) :
    C.wp (perform x >>= f) post s = (C.Ok x s → C.wp (f ()) post (x.apply s)) := rfl

end wp

/-- `op->base.root->callbacks` -/
def upcall (u : Upcall) : OpProg Unit := do
  perform (.tell u)
  Prog.tell (S := opSig) u

/-- `sal_op_send_request` of a request that may not have been made; the answer is whether it was. -/
def sendRequest (m : SipMethod) : OpProg Bool := do
  let created ← query (.created m)
  Prog.when created (perform (.send m))
  pure created

/-! ## Small functions -/

/-- `call_set_released`, for calls that are terminated before there is a dialog. -/
def callSetReleased : OpProg Unit := do
  let s ← getOp
  Prog.when (!s.callReleased) do
    perform (.setState .terminated)
    upcall .callReleased
    perform .markReleased
    perform (.setDialog none)

/-- `cancelling_invite`. A CANCEL can be made for an INVITE only. -/
def cancellingInvite : OpProg Unit := do
  let s ← getOp
  match s.pendingClientTrans with
  | none => .stuck
  | some m => do
      Prog.when (m = .invite) do
        let _ ← sendRequest .cancel
        pure ()
      perform (.setState .terminating)

/-- `sdp_process` -/
def processMedia (f : MediaLib → OpMedia → Option OpMedia) : OpProg Unit := do
  let lib ← query .mediaLib
  let s ← getOp
  match f lib s.media with
  | some m => perform (.media fun _ => m)
  | none => .stuck

/-- SDP that is put into a message, if any. -/
def attach (f : MediaLib → OpMedia → OpMedia × Option SentSdp) : OpProg Unit := do
  let lib ← query .mediaLib
  let s ← getOp
  perform (.attach (f lib s.media).1 (f lib s.media).2)

/-! ## Functions of the call layer -/

/-- `sal_call_set_local_media_description` -/
def setLocalMediaDescription (desc : Option SalMediaDescription) : OpProg Unit :=
  perform (.media (·.setLocal desc))

/-- `sal_call_get_final_media_description` -/
def getFinalMediaDescription : OpProg (Option SalMediaDescription) := do
  processMedia fun lib m => some (m.getFinal lib)
  perform .read
  let s ← getOp
  pure s.media.result

/-- `sal_call` -/
def call : OpProg Bool := do
  let created ← query (.created .invite)
  Prog.when created do
    attach fun _ m => m.fillInvite
    perform (.send .invite)
  pure created

/-- `sal_call_notify_ringing` -/
def notifyRinging (earlyMedia : Bool) : OpProg Unit := do
  let s ← getOp
  match s.pendingServerTrans with
  | none => .stuck
  | some t => do
      Prog.when earlyMedia (attach fun lib m => m.handleOfferAnswerResponse lib)
      perform (.provisional t)

/-- `sal_call_accept` -/
def accept : OpProg Unit := do
  let s ← getOp
  -- first check if an UPDATE transaction needs to be accepted
  match s.pendingUpdateServerTrans <|> s.pendingServerTrans with
  | none => pure () -- an error: no transaction
  | some t => do
      attach fun lib m => m.handleOfferAnswerResponse lib
      perform (.respond t)
      perform .clearUpdateTrans

/-- `sal_call_decline` -/
def decline : OpProg Unit := do
  let s ← getOp
  match s.pendingServerTrans <|> s.pendingUpdateServerTrans with
  | none => pure () -- an error: no transaction
  | some t => perform (.respond t)

/-- `sal_call_update` -/
def update (noUserConsent : Bool) : OpProg Bool := do
  let s ← getOp
  match s.dialog with
  | none => .stuck -- the state of the dialog is read
  | some d => do
      let method : Option SipMethod := match s.dialogState d with
        | .confirmed => some (if noUserConsent then .update else .invite)
        | .early => some .update
        | _ => none
      match method with
      | none => pure false
      | some m => do
          let created ← query (.created m)
          Prog.when created do
            attach fun _ m => m.fillInvite
            perform (.send m)
          pure created

/-- The other requests within a dialog: DTMF, picture requests, transfers and messages. -/
def sendInDialog (m : SipMethod) : OpProg Unit := do
  let s ← getOp
  Prog.when (s.currentDialogState = .confirmed || s.currentDialogState = .early) do
    let _ ← sendRequest m
    pure ()

/-- `sal_call_terminate` -/
def terminate : OpProg Bool := do
  let s ← getOp
  if s.state = .terminating ∨ s.state = .terminated then pure false
  else match s.currentDialogState with
    | .confirmed => do
        perform .terminate
        let _ ← sendRequest .bye
        perform (.setState .terminating)
        pure true
    | .null => do
        if s.dir = .incoming then do
          perform .terminate
          decline
          perform (.setState .terminated)
        else Prog.when s.pendingClientTrans.isSome do
          perform .terminate
          let proceeding ← query .proceeding
          -- without a provisional response there is nothing to cancel yet
          if proceeding then cancellingInvite else perform (.setState .terminating)
        pure true
    | .early => do
        perform .terminate
        if s.dir = .incoming then do
          decline
          perform (.setState .terminated)
        else cancellingInvite
        pure true
    | .terminated => pure false

/-- `sal_op_release` -/
def release : OpProg Unit := do
  let s ← getOp
  -- the terminating state means that a response is waited for
  Prog.when (s.state ≠ .terminating) (perform (.setState .terminated))
  perform .detach

end SalOpCall

end Linphone
