import Linphone.Call.Api

/-!
# Events from the network

The callbacks of `coreapi/callbacks.c` that the SAL calls on an operation, the ICE events of
`coreapi/linphonecall.c` and the timers of `linphone_core_iterate`, as programs on the core. An
upcall finds its call through the user pointer of the operation, which a released operation has
lost; ICE events and timers are for the calls of the list. `CoreEvent` is the list of them.
-/

namespace Linphone

open Reentrant

/-! ## Incoming calls -/

/-- `linphone_core_notify_incoming_call` -/
def notifyIncomingCall (c : CallId) : CoreProg Unit := do
  useOp c
  let earlyMedia ← flag .incomingCallsEarlyMedia c
  let s ← getCore
  -- play the ring if this is the only call
  if s.calls.length = 1 then perform (.makeCurrent .incoming c)
  else edit c fun d => { d with ringingBeep := true }
  setState c .incomingReceived
  let r ← readCall c
  Prog.when (r.vars.state = .incomingReceived) do
    useOp c
    Prog.when earlyMedia do
      let _ ← acceptEarlyMediaWithParams c none
      pure ()
    useOp c
    let replaced ← query (.replaces c)
    let auto ← flag .autoAnswerReplacingCalls c
    Prog.when (replaced.isSome && auto) do
      let _ ← acceptCallWithParams c none
      pure ()

/-- `linphone_call_new_incoming` -/
def newIncoming : CoreProg CallId := do
  let s ← getCore
  let params ← query .newParams
  let md ← query (.remoteDescription s.created)
  let ice ← flag .useIce s.created
  perform (.create
    ((({} : CallData).setNewParams { params with inConference := false }).mapMedia
      (·.initMediaStreams)))
  edit s.created fun d => { d with iceSession := ice && md.isSome }
  let _ ← prepareIce s.created
  pure s.created

/-- The part of `call_received` that decides whether there is a call; a call whose offer cannot be
answered is declined on its own operation and left behind. -/
def receiveCall : CoreProg (Option CallId) := do
  let s ← getCore
  let presence ← query .presenceModel
  let same ← flag .sameRemoteAddress 0
  if presenceModelGetBasicStatus presence = .closed then do
    Prog.when (presenceDeclines presence) (perform .refuse)
    pure none
  else if s.calls.length < s.maxCalls ∧ ¬same then do
    let c ← newIncoming
    makeLocalMediaDescription c
    let md ← query (.finalDescription c)
    let incompatible ← flag .incompatibleSecurity c
    if md.any fun md => md.empty || incompatible then do
      respond c
      pure none
    else do
      let _ ← addCall c
      pure (some c)
  else do
    perform .refuse
    pure none

/-- `call_received` -/
def callReceived : CoreProg Unit := do
  let received ← receiveCall
  match received with
  | some c => do
      let r ← readCall c
      -- ringing waits for the end of the gathering
      Prog.when (!r.data.iceSession) (notifyIncomingCall c)
  | none => pure ()

/-! ## Answers of the peer -/

/-- `call_ringing` -/
def callRinging (c : CallId) : CoreProg Unit := do
  let md ← query (.finalDescription c)
  let r ← readCall c
  let ringing ← flag .ringing c
  match md with
  | none =>
      Prog.when (r.vars.state ≠ .outgoingEarlyMedia && !ringing) (setState c .outgoingRinging)
  | some md =>
      -- with streams started, media is at most forked to a new destination
      Prog.when (!r.data.media.running) do
        setState c .outgoingEarlyMedia
        updateStreams c md

/-- The part of `call_accepted` after the call is connected. -/
def acceptedMedia (c : CallId) (md : Option SalMediaDescription) (updateState : Bool) :
    CoreProg Unit := do
  let incompatible ← flag .incompatibleSecurity c
  let r ← readCall c
  match md.filter fun md => !md.empty && !incompatible with
  | some md =>
      if md.hasDir .sendOnly || md.hasDir .inactive then do
        updateStreams c md
        Prog.when updateState (setState c .paused)
        let r ← readCall c
        Prog.when r.data.referPending (ignoring (startReferedCall c))
      else if md.hasDir .recvOnly then do
        -- we are put on hold when the call is initially accepted
        updateStreams c md
        Prog.when updateState (setState c .pausedByRemote)
      else do
        updateStreams c md
        let r ← readCall c
        Prog.when (!r.data.media.currentInConference) (perform (.makeCurrent .connected c))
        Prog.when updateState (setState c .streamsRunning)
  | none =>
      -- send a bye only in case of outgoing state, otherwise resume the previous one
      if r.vars.prevstate.outgoingEarly then abortCall c else setState c r.vars.prevstate

/-- The media description `call_accepted` goes on with: the one of early media when the answer has
none. -/
def acceptedDescription (r : CallRec) (md : Option SalMediaDescription) :
    Option SalMediaDescription :=
  if r.vars.prevstate = .outgoingEarlyMedia ∧ md.all (·.empty) then
    r.data.media.resultdesc <|> md
  else md

/-- `call_accepted` -/
def callAccepted (c : CallId) : CoreProg Unit := do
  let md ← query (.finalDescription c)
  let r ← readCall c
  match r.vars.state with
  | .outgoingProgress | .outgoingRinging | .outgoingEarlyMedia => do
      setState c .connected
      let r ← readCall c
      acceptedMedia c (acceptedDescription r md) true
  | .earlyUpdating => do
      setState c r.vars.prevstate
      let r ← readCall c
      acceptedMedia c (acceptedDescription r md) false
  | _ => acceptedMedia c (acceptedDescription r md) true

/-- `call_ack` -/
def callAck (c : CallId) : CoreProg Unit := do
  let r ← readCall c
  Prog.when r.data.media.expectMediaInAck do
    let md ← query (.finalDescription c)
    match md.filter fun md => !md.empty with
    | some md => do
        updateStreams c md
        setState c .streamsRunning
    | none => abortCall c

/-! ## Changes by the peer -/

/-- `call_updated_by_remote` -/
def callUpdatedByRemote (c : CallId) (isUpdate : Bool) : CoreProg Unit := do
  useOp c
  let lib ← query .mediaLib
  let rmd ← query (.remoteDescription c)
  let r ← readCall c
  -- in paused state, we must stay in paused state
  Prog.when (rmd.isSome && r.vars.state ≠ .paused) (makeLocalMediaDescription c)
  let md ← query (.finalDescription c)
  let incompatible ← flag .incompatibleSecurity c
  let diff := (r.data.media.resultdesc.bind fun prev =>
    md.map fun md => salMediaDescriptionEquals lib prev md).getD .unchanged
  let declined := rmd.isSome &&
    (md.any (fun md => md.empty || incompatible) ||
      (isUpdate && (diff.cryptoPolicy || diff.streams)))
  if declined then respond c
  else do
    let defer ← flag .deferUpdateDefault c
    let expectMedia := edit c (·.mapMedia fun m => { m with expectMediaInAck := true })
    if r.vars.state = .streamsRunning then do
      edit c fun d => { d with deferUpdate := defer }
      setState c .updatedByRemote
      let r ← readCall c
      Prog.when (!r.data.deferUpdate) (ignoring (acceptCallUpdate c none))
      Prog.when rmd.isNone expectMedia
    else if r.vars.state = .pausedByRemote then do
      edit c fun d => { d with deferUpdate := defer }
      Prog.when (!defer) (acceptCallUpdateInternal c none .pausedByRemote)
      Prog.when rmd.isNone expectMedia
    else Prog.when isUpdate do
      setState c .earlyUpdatedByRemote
      let r ← readCall c
      acceptCallUpdateInternal c none r.vars.prevstate

/-- `call_resumed` -/
def callResumed (c : CallId) : CoreProg Unit := acceptCallUpdateInternal c none .streamsRunning

/-- `call_paused_by_remote` -/
def callPausedByRemote (c : CallId) : CoreProg Unit := do
  let params ← query .newParams
  acceptCallUpdateInternal c (some params) .pausedByRemote

/-- `call_updating` -/
def callUpdating (c : CallId) (isUpdate : Bool) : CoreProg Unit := do
  let rmd ← query (.remoteDescription c)
  let r ← readCall c
  match rmd with
  | none => callUpdatedByRemote c isUpdate
  | some rmd =>
      match r.vars.state with
      | .pausedByRemote =>
          if rmd.hasDir .sendRecv || rmd.hasDir .recvOnly then callResumed c
          else callUpdatedByRemote c isUpdate
      | .outgoingRinging | .outgoingEarlyMedia | .incomingEarlyMedia =>
          Prog.when isUpdate (callUpdatedByRemote c isUpdate)
      | .streamsRunning | .connected | .paused =>
          if rmd.hasDir .sendOnly || rmd.hasDir .inactive then callPausedByRemote c
          else callUpdatedByRemote c isUpdate
      | .updating | .pausing | .resuming | .updatedByRemote => respond c
      | _ => pure () -- should not happen

/-! ## Ends -/

/-- `call_terminated` -/
def callTerminated (c : CallId) : CoreProg Unit := do
  let r ← readCall c
  Prog.when (!r.vars.state.ended) do
    Prog.when (r.vars.state = .incomingReceived || r.vars.state = .incomingEarlyMedia)
      (edit c fun d => { d with nonOpError := .requestTimeout })
    Prog.when r.data.referPending (ignoring (startReferedCall c))
    edit c (·.mapMedia (·.stopMediaStreams))
    setState c .end

/-- `linphone_core_restart_invite` -/
def restartInvite (c : CallId) : CoreProg Unit := do
  perform (.createOp c)
  edit c (·.mapMedia fun m => m.freeMediaResources.initMediaStreams)
  startInvite c

/-- The retry of a call whose media was refused: without AVPF, then without SRTP, looking at the
first active stream. -/
def retryParams (d : CallData) (mandatory : Bool) : Option (CallData → CallData) :=
  ((List.range d.media.localdesc.nbStreams).find? fun i =>
      (d.media.localdesc.stream i).active).bind fun i =>
    if d.avpfEnabled then some fun d => { d with avpfEnabled := false }
    else if d.mediaEncryption = .srtp ∧ ¬mandatory then
      some fun d => { d with
        mediaEncryption := .none
        media := { d.media with
          localdesc := d.media.localdesc.setStream i
            { d.media.localdesc.stream i with
              crypto := Vector.replicate cryptoAlgoMax {} } } }
    else none

/-- The part of `call_failure` for failures that are not retried. -/
def finishFailure (c : CallId) (reason : SalReason) (referer : Option CallId) :
    CoreProg Unit := do
  let r ← readCall c
  -- some call errors are not fatal
  if r.vars.state = .updating ∨ r.vars.state = .pausing ∨ r.vars.state = .resuming then
    setState c r.vars.prevstate
  else do
    edit c (·.mapMedia (·.stopMediaStreams))
    Prog.when (!r.vars.state.ended) (setState c (if reason = .declined then .end else .error))
    match referer with
    | some referer => perform (.queueTask referer)
    | none => pure ()

/-- `call_failure`, with the reason and whether a redirection came with a contact. -/
def callFailure (c : CallId) (reason : SalReason) (contact : Bool) : CoreProg Unit := do
  let r ← readCall c
  match reason with
  | .redirect => do
      edit c (·.mapMedia (·.stopMediaStreams))
      if r.vars.state.outgoingEarly && contact then restartInvite c
      else finishFailure c reason r.data.referer
  | .unsupportedContent | .notAcceptable => do
      let mandatory ← flag .encryptionMandatory c
      match if r.vars.state.outgoingEarly then retryParams r.data mandatory else none with
      | some f => do
          edit c f
          restartInvite c
      | none => finishFailure c reason r.data.referer
  | .requestPending =>
      -- restore previous state, the application will decide to resubmit the action if relevant
      setState c r.vars.prevstate
  | _ => finishFailure c reason r.data.referer

/-- `call_released` -/
def callReleased (c : CallId) : CoreProg Unit := setState c .released

/-! ## Transfers -/

/-- `refer_received` -/
def referReceived (c : CallId) (referTo : String) : CoreProg Unit := do
  edit c fun d => { d with referTo := some referTo, referPending := true }
  setState c .refered
  let r ← readCall c
  Prog.when r.data.referPending (ignoring (startReferedCall c))

/-- `notify_refer`; a transfer that succeeded ends the call. -/
def notifyRefer (c : CallId) (succeeded : Bool) : CoreProg Unit :=
  Prog.when succeeded (ignoring (terminateCall c))

/-- `resume_call_after_failed_transfer` -/
def resumeCallAfterFailedTransfer (c : CallId) : CoreProg Unit := do
  let r ← readCall c
  let idle ← flag .opIdle c
  -- the task is run again while the call is still pausing or its operation is busy
  if r.data.wasAutomaticallyPaused ∧ (r.vars.state = .pausing ∨ r.vars.state = .paused ∧ ¬idle)
  then pure ()
  else do
    Prog.when (r.data.wasAutomaticallyPaused && r.vars.state = .paused) (ignoring (resumeCall c))
    perform (.dequeueTask c)

/-! ## ICE and timers -/

/-- `ping_reply` -/
def pingReply (c : CallId) : CoreProg Unit := do
  let r ← readCall c
  Prog.when (r.vars.state = .outgoingInit) do
    edit c fun d => { d with pingReplied := true }
    proceedWithInviteIfReady c

/-- `ORTP_EVENT_ICE_SESSION_PROCESSING_FINISHED` that leads to an update, and
`ORTP_EVENT_ICE_RESTART_NEEDED`. -/
def iceUpdate (c : CallId) : CoreProg Unit := do
  let params ← query (.currentParams c)
  ignoring (updateCall c (some params))

/-- `ORTP_EVENT_ICE_GATHERING_FINISHED` -/
def iceGatheringFinished (c : CallId) (successful : Bool) : CoreProg Unit := do
  Prog.when (!successful) (edit c fun d => { d with iceSession := false })
  let r ← readCall c
  match r.vars.state with
  | .updating => ignoring (startUpdateCall c)
  | .updatedByRemote => startAcceptCallUpdate c r.vars.prevstate
  | .outgoingInit => proceedWithInviteIfReady c
  | .idle => do
      useOp c
      notifyIncomingCall c
  | _ => pure ()

/-- `ORTP_EVENT_ICE_LOSING_PAIRS_COMPLETED` -/
def iceLosingPairsCompleted (c : CallId) : CoreProg Unit := do
  let r ← readCall c
  Prog.when (r.vars.state = .updatedByRemote) (startAcceptCallUpdate c r.vars.prevstate)

/-- The start of a call that waited for too long, in `linphone_core_iterate`. -/
def delayedTimeout (c : CallId) : CoreProg Unit := do
  let r ← readCall c
  Prog.when (r.vars.state = .outgoingInit) do
    edit c fun d => { d with iceSession := false }
    startInvite c

/-- The end of a call that is not answered. -/
def incTimeout (c : CallId) : CoreProg Unit := do
  let r ← readCall c
  Prog.when (r.vars.state = .incomingReceived || r.vars.state = .incomingEarlyMedia) do
    edit c fun d => { d with logStatus := .missed, nonOpError := .requestTimeout }
    ignoring (declineCall c)

/-! ## The events -/

inductive CoreEvent
  | received
  | ringing (c : CallId)
  | accepted (c : CallId)
  | ack (c : CallId)
  | updating (c : CallId) (isUpdate : Bool)
  | terminated (c : CallId)
  | failure (c : CallId) (reason : SalReason) (contact : Bool)
  | released (c : CallId)
  | refer (c : CallId) (referTo : String)
  | notifyRefer (c : CallId) (succeeded : Bool)
  | pingReply (c : CallId)
  | iceUpdate (c : CallId)
  | iceGatheringFinished (c : CallId) (successful : Bool)
  | iceLosingPairsCompleted (c : CallId)
  | delayedTimeout (c : CallId)
  | incTimeout (c : CallId)
  | inCallTimeout (c : CallId)
  | resumeAfterFailedTransfer (c : CallId)

namespace CoreEvent

/-- When an event can happen: an upcall on an operation that still points to the call, a task that
was queued, everything else for the calls of the list. -/
def Enabled (s : Core) : CoreEvent → Prop
  | .received => True
  | .ringing c | .accepted c | .ack c | .updating c _ | .terminated c | .failure c _ _
  | .released c | .refer c _ | .notifyRefer c _ => c < s.created ∧ (s.call c).op = true
  | .resumeAfterFailedTransfer c => c ∈ s.tasks
  | .pingReply c => c < s.created
  | .iceUpdate c | .iceGatheringFinished c _ | .iceLosingPairsCompleted c | .delayedTimeout c
  | .incTimeout c | .inCallTimeout c => c ∈ s.calls

def program : CoreEvent → CoreProg Unit
  | .received => callReceived
  | .ringing c => callRinging c
  | .accepted c => callAccepted c
  | .ack c => callAck c
  | .updating c isUpdate => callUpdating c isUpdate
  | .terminated c => callTerminated c
  | .failure c reason contact => callFailure c reason contact
  | .released c => callReleased c
  | .refer c referTo => referReceived c referTo
  | .notifyRefer c succeeded => Linphone.notifyRefer c succeeded
  | .pingReply c => Linphone.pingReply c
  | .iceUpdate c => Linphone.iceUpdate c
  | .iceGatheringFinished c successful => Linphone.iceGatheringFinished c successful
  | .iceLosingPairsCompleted c => Linphone.iceLosingPairsCompleted c
  | .delayedTimeout c => Linphone.delayedTimeout c
  | .incTimeout c => Linphone.incTimeout c
  | .inCallTimeout c => ignoring (terminateCall c)
  | .resumeAfterFailedTransfer c => resumeCallAfterFailedTransfer c

end CoreEvent

end Linphone
