import Linphone.Call.Core

/-!
# Operations on calls

The functions of `linphonecore.c` and `conference.c` an application calls to place, answer, hold,
change, transfer and end calls, as programs on the core. `ApiCall` is the list of them.

A loop over `lc->calls` walks the nodes of the list itself, so it is lost when the node it stands
on, or the one it goes to next, is freed by an operation in between.
-/

namespace Linphone

open Reentrant

/-! ## Sound resources -/

/-- `linphone_core_preempt_sound_resources` -/
def preemptSoundResources : CoreProg Unit := do
  let s ← getCore
  if s.conference.localParticipant then leaveConference
  else match s.currentCall with
    | some cur => do
        let _ ← pauseCallInternal cur
        pure ()
    | none => pure ()

/-- The states of a call that lock the sound resources. -/
def CallState.locksSound : CallState → Bool
  | .outgoingInit | .outgoingProgress | .outgoingRinging | .outgoingEarlyMedia | .connected
  | .refered | .incomingEarlyMedia | .updating => true
  | _ => false

/-- `linphone_core_sound_resources_locked` -/
def Core.soundResourcesLocked (s : Core) : Bool := s.calls.any fun c => (s.state c).locksSound

/-! ## Outgoing calls -/

/-- `linphone_core_start_invite` -/
def startInvite (c : CallId) : CoreProg Unit := do
  useOp c
  makeLocalMediaDescription c
  let sent ← query (.sent c .invite)
  if sent then do
    edit c (·.recordInvite)
    setState c .outgoingProgress
  else do
    edit c (·.mapMedia (·.stopMediaStreams))
    setState c .error

/-- `linphone_core_proceed_with_invite_if_ready` -/
def proceedWithInviteIfReady (c : CallId) : CoreProg Unit := do
  let r ← readCall c
  let gathered ← flag .candidatesGathered c
  Prog.when ((!r.data.iceSession || gathered) && (!r.data.pingOp || r.data.pingReplied))
    (startInvite c)

/-- `linphone_call_new_outgoing` -/
def newOutgoing (referer : Option CallId) : CoreProg CallId := do
  let s ← getCore
  let params ← query .newParams
  let ice ← flag .useIce s.created
  perform (.create { ({} : CallData).setNewParams params with
    referer := referer, iceSession := ice })
  pure s.created

/-- `linphone_core_add_call` -/
def addCall (c : CallId) : CoreProg Bool := do
  let s ← getCore
  if s.calls.length < s.maxCalls then do
    perform (.addCall c)
    pure true
  else pure false

/-- `linphone_core_invite_address_with_params`, for a call or without one that refers to it. -/
def inviteAddressWithParams (referer : Option CallId) : CoreProg (Option CallId) := do
  preemptSoundResources
  let s ← getCore
  if s.calls.length < s.maxCalls then do
    let c ← newOutgoing referer
    let added ← addCall c
    if added then do
      -- this call becomes now the current one
      perform (.makeCurrent .invited c)
      setState c .outgoingInit
      edit c (·.mapMedia (·.initMediaStreams))
      let wait ← prepareIce c
      let ping ← flag .pingWithOptions c
      let noProxy ← flag .noDestProxy c
      Prog.when (noProxy && ping) (edit c fun d => { d with pingOp := true, pingReplied := false })
      Prog.when (!wait && !(noProxy && ping)) (startInvite c)
      pure (some c)
    else pure none
  else pure none

/-- `linphone_core_start_refered_call` -/
def startReferedCall (c : CallId) : CoreProg (Option CallId) := do
  let r ← readCall c
  Prog.when (r.vars.state ≠ .paused) do
    let _ ← pauseCallInternal c
    edit c fun d => { d with wasAutomaticallyPaused := true }
  edit c fun d => { d with referPending := false }
  Prog.when r.data.referTo.isNone .stuck
  let understood ← flag .urlUnderstood c
  if understood then do
    let newcall ← inviteAddressWithParams (some c)
    match newcall with
    | some n => do
        edit c fun d => { d with transferTarget := some n }
        pure (some n)
    | none => pure none
  else pure none

/-! ## Ending calls -/

/-- `linphone_core_abort_call` -/
def abortCall (c : CallId) : CoreProg Unit := do
  useOp c
  edit c (·.mapMedia (·.stopMediaStreams))
  setState c .error

/-- `terminate_call` -/
def terminateCallInternal (c : CallId) : CoreProg Unit := do
  let r ← readCall c
  Prog.when (r.vars.state = .incomingReceived) (edit c fun d =>
    { d with nonOpError := if d.nonOpError = .requestTimeout then d.nonOpError else .declined })
  edit c (·.mapMedia (·.stopMediaStreams))
  setState c .end

/-- `linphone_core_decline_call` -/
def declineCall (c : CallId) : CoreProg Int := do
  let r ← readCall c
  if r.vars.state = .incomingReceived ∨ r.vars.state = .incomingEarlyMedia then do
    useOp c
    respond c
    terminateCallInternal c
    pure 0
  else pure (-1)

/-- `linphone_core_terminate_call`, with a call. -/
def terminateCall (c : CallId) : CoreProg Int := do
  let r ← readCall c
  match r.vars.state with
  | .released | .end => pure (-1)
  | .incomingReceived | .incomingEarlyMedia => declineCall c
  | .outgoingInit => do
      -- in state OutgoingInit, op has to be destroyed
      useOp c
      perform (.releaseOp c)
      terminateCallInternal c
      pure 0
  | _ => do
      useOp c
      terminateCallInternal c
      pure 0

/-- `linphone_core_terminate_call` with `NULL`: the unique call. -/
def terminateUniqueCall : CoreProg Int := do
  let s ← getCore
  match s.calls with
  | [c] => terminateCall c
  | _ => pure (-1)

/-- `linphone_core_redirect_call` -/
def redirectCall (c : CallId) : CoreProg Int := do
  let r ← readCall c
  if r.vars.state = .incomingReceived then do
    useOp c
    respond c
    edit c fun d => { d with nonOpError := .redirect }
    terminateCallInternal c
    pure 0
  else pure (-1)

/-! ## Loops over the calls -/

/-- The node after the one of a call. -/
def Core.nextCall (s : Core) (c : CallId) : Option CallId := (s.calls.dropWhile (· ≠ c))[1]?

/-- A loop that steps to the next node before it visits a call; at most `n` visits. -/
def walk (visit : CallId → CoreProg Unit) : Nat → Option CallId → CoreProg Unit
  | n + 1, some c => do
      let s ← getCore
      if c ∈ s.calls then do
        visit c
        walk visit n (s.nextCall c)
      else .stuck -- the node was freed
  | _, _ => pure ()

/-- A loop that steps to the next node after the visit. -/
def walkAfter (visit : CallId → CoreProg Unit) : Nat → Option CallId → CoreProg Unit
  | n + 1, some c => do
      visit c
      let s ← getCore
      if c ∈ s.calls then walkAfter visit n (s.nextCall c)
      else .stuck
  | _, _ => pure ()

/-- `linphone_core_terminate_all_calls` -/
def terminateAllCalls (n : Nat) : CoreProg Unit := do
  let s ← getCore
  walk (fun c => do
    let _ ← terminateCall c
    pure ()) n s.calls.head?

/-- `linphone_core_pause_all_calls` -/
def pauseAllCalls (n : Nat) : CoreProg Unit := do
  let s ← getCore
  walkAfter (fun c => do
    let r ← readCall c
    Prog.when (r.vars.state = .streamsRunning || r.vars.state = .pausedByRemote) do
      let _ ← pauseCallInternal c
      pure ()) n s.calls.head?

/-! ## Hold -/

/-- `linphone_core_pause_call` -/
def pauseCall (c : CallId) : CoreProg Int := do
  let err ← pauseCallInternal c
  Prog.when (err = 0) (edit c fun d => { d with pausedByApp := true })
  pure err

/-- The part of `linphone_core_resume_call` after the sound resources are there. -/
def sendResume (c : CallId) : CoreProg Int := do
  edit c fun d => { d with wasAutomaticallyPaused := false }
  makeLocalMediaDescription c
  useOp c
  edit c (·.mapMedia fun m => { m with localdesc := setDir m.localdesc .sendRecv })
  let sent ← query (.sent c .resume)
  if sent then do
    setState c .resuming
    let r ← readCall c
    Prog.when (!r.data.media.inConference) (perform (.makeCurrent .resumed c))
    pure 0
  else pure (-1)

/-- `linphone_core_resume_call` -/
def resumeCall (c : CallId) : CoreProg Int := do
  let s ← getCore
  let r ← readCall c
  if r.vars.state ≠ .paused then pure (-1)
  else if r.data.media.inConference then sendResume c
  else if s.soundResourcesLocked then pure (-1)
  else do
    preemptSoundResources
    sendResume c

/-! ## Answers -/

/-- `linphone_core_accept_early_media_with_params` -/
def acceptEarlyMediaWithParams (c : CallId) (params : Option CallParams) : CoreProg Int := do
  let r ← readCall c
  if r.vars.state = .incomingReceived then do
    useOp c
    match params with
    | some p => do
        edit c (·.setNewParams p)
        makeLocalMediaDescription c
    | none => pure ()
    setState c .incomingEarlyMedia
    useOp c
    let md ← query (.finalDescription c)
    match md with
    | some md => updateStreams c md
    | none => pure ()
    pure 0
  else pure (-1)

/-- `linphone_core_start_accept_call_update` -/
def startAcceptCallUpdate (c : CallId) (nextState : CallState) : CoreProg Unit := do
  let r ← readCall c
  let losing ← flag .losingPairs c
  -- the answer is deferred until there are no losing pairs left
  Prog.when (!(r.data.iceSession && losing)) do
    makeLocalMediaDescription c
    useOp c
    respond c
    let md ← query (.finalDescription c)
    match md with
    | some md => Prog.when (!md.empty) (updateStreams c md)
    | none => pure ()
    setState c nextState

/-- `_linphone_core_accept_call_update` -/
def acceptCallUpdateInternal (c : CallId) (params : Option CallParams) (nextState : CallState) :
    CoreProg Unit := do
  useOp c
  let keep ← flag .keepSdpVersion c
  let rmd ← query (.remoteDescription c)
  let unchanged ← flag .sdpVersionUnchanged c
  if keep && rmd.isNone then .stuck -- the remote description is read
  else if keep && unchanged then do
    respond c
    setState c nextState
  else do
    match params with
    | some p => edit c (·.setNewParams p)
    | none => pure () -- whether video is accepted
    edit c (·.mapMedia (·.initMediaStreams))
    let wait ← prepareIce c
    Prog.when (!wait) (startAcceptCallUpdate c nextState)

/-- `linphone_core_accept_call_update` -/
def acceptCallUpdate (c : CallId) (params : Option CallParams) : CoreProg Int := do
  let r ← readCall c
  if r.vars.state = .updatedByRemote then do
    acceptCallUpdateInternal c params r.vars.prevstate
    pure 0
  else pure (-1)

/-- `linphone_core_defer_call_update` -/
def deferCallUpdate (c : CallId) : CoreProg Int := do
  let r ← readCall c
  if r.vars.state = .updatedByRemote then do
    edit c fun d => { d with deferUpdate := true }
    pure 0
  else pure (-1)

/-- The states in which an outgoing call is cancelled for one that is accepted. -/
def CallState.outgoingEarly : CallState → Bool
  | .outgoingInit | .outgoingProgress | .outgoingRinging | .outgoingEarlyMedia => true
  | _ => false

/-- The calls cancelled before `c` is accepted, over a copy of the list. -/
def cancelOutgoing (c : CallId) : List CallId → CoreProg Unit
  | [] => pure ()
  | a :: as => do
      let r ← readCall a
      Prog.when (a ≠ c && r.vars.state.outgoingEarly) do
        let _ ← terminateCall a
        pure ()
      cancelOutgoing c as

/-- `linphone_core_accept_call_with_params`, from the answer to the INVITE on. -/
def answerCall (c : CallId) (params : Option CallParams) : CoreProg Unit := do
  let ringing ← flag .ringing c
  edit c fun d => { d with ringingBeep := false }
  useOp c
  match params with
  | some p => do
      edit c (·.setNewParams p)
      let _ ← prepareIce c
      makeLocalMediaDescription c
  | none => pure ()
  let r ← readCall c
  if !ringing && r.data.media.audio.stream = .absent then .stuck
  else do
    respond c
    perform (.makeCurrent .accepted c)
    setState c .connected
    useOp c
    let md ← query (.finalDescription c)
    match md with
    | some md => do
        updateStreams c md
        setState c .streamsRunning
    | none => edit c (·.mapMedia fun m => { m with expectMediaInAck := true })

/-- `linphone_core_accept_call_with_params`, with a call. -/
def acceptCallWithParams (c : CallId) (params : Option CallParams) : CoreProg Int := do
  let s ← getCore
  let r ← readCall c
  if r.vars.state = .incomingReceived ∨ r.vars.state = .incomingEarlyMedia then do
    cancelOutgoing c s.calls
    useOp c
    -- check if this call is supposed to replace an already running one
    let replaced ← query (.replaces c)
    match replaced with
    | some rc => do
        let _ ← terminateCall rc
        pure ()
    | none => pure ()
    let s ← getCore
    Prog.when (s.currentCall ≠ some c) preemptSoundResources
    answerCall c params
    pure 0
  else pure (-1)

/-- `linphone_core_accept_call_with_params` with `NULL`: the only call. -/
def acceptOnlyCall (params : Option CallParams) : CoreProg Int := do
  let s ← getCore
  match s.calls with
  | [c] => acceptCallWithParams c params
  | _ => pure (-1)

/-! ## Conference -/

/-- `add_local_endpoint`, of a conference that has to be there. -/
def addLocalEndpoint : CoreProg Unit := do
  let s ← getCore
  if s.conference.present then
    perform (.editConference fun conf => { conf with localParticipant := true })
  else .stuck

/-- `linphone_core_add_to_conference` -/
def addToConference (c : CallId) : CoreProg Int := do
  let r ← readCall c
  if r.data.media.currentInConference then pure (-1)
  else do
    perform (.editConference fun conf =>
      if conf.present then conf else { conf with present := true, terminated := false })
    if r.vars.state = .paused then do
      edit c (·.mapMedia fun m => { m with inConference := true })
      let _ ← resumeCall c
      pure 0
    else if r.vars.state = .streamsRunning then do
      let params ← query (.currentParams c)
      Prog.when (r.data.media.audio.stream ≠ .absent || r.data.media.video.stream ≠ .absent)
        (edit c (·.mapMedia fun m => m.stopMediaStreams.initMediaStreams))
      let s ← getCore
      Prog.when (s.currentCall = some c) (perform .clearCurrent)
      -- this triggers a reINVITE that later redraws the streams
      let _ ← updateCall c (some { params with inConference := true })
      addLocalEndpoint
      pure 0
    else pure (-1)

/-- `linphone_core_remove_from_conference` -/
def removeFromConference (c : CallId) : CoreProg Int := do
  let err ← removeFromConferenceInternal c false
  if err = 0 then do
    let remote ← query .remoteParticipants
    if remote = 1 then convertConferenceToCall else pure err
  else pure err

/-- `linphone_core_enter_conference` -/
def enterConference : CoreProg Int := do
  let s ← getCore
  if s.soundResourcesLocked then pure (-1)
  else do
    match s.currentCall with
    | some cur => do
        let _ ← pauseCallInternal cur
        pure ()
    | none => pure ()
    let s ← getCore
    Prog.when (!s.conference.localParticipant) addLocalEndpoint
    pure 0

/-- `linphone_core_add_all_to_conference` -/
def addAllToConference (n : Nat) : CoreProg Unit := do
  let s ← getCore
  walk (fun c => do
    let r ← readCall c
    Prog.when (!r.data.media.currentInConference) do
      let _ ← addToConference c
      pure ()) n s.calls.head?
  let _ ← enterConference
  pure ()

/-- `linphone_core_terminate_conference` -/
def terminateConference (n : Nat) : CoreProg Unit := do
  let s ← getCore
  perform (.editConference fun conf => { conf with terminated := true })
  walk (fun c => do
    let r ← readCall c
    Prog.when r.data.media.currentInConference do
      let _ ← terminateCall c
      pure ()) n s.calls.head?

/-! ## The operations -/

/-- What an application can ask of the core; the bound of a loop stands for any number of visits. -/
inductive ApiCall
  | invite
  | startReferedCall (c : CallId)
  | accept (c : CallId) (params : Option CallParams)
  | acceptOnly (params : Option CallParams)
  | acceptEarlyMedia (c : CallId) (params : Option CallParams)
  | terminate (c : CallId)
  | terminateUnique
  | terminateAll (n : Nat)
  | decline (c : CallId)
  | redirect (c : CallId)
  | pause (c : CallId)
  | pauseAll (n : Nat)
  | resume (c : CallId)
  | update (c : CallId) (params : Option CallParams)
  | deferUpdate (c : CallId)
  | acceptUpdate (c : CallId) (params : Option CallParams)
  | addToConference (c : CallId)
  | addAllToConference (n : Nat)
  | removeFromConference (c : CallId)
  | enterConference
  | leaveConference
  | terminateConference (n : Nat)

/-- A program whose result is not looked at. -/
def ignoring {α : Type} (p : CoreProg α) : CoreProg Unit := do
  let _ ← p
  pure ()

def ApiCall.program : ApiCall → CoreProg Unit
  | .invite => ignoring (inviteAddressWithParams none)
  | .startReferedCall c => ignoring (Linphone.startReferedCall c)
  | .accept c params => ignoring (acceptCallWithParams c params)
  | .acceptOnly params => ignoring (acceptOnlyCall params)
  | .acceptEarlyMedia c params => ignoring (acceptEarlyMediaWithParams c params)
  | .terminate c => ignoring (terminateCall c)
  | .terminateUnique => ignoring terminateUniqueCall
  | .terminateAll n => terminateAllCalls n
  | .decline c => ignoring (declineCall c)
  | .redirect c => ignoring (redirectCall c)
  | .pause c => ignoring (pauseCall c)
  | .pauseAll n => pauseAllCalls n
  | .resume c => ignoring (resumeCall c)
  | .update c params => ignoring (updateCall c params)
  | .deferUpdate c => ignoring (deferCallUpdate c)
  | .acceptUpdate c params => ignoring (acceptCallUpdate c params)
  | .addToConference c => ignoring (Linphone.addToConference c)
  | .addAllToConference n => Linphone.addAllToConference n
  | .removeFromConference c => ignoring (Linphone.removeFromConference c)
  | .enterConference => ignoring Linphone.enterConference
  | .leaveConference => Linphone.leaveConference
  | .terminateConference n => Linphone.terminateConference n

end Linphone
