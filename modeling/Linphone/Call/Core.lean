import Linphone.Lib.Reentrant
import Linphone.Call.Presence
import Linphone.Call.Streams

/-!
# Calls of a core

The part of `LinphoneCore` and `LinphoneCall` that decides which calls there are: `lc->calls`,
`lc->current_call`, the states of the calls, their SAL operations and what the functions on them
branch on. A core changes in the atomic actions of `Action`; the functions are programs over them,
with a notification to the application wherever `linphone_call_set_state` sends one. A call is the
number under which it was created, and is never forgotten.

Answers of the SAL, of the configuration, of ICE and of mediastreamer2 are queries. Tones, display
messages, logs of statistics and reference counts other than the one of the core are left out. A
`NULL` operation that is used and a list node that was freed are `stuck`. The build is one without
uPnP.

This module goes up to `linphone_call_set_state` (`coreapi/linphonecall.c`), with the functions of
`linphonecore.c` and `conference.c` that it reaches: ending a call can turn a conference back into
a plain call, which updates or pauses another call.
-/

namespace Linphone

open Reentrant

/-! ## Data -/

inductive SalReason
  | none | declined | busy | redirect | temporarilyUnavailable | requestTimeout | notFound
  | doNotDisturb | unsupportedContent | forbidden | unknown | serviceUnavailable | requestPending
  | unauthorized | notAcceptable | noMatch | movedPermanently | gone | addressIncomplete
  | notImplemented | badGateway | serverTimeout | ioError
deriving DecidableEq, Inhabited

inductive LinphoneCallStatus
  | success | aborted | missed | declined
deriving DecidableEq, Inhabited

/-- `LinphoneMediaEncryption` -/
inductive LinphoneMediaEncryption
  | none | srtp | zrtp | dtls
deriving DecidableEq, Inhabited

abbrev CallId : Type := Nat

/-- The fields of `LinphoneCallParams` the functions branch on. -/
structure CallParams where
  mediaEncryption : LinphoneMediaEncryption := .none
  avpfEnabled : Bool := false
  inConference : Bool := false
  realEarlyMedia : Bool := false
  noUserConsent : Bool := false
deriving DecidableEq, Inhabited

/-- An INVITE that was sent: the parameters of the call, and the description that is offered. -/
structure SentInvite where
  mediaEncryption : LinphoneMediaEncryption
  avpfEnabled : Bool
  offer : SalMediaDescription

/-- A call, but for its state and its operation. Next to the fields of the source: the INVITEs that
were sent, the latest first. -/
structure CallData where
  media : MediaCall := { localdesc := .new }
  hasLocaldesc : Bool := false
  mediaEncryption : LinphoneMediaEncryption := .none
  avpfEnabled : Bool := false
  noUserConsent : Bool := false
  iceSession : Bool := false
  pingOp : Bool := false
  pingReplied : Bool := false
  deferUpdate : Bool := false
  pausedByApp : Bool := false
  wasAutomaticallyPaused : Bool := false
  ringingBeep : Bool := false
  referTo : Option String := .none
  referPending : Bool := false
  referer : Option CallId := .none
  transferTarget : Option CallId := .none
  nonOpError : SalReason := .none
  logStatus : LinphoneCallStatus := .aborted
  invites : List SentInvite := []

namespace CallData

variable (d : CallData)

def mapMedia (f : MediaCall → MediaCall) : CallData := { d with media := f d.media }

/-- `linphone_call_make_local_media_description`; the first description has nothing to differ
from. -/
def makeLocal (lib : MediaLib) (md : SalMediaDescription) : CallData :=
  if d.hasLocaldesc then d.mapMedia (·.makeLocalMediaDescription lib md)
  else { d with hasLocaldesc := true, media := { d.media with localdesc := md } }

/-- `linphone_call_set_new_params` -/
def setNewParams (p : CallParams) : CallData :=
  { d with
    mediaEncryption := p.mediaEncryption, avpfEnabled := p.avpfEnabled
    noUserConsent := p.noUserConsent
    media := { d.media with inConference := p.inConference, realEarlyMedia := p.realEarlyMedia } }

/-- `linphone_call_free_media_resources` -/
def freeMediaResources : CallData :=
  { d with media := d.media.freeMediaResources, iceSession := false }

/-- An INVITE with the local description was sent. -/
def recordInvite : CallData :=
  { d with invites := ⟨d.mediaEncryption, d.avpfEnabled, d.media.localdesc⟩ :: d.invites }

/-- The status a call that ends is logged with. -/
def logEnd : CallData :=
  match d.nonOpError with
  | .declined => { d with logStatus := .declined }
  | .requestTimeout => { d with logStatus := .missed }
  | _ => d

end CallData

/-- `sal_media_description_set_dir` -/
def setDir (md : SalMediaDescription) (dir : SalStreamDir) : SalMediaDescription :=
  md.mapStreams fun _ s => if s.active then { s with dir := dir } else s

/-- `sal_media_description_empty` -/
def SalMediaDescription.empty (md : SalMediaDescription) : Bool :=
  !(List.range md.nbStreams).any fun i => (md.stream i).active

/-- A `LinphoneCall`. Next to the fields of the source: whether it was ever added to the list, the
states it entered, the latest first, how often it was completed in the call log, how often the
reference of the core was dropped, and the final responses sent on its operation. -/
structure CallRec where
  vars : StateVars := {}
  /-- `call->op != NULL` -/
  op : Bool := false
  data : CallData := {}
  added : Bool := false
  history : List CallState := [.idle]
  completed : Nat := 0
  drops : Nat := 0
  responses : Nat := 0

/-- `LinphoneConference` -/
structure Conference where
  /-- `conf != NULL` -/
  present : Bool := false
  terminated : Bool := false
  /-- `local_participant != NULL` -/
  localParticipant : Bool := false

structure Core where
  call : CallId → CallRec := fun _ => {}
  created : Nat := 0
  calls : List CallId := []
  currentCall : Option CallId := none
  maxCalls : Nat := 10
  conference : Conference := {}
  missedCalls : Nat := 0
  /-- Referers whose automatic resume is queued. -/
  tasks : List CallId := []
  /-- INVITEs that were refused before there was a call. -/
  refused : Nat := 0

/-! ## Actions -/

/-- Where a call is made the current one. -/
inductive CurrentSite
  | invited | incoming | accepted | resumed | connected
deriving DecidableEq

inductive Action
  /-- A new call object with an operation. -/
  | create (data : CallData)
  | addCall (c : CallId)
  | delCall (c : CallId)
  | makeCurrent (site : CurrentSite) (c : CallId)
  | clearCurrent
  /-- The assignments of `linphone_call_set_state`. -/
  | assign (c : CallId) (cstate : CallState)
  /-- `linphone_call_log_completed` -/
  | logCompleted (c : CallId)
  | createOp (c : CallId)
  | releaseOp (c : CallId)
  /-- `linphone_call_unref` on the reference of the core. -/
  | dropReference (c : CallId)
  /-- `sal_call_accept` or `sal_call_decline` on the operation of a call. -/
  | respond (c : CallId)
  /-- `sal_call_decline` on an operation without a call. -/
  | refuse
  | edit (c : CallId) (f : CallData → CallData)
  | editConference (f : Conference → Conference)
  | queueTask (c : CallId)
  | dequeueTask (c : CallId)

namespace CallRec

/-- The assignments of `linphone_call_set_state`, with the state entered. -/
def assign (r : CallRec) (cstate : CallState) : CallRec :=
  let vars := (r.vars.setState cstate).1
  { r with
    vars := vars
    history := if vars.state = r.vars.state then r.history else vars.state :: r.history }

end CallRec

namespace Core

variable (s : Core)

def modify (c : CallId) (f : CallRec → CallRec) : Core :=
  { s with call := Function.update s.call c (f (s.call c)) }

def state (c : CallId) : CallState := (s.call c).vars.state

@[simp] theorem modify_call_self (c : CallId) (f : CallRec → CallRec) :
    (s.modify c f).call c = f (s.call c) := by
  simp [modify]

@[simp] theorem modify_call_ne {c c' : CallId} (f : CallRec → CallRec) (h : c' ≠ c) :
    (s.modify c f).call c' = s.call c' := by
  simp [modify, h]

@[simp] theorem modify_calls (c : CallId) (f : CallRec → CallRec) :
    (s.modify c f).calls = s.calls := rfl

@[simp] theorem modify_currentCall (c : CallId) (f : CallRec → CallRec) :
    (s.modify c f).currentCall = s.currentCall := rfl

@[simp] theorem modify_created (c : CallId) (f : CallRec → CallRec) :
    (s.modify c f).created = s.created := rfl

end Core

def Action.apply : Action → Core → Core
  | .create data, s =>
      { s with
        call := Function.update s.call s.created { op := true, data := data }
        created := s.created + 1 }
  | .addCall c, s =>
      { s.modify c (fun r => { r with added := true }) with calls := s.calls ++ [c] }
  | .delCall c, s => { s with calls := s.calls.erase c }
  | .makeCurrent _ c, s => { s with currentCall := some c }
  | .clearCurrent, s => { s with currentCall := none }
  | .assign c cstate, s => s.modify c (·.assign cstate)
  | .logCompleted c, s =>
      { s.modify c (fun r => { r with completed := r.completed + 1 }) with
        missedCalls :=
          if (s.call c).data.logStatus = .missed then s.missedCalls + 1 else s.missedCalls }
  | .createOp c, s => s.modify c fun r => { r with op := true }
  | .releaseOp c, s => s.modify c fun r => { r with op := false }
  | .dropReference c, s => s.modify c fun r => { r with drops := r.drops + 1 }
  | .respond c, s => s.modify c fun r => { r with responses := r.responses + 1 }
  | .refuse, s => { s with refused := s.refused + 1 }
  | .edit c f, s => s.modify c fun r => { r with data := f r.data }
  | .editConference f, s => { s with conference := f s.conference }
  | .queueTask c, s => { s with tasks := s.tasks ++ [c] }
  | .dequeueTask c, s => { s with tasks := s.tasks.erase c }

/-! ## Queries -/

/-- The requests whose sending can fail. -/
inductive Request
  | invite | pause | resume | update
deriving DecidableEq

/-- Configuration and conditions outside the core. -/
inductive Flag
  | sameRemoteAddress | incompatibleSecurity | encryptionMandatory | useIce | candidatesGathered
  | losingPairs | pingWithOptions | noDestProxy | incomingCallsEarlyMedia
  | autoAnswerReplacingCalls | deferUpdateDefault | keepSdpVersion | sdpVersionUnchanged | ringing
  | urlUnderstood | conferenceEmpty | opIdle
deriving DecidableEq

/-- `linphone_call_prepare_ice`: `1`, `0` with the session, and `0` or `-1` without it. -/
inductive IceAnswer
  | gathering | ready | deleted
deriving DecidableEq

inductive Query
  | mediaLib
  /-- `lc->presence_model` -/
  | presenceModel
  | flag (f : Flag) (c : CallId)
  /-- Parameters of a new call, from the caller and the configuration. -/
  | newParams
  /-- A copy of `call->current_params`. -/
  | currentParams (c : CallId)
  /-- The description `linphone_call_make_local_media_description` builds. -/
  | localDescription (c : CallId)
  /-- `sal_call_get_final_media_description` -/
  | finalDescription (c : CallId)
  /-- `sal_call_get_remote_media_description` -/
  | remoteDescription (c : CallId)
  | updateEnv (c : CallId)
  | sent (c : CallId) (request : Request)
  | prepareIce (c : CallId)
  /-- The call behind `sal_call_get_replaces`, if there is one. -/
  | replaces (c : CallId)
  /-- `sal_op_get_error_info(op)->reason` -/
  | opReason (c : CallId)
  /-- `remote_participants_count` -/
  | remoteParticipants

abbrev Query.Answer : Query → Type
  | .mediaLib => MediaLib
  | .presenceModel => Option PresenceModel
  | .flag _ _ => Bool
  | .newParams => CallParams
  | .currentParams _ => CallParams
  | .localDescription _ => SalMediaDescription
  | .finalDescription _ => Option SalMediaDescription
  | .remoteDescription _ => Option SalMediaDescription
  | .updateEnv _ => UpdateEnv
  | .sent _ _ => Bool
  | .prepareIce _ => IceAnswer
  | .replaces _ => Option CallId
  | .opReason _ => SalReason
  | .remoteParticipants => Nat

/-- `linphone_core_notify_call_state_changed` -/
structure CallStateChanged where
  call : CallId
  cstate : CallState

abbrev coreSig : Sig where
  State := Core
  Action := Action
  apply := Action.apply
  Query := Query
  Answer := Query.Answer
  Note := CallStateChanged

abbrev CoreProg (α : Type) : Type := Prog coreSig α

/-! ## Small programs -/

def getCore : CoreProg Core := Prog.current

def readCall (c : CallId) : CoreProg CallRec := do
  let s ← getCore
  pure (s.call c)

def perform (x : Action) : CoreProg Unit := Prog.perform x

def edit (c : CallId) (f : CallData → CallData) : CoreProg Unit := perform (.edit c f)

def query (q : Query) : CoreProg q.Answer := Prog.query (S := coreSig) q

def flag (f : Flag) (c : CallId) : CoreProg Bool := query (.flag f c)

def respond (c : CallId) : CoreProg Unit := perform (.respond c)

/-- `call->op` is dereferenced. -/
def useOp (c : CallId) : CoreProg Unit := do
  let r ← readCall c
  if r.op then pure () else .stuck

def makeLocalMediaDescription (c : CallId) : CoreProg Unit := do
  let lib ← query .mediaLib
  let md ← query (.localDescription c)
  edit c (·.makeLocal lib md)

/-- `linphone_core_update_streams` -/
def updateStreams (c : CallId) (md : SalMediaDescription) : CoreProg Unit := do
  let lib ← query .mediaLib
  let env ← query (.updateEnv c)
  let r ← readCall c
  match r.data.media.updateStreams lib { env with state := r.vars.state } (some md) with
  | some media => edit c fun d => { d with media := media }
  | none => .stuck

/-- `linphone_call_prepare_ice`; the answer is whether to wait for the gathering. -/
def prepareIce (c : CallId) : CoreProg Bool := do
  let r ← readCall c
  if r.data.iceSession then do
    let answer ← query (.prepareIce c)
    match answer with
    | .gathering => pure true
    | .ready => pure false
    | .deleted => do
        edit c fun d => { d with iceSession := false }
        pure false
  else pure false

/-! ## States that do not end a call -/

/-- `linphone_call_set_released` -/
def setReleased (c : CallId) : CoreProg Unit := do
  let r ← readCall c
  Prog.when r.op do
    let reason ← query (.opReason c)
    edit c fun d => { d with nonOpError := if d.nonOpError = .none then reason else d.nonOpError }
    perform (.releaseOp c)
  edit c fun d => { d with referer := none, transferTarget := none }
  perform (.dropReference c)

/-- `linphone_call_set_state`, with what it does to a call that ends. -/
def setStateWith (terminated : CoreProg Unit) (c : CallId) (cstate : CallState) :
    CoreProg Unit := do
  let r ← readCall c
  match (r.vars.setState cstate).2 with
  | .same => pure ()
  | .spurious => perform (.assign c cstate)
  | .notified => do
      perform (.assign c cstate)
      Prog.when cstate.ended terminated
      Prog.when (cstate = .connected) (edit c fun d => { d with logStatus := .success })
      Prog.tell (S := coreSig) ⟨c, cstate⟩
      -- shall be performed after the notification of the application
      Prog.when (cstate = .released) (setReleased c)

/-- `linphone_call_set_state` to a state that is neither `End` nor `Error`. -/
def enterState (c : CallId) (cstate : CallState) : CoreProg Unit := setStateWith .stuck c cstate

/-- `_linphone_core_pause_call` -/
def pauseCallInternal (c : CallId) : CoreProg Int := do
  let r ← readCall c
  if r.vars.state ≠ .streamsRunning ∧ r.vars.state ≠ .pausedByRemote then pure (-1)
  else match r.data.media.resultdesc with
    | none => .stuck
    | some md =>
        if md.hasDir .sendRecv || md.hasDir .recvOnly then do
          makeLocalMediaDescription c
          useOp c
          let _ ← query (.sent c .pause) -- a failure is a warning
          perform .clearCurrent
          edit c (·.mapMedia (·.stopMediaStreams))
          enterState c .pausing
          edit c fun d => { d with pausedByApp := false }
          pure 0
        else pure (-1)

/-- `linphone_core_start_update_call` -/
def startUpdateCall (c : CallId) : CoreProg Int := do
  let r ← readCall c
  Prog.when (!r.data.noUserConsent) (makeLocalMediaDescription c)
  useOp c
  let sent ← query (.sent c .update)
  pure (if sent then 0 else -1)

/-- The state an update is waited for in. -/
def updatingState : CallState → Option CallState
  | .incomingReceived | .incomingEarlyMedia | .outgoingRinging | .outgoingEarlyMedia =>
      some .earlyUpdating
  | .streamsRunning => some .updating
  | _ => none

/-- `linphone_core_update_call`. Without parameters it touches no more than the video stream. -/
def updateCall (c : CallId) (params : Option CallParams) : CoreProg Int := do
  let r ← readCall c
  match updatingState r.vars.state, params with
  | none, _ => pure (-1)
  | some _, none => pure 0
  | some nextstate, some p => do
      enterState c nextstate
      edit c (·.setNewParams p)
      let wait ← prepareIce c
      if wait then pure 0 else startUpdateCall c

/-! ## Conference -/

/-- `linphone_core_leave_conference` -/
def leaveConference : CoreProg Unit :=
  perform (.editConference fun conf => { conf with localParticipant := false })

/-- `remove_from_conference` -/
def removeFromConferenceInternal (c : CallId) (active : Bool) : CoreProg Int := do
  let r ← readCall c
  if r.data.media.currentInConference then do
    edit c (·.mapMedia fun m => { m with inConference := false })
    if active then do
      let params ← query (.currentParams c)
      leaveConference
      updateCall c (some { params with inConference := false })
    else pauseCallInternal c
  else pure (-1)

/-- `convert_conference_to_call` -/
def convertConferenceToCall : CoreProg Int := do
  let remote ← query .remoteParticipants
  if remote = 1 then do
    let s ← getCore
    match s.calls.find? fun c => (s.call c).data.media.inConference with
    | some rc => removeFromConferenceInternal rc s.conference.localParticipant
    | none => pure 0
  else pure (-1)

/-- `linphone_core_conference_check_uninit` -/
def conferenceCheckUninit : CoreProg Unit := do
  let s ← getCore
  Prog.when s.conference.present do
    let remote ← query .remoteParticipants
    Prog.when (remote = 1 && !s.conference.terminated) do
      let _ ← convertConferenceToCall
      pure ()
    Prog.when (remote = 0) leaveConference
    let empty ← flag .conferenceEmpty 0
    Prog.when empty (perform (.editConference fun conf => { conf with present := false }))

/-! ## Ending a call -/

/-- `linphone_call_set_terminated` -/
def setTerminated (c : CallId) : CoreProg Unit := do
  edit c (·.freeMediaResources)
  perform (.logCompleted c)
  let s ← getCore
  Prog.when (s.currentCall = some c) (perform .clearCurrent)
  perform (.delCall c)
  conferenceCheckUninit
  edit c fun d => { d with ringingBeep := false }

/-- `linphone_call_set_state` -/
def setState (c : CallId) (cstate : CallState) : CoreProg Unit :=
  setStateWith
    (do
      edit c (·.logEnd)
      setTerminated c)
    c cstate

/-! ## What the functions leave alone -/

/-- Neither a response, nor a new call, nor an INVITE that is sent. -/
def Action.inert : Action → Prop
  | .respond _ | .create _ => False
  | .edit _ f => ∀ d, (f d).invites = d.invites
  | _ => True

@[simp] theorem CallData.makeLocal_invites (d : CallData) (lib : MediaLib)
    (md : SalMediaDescription) : (d.makeLocal lib md).invites = d.invites := by
  unfold makeLocal
  split <;> rfl

@[simp] theorem CallData.logEnd_invites (d : CallData) : d.logEnd.invites = d.invites := by
  unfold logEnd
  split <;> rfl

section inert

variable {c : CallId}

theorem inert_perform {x : Action} (hx : x.inert) : (perform x).Acts Action.inert := ⟨hx, trivial⟩

theorem inert_edit {f : CallData → CallData} (hf : ∀ d, (f d).invites = d.invites) :
    (edit c f).Acts Action.inert := ⟨hf, trivial⟩

theorem inert_useOp : (useOp c).Acts Action.inert :=
  Prog.Acts.bind (fun _ => trivial) fun _ => Prog.Acts.ite trivial trivial

theorem inert_updateStreams (md : SalMediaDescription) :
    (updateStreams c md).Acts Action.inert := by
  intro lib env s
  refine Prog.Acts.bind trivial fun r => ?_
  cases r.data.media.updateStreams lib { env with state := r.vars.state } (some md) with
  | none => trivial
  | some media => exact inert_edit fun _ => rfl

theorem inert_makeLocalMediaDescription : (makeLocalMediaDescription c).Acts Action.inert :=
  fun _ _ => inert_edit fun d => d.makeLocal_invites _ _

theorem inert_prepareIce : (prepareIce c).Acts Action.inert := by
  refine Prog.Acts.bind (fun _ => trivial) fun r => Prog.Acts.ite ?_ trivial
  intro answer
  cases answer with
  | gathering | ready => trivial
  | deleted => exact ⟨fun _ => rfl, trivial⟩

theorem inert_setReleased : (setReleased c).Acts Action.inert := by
  refine Prog.Acts.bind (fun _ => trivial) fun r => ?_
  refine Prog.Acts.bind (Prog.Acts.when fun reason => ?_) fun _ => ?_
  · exact ⟨fun _ => rfl, trivial, trivial⟩
  · exact ⟨fun _ => rfl, trivial, trivial⟩

theorem inert_setStateWith {terminated : CoreProg Unit} (ht : terminated.Acts Action.inert)
    (x : CallState) : (setStateWith terminated c x).Acts Action.inert := by
  refine Prog.Acts.bind (fun _ => trivial) fun r => ?_
  cases (r.vars.setState x).2 with
  | same => trivial
  | spurious => exact ⟨trivial, trivial⟩
  | notified =>
      refine ⟨trivial, (Prog.Acts.when ht).bind fun _ => ?_⟩
      refine Prog.Acts.bind (Prog.Acts.when ⟨fun _ => rfl, trivial⟩) fun _ => ?_
      exact Prog.Acts.when inert_setReleased

theorem inert_enterState (x : CallState) : (enterState c x).Acts Action.inert := by
  have hstuck : (Prog.stuck : CoreProg Unit).Acts Action.inert := trivial
  exact inert_setStateWith hstuck x

theorem inert_pauseCallInternal : (pauseCallInternal c).Acts Action.inert := by
  refine Prog.Acts.bind (fun _ => trivial) fun r => Prog.Acts.ite trivial ?_
  cases r.data.media.resultdesc with
  | none => trivial
  | some md =>
      refine Prog.Acts.ite ?_ trivial
      refine inert_makeLocalMediaDescription.bind fun _ => inert_useOp.bind fun _ => ?_
      refine fun _ => ⟨trivial, fun _ => rfl, ?_⟩
      exact (inert_enterState .pausing).bind fun _ => ⟨fun _ => rfl, trivial⟩

theorem inert_startUpdateCall : (startUpdateCall c).Acts Action.inert := by
  refine Prog.Acts.bind (fun _ => trivial) fun r => ?_
  refine (Prog.Acts.when inert_makeLocalMediaDescription).bind fun _ => ?_
  exact inert_useOp.bind fun _ => fun _ => trivial

theorem inert_updateCall (params : Option CallParams) :
    (updateCall c params).Acts Action.inert := by
  refine Prog.Acts.bind (fun _ => trivial) fun r => ?_
  cases updatingState r.vars.state with
  | none => trivial
  | some nextstate =>
      cases params with
      | none => trivial
      | some p =>
          refine (inert_enterState nextstate).bind fun _ => ⟨fun _ => rfl, ?_⟩
          exact inert_prepareIce.bind fun _ => Prog.Acts.ite trivial inert_startUpdateCall

theorem inert_conferenceCheckUninit : conferenceCheckUninit.Acts Action.inert := by
  have hremove : ∀ c active, (removeFromConferenceInternal c active).Acts Action.inert := by
    intro c active
    refine Prog.Acts.bind (fun _ => trivial) fun r => Prog.Acts.ite ?_ trivial
    refine ⟨fun _ => rfl, ?_⟩
    exact Prog.Acts.ite (fun params => ⟨trivial, inert_updateCall _⟩) inert_pauseCallInternal
  have hconvert : convertConferenceToCall.Acts Action.inert := by
    refine fun remote => Prog.Acts.ite (Prog.Acts.bind (fun _ => trivial) fun s => ?_) trivial
    cases s.calls.find? fun c => (s.call c).data.media.inConference with
    | none => trivial
    | some rc => exact hremove rc _
  refine Prog.Acts.bind (fun _ => trivial) fun s => Prog.Acts.when fun remote => ?_
  have hpure : (pure () : CoreProg Unit).Acts Action.inert := trivial
  refine (Prog.Acts.when (Prog.Acts.bind hconvert fun _ => hpure)).bind fun _ => ?_
  refine (Prog.Acts.when (inert_perform (x := .editConference _) trivial)).bind fun _ =>
    fun empty => ?_
  exact Prog.Acts.when ⟨trivial, trivial⟩

/-- **`linphone_call_set_state`** sends nothing, whatever it ends. -/
theorem inert_setState (x : CallState) : (setState c x).Acts Action.inert := by
  have hterminated : (do
      edit c (·.logEnd)
      setTerminated c : CoreProg Unit).Acts Action.inert := by
    refine ⟨CallData.logEnd_invites, fun _ => rfl, trivial, fun s => ?_⟩
    have hclear : (perform .clearCurrent).Acts Action.inert := inert_perform trivial
    refine (Prog.Acts.when hclear).bind fun _ => ⟨trivial, ?_⟩
    exact inert_conferenceCheckUninit.bind fun _ => inert_edit fun _ => rfl
  exact inert_setStateWith hterminated x

end inert

end Linphone
