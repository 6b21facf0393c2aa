import Mathlib.Data.Multiset.AddSub
import Linphone.Lib.Holding
import Linphone.Call.Api
import Linphone.Call.StreamKeys

/-!
# The mixer of a conference

`coreapi/conference.c` and the places of `coreapi/linphonecall.c` where the audio stream of a call
is connected to the mixer and taken off it. The mixer is created when a call is added and destroyed
when it is found empty after a call has ended; its members are the endpoint of the local user, the
one of a recorder, and one for each call whose audio stream runs in the conference.

`MixCore` keeps what these functions read and write, next to the `Core` of `Linphone.Call.Core`,
where the mixer is no more than there or not. A `none` is a mixer or an endpoint that is followed
where there is none. The mixer itself is mediastreamer2's: `AudioConference` says what its calls do
to the members.

`enter` and `add_all` take the mixer for granted, a second running call puts the local user in a
second time, and the mixer can be destroyed while a call is on its way in.
`Linphone.Call.ConferenceMembers` is about runs that avoid the three: there the members of the
mixer are the endpoints the core knows, one for each, and nothing missing is followed.
-/

namespace Linphone

/-! ## Mixers -/

/-- Whose audio an endpoint carries. -/
inductive EndpointOwner
  | localUser | recorder | call (c : CallId)
deriving DecidableEq

/-- `MSAudioEndpoint`; each one made is another object. -/
structure Endpoint where
  owner : EndpointOwner
  serial : Nat
deriving DecidableEq

/-- `MSAudioConference`, as mediastreamer2 documents its functions. -/
class AudioConference (Mixer : Type) where
  /-- `ms_audio_conference_new` -/
  new : Mixer
  /-- `ms_audio_conference_add_member` -/
  addMember : Mixer → Endpoint → Mixer
  /-- `ms_audio_conference_remove_member` -/
  removeMember : Mixer → Endpoint → Mixer
  /-- `ms_audio_conference_get_size` -/
  getSize : Mixer → Nat
  /-- The endpoints that are mixed. -/
  members : Mixer → Multiset Endpoint
  members_new : members new = 0
  members_addMember : ∀ m e, members (addMember m e) = e ::ₘ members m
  members_removeMember : ∀ m e, e ∈ members m → members (removeMember m e) = (members m).erase e
  getSize_eq : ∀ m, getSize m = Multiset.card (members m)

/-- A mixer that is no more than the list of its members. -/
instance : AudioConference (List Endpoint) where
  new := []
  addMember m e := e :: m
  removeMember m e := m.erase e
  getSize m := m.length
  members m := m
  members_new := rfl
  members_addMember _ _ := rfl
  members_removeMember m e _ := (Multiset.coe_erase m e).symm
  getSize_eq _ := rfl

/-- What the conference reads and writes of a `LinphoneCall`. -/
structure MixCall where
  vars : StateVars := {}
  /-- `params->in_conference` -/
  inConference : Bool := false
  /-- `current_params->in_conference` -/
  currentInConference : Bool := false
  audio : MediaStreamState := .absent
  endpoint : Option Endpoint := none

/-- The core, with its `LinphoneConference`. -/
structure MixCore (Mixer : Type) where
  call : CallId → MixCall := fun _ => {}
  calls : List CallId := []
  currentCall : Option CallId := none
  conf : Option Mixer := none
  localEndpoint : Option Endpoint := none
  /-- `local_participant != NULL` -/
  localParticipant : Bool := false
  recordEndpoint : Option Endpoint := none
  terminated : Bool := false
  /-- Endpoints made so far. -/
  made : Nat := 0

/-- Conditions outside the conference during an operation. -/
structure MixAnswers where
  /-- The negotiated directions leave something to pause. -/
  pausable : CallId → Bool := fun _ => true
  /-- `sal_call_update` -/
  updateSent : CallId → Bool := fun _ => true
  /-- A video stream exists, or is started. -/
  hasVideo : CallId → Bool := fun _ => false
  videoRunning : Bool := false
  /-- The negotiation's result, the bandwidth or the ringback tone ask for other streams. -/
  changed : Bool := true
  /-- The result has an audio stream that can be started. -/
  accepted : Bool := true
  /-- `audio_stream_start_from_io` was reached and did start it. -/
  starts : Bool := true

namespace MixCore

variable {Mixer : Type}

def edit (s : MixCore Mixer) (c : CallId) (f : MixCall → MixCall) : MixCore Mixer :=
  { s with call := Function.update s.call c (f (s.call c)) }

@[simp] theorem edit_self {s : MixCore Mixer} {c : CallId} (f : MixCall → MixCall) :
    (s.edit c f).call c = f (s.call c) := Function.update_self ..

theorem edit_of_ne {s : MixCore Mixer} {c d : CallId} (f : MixCall → MixCall) (h : d ≠ c) :
    (s.edit c f).call d = s.call d := Function.update_of_ne h ..

variable [AudioConference Mixer] (a : MixAnswers) (c : CallId) (s : MixCore Mixer)

/-- The members of the mixer, if there is one. -/
def members : Multiset Endpoint := s.conf.elim 0 AudioConference.members

/-! ## The mixer -/

/-- `conference_check_init` -/
def checkInit : MixCore Mixer :=
  match s.conf with
  | none => { s with conf := some AudioConference.new, terminated := false }
  | some _ => s

/-- `remove_local_endpoint` -/
def removeLocalEndpoint : Option (MixCore Mixer) :=
  match s.localEndpoint with
  | none => some s
  | some ep => do
      let conf ← s.conf
      pure { s with
        conf := some (AudioConference.removeMember conf ep)
        localEndpoint := none, localParticipant := false }

/-- `linphone_conference_get_size` -/
def conferenceSize : Int :=
  match s.conf with
  | none => 0
  | some conf => AudioConference.getSize conf - (if s.recordEndpoint.isSome then 1 else 0)

/-- `remote_participants_count` -/
def remoteParticipantsCount : Int :=
  let count := s.conferenceSize
  if count = 0 then 0 else if !s.localParticipant then count else count - 1

/-- `linphone_call_add_to_conf` -/
def callAddToConf : Option (MixCore Mixer) := do
  let ep : Endpoint := ⟨.call c, s.made⟩
  let conf ← s.conf
  pure { s.edit c fun d => { d with endpoint := some ep } with
    conf := some (AudioConference.addMember conf ep), made := s.made + 1 }

/-- `linphone_call_remove_from_conf` -/
def callRemoveFromConf : Option (MixCore Mixer) := do
  let conf ← s.conf
  let ep ← (s.call c).endpoint
  pure { s.edit c fun d => { d with endpoint := none } with
    conf := some (AudioConference.removeMember conf ep) }

/-- `add_local_endpoint` -/
def addLocalEndpoint : Option (MixCore Mixer) := do
  let conf ← s.conf
  let ep : Endpoint := ⟨.localUser, s.made⟩
  pure { s with
    conf := some (AudioConference.addMember conf ep)
    localParticipant := true, localEndpoint := some ep, made := s.made + 1 }

/-! ## The streams of a call -/

/-- `linphone_call_stop_media_streams`, its audio part. -/
def stopMediaStreams : Option (MixCore Mixer) :=
  if (s.call c).audio = .absent then some s
  else do
    let s ← (if (s.call c).endpoint.isSome then s.callRemoveFromConf c else some s)
    pure (s.edit c fun d => { d with audio := .absent })

/-- `linphone_call_init_media_streams`, its audio part. -/
def initMediaStreams : MixCore Mixer :=
  s.edit c fun d => { d with audio := if d.audio = .absent then .initialized else d.audio }

/-- `linphone_call_start_audio_stream` -/
def startAudioStream : Option (MixCore Mixer) :=
  if a.accepted then do
    let s := if a.starts then s.edit c fun d => { d with audio := .started } else s
    let s ← (if (s.call c).inConference then s.callAddToConf c else some s)
    pure (s.edit c fun d => { d with currentInConference := d.inConference })
  else some s

/-- Streams of the call run. -/
def running : Bool := (s.call c).audio = .started || a.videoRunning

/-- The streams of the call run and go on as they are. -/
def kept : Bool :=
  s.running a c && !(a.changed || (s.call c).inConference != (s.call c).currentInConference)

/-- `linphone_core_update_streams` -/
def updateStreams : Option (MixCore Mixer) :=
  if s.kept a c then some s
  else do
    let s ← (if s.running a c then s.stopMediaStreams c else some s)
    (s.initMediaStreams c).startAudioStream a c

/-! ## Calls -/

/-- The assignments of `linphone_call_set_state`, for a state that is not final. -/
def enterState (state : CallState) : MixCore Mixer :=
  s.edit c fun d => { d with vars := (d.vars.setState state).1 }

/-- `linphone_core_sound_resources_locked` -/
def soundResourcesLocked : Bool := s.calls.any fun c => (s.call c).vars.state.locksSound

/-- `_linphone_core_pause_call` -/
def pauseCall : Option (Int × MixCore Mixer) :=
  if ((s.call c).vars.state = .streamsRunning || (s.call c).vars.state = .pausedByRemote) &&
      a.pausable c then do
    let s ← { s with currentCall := none }.stopMediaStreams c
    pure (0, s.enterState c .pausing)
  else some (-1, s)

/-- `linphone_core_update_call` with parameters. -/
def updateCall (inConference : Bool) : Int × MixCore Mixer :=
  match updatingState (s.call c).vars.state with
  | none => (-1, s)
  | some nextstate =>
      (if a.updateSent c then 0 else -1,
        (s.enterState c nextstate).edit c fun d => { d with inConference := inConference })

/-- `linphone_core_leave_conference` -/
def leaveConference : Option (MixCore Mixer) :=
  if s.localParticipant then s.removeLocalEndpoint else some s

/-- `linphone_core_preempt_sound_resources` -/
def preemptSoundResources : Option (MixCore Mixer) :=
  if s.localParticipant then s.leaveConference
  else
    match s.currentCall with
    | some cur => (s.pauseCall a cur).map (·.2)
    | none => some s

/-- The end of `linphone_core_resume_call`. -/
def sendResume : Int × MixCore Mixer :=
  if a.updateSent c then
    let s := s.enterState c .resuming
    (0, if (s.call c).inConference then s else { s with currentCall := some c })
  else (-1, s)

/-- `linphone_core_resume_call` -/
def resumeCall : Option (Int × MixCore Mixer) :=
  if (s.call c).vars.state ≠ .paused then some (-1, s)
  else if (s.call c).inConference then some (s.sendResume a c)
  else if s.soundResourcesLocked then some (-1, s)
  else do
    let s ← s.preemptSoundResources a
    pure (s.sendResume a c)

/-! ## The conference -/

/-- `linphone_core_add_to_conference` -/
def addToConference : Option (Int × MixCore Mixer) :=
  if (s.call c).currentInConference then some (-1, s)
  else
    let s := s.checkInit
    if (s.call c).vars.state = .paused then do
      let (_, s) ← (s.edit c fun d => { d with inConference := true }).resumeCall a c
      pure (0, s)
    else if (s.call c).vars.state = .streamsRunning then do
      let s ← (if (s.call c).audio ≠ .absent || a.hasVideo c then
          (s.stopMediaStreams c).map (·.initMediaStreams c)
        else some s)
      let s := if s.currentCall = some c then { s with currentCall := none } else s
      -- this triggers a reINVITE that later redraws the streams
      let (_, s) := s.updateCall a c true
      let s ← s.addLocalEndpoint
      pure (0, s)
    else some (-1, s)

/-- `remove_from_conference` -/
def removeFromConferenceInternal (active : Bool) : Option (Int × MixCore Mixer) :=
  if !(s.call c).currentInConference then some (-1, s)
  else
    let s := s.edit c fun d => { d with inConference := false }
    if active then do
      let s ← (if s.localParticipant then s.leaveConference else some s)
      pure (s.updateCall a c false)
    else s.pauseCall a c

/-- `convert_conference_to_call` -/
def convertConferenceToCall : Option (Int × MixCore Mixer) :=
  if s.remoteParticipantsCount ≠ 1 then some (-1, s)
  else
    match s.calls.find? fun c => (s.call c).inConference with
    | some rc => s.removeFromConferenceInternal a rc s.localParticipant
    | none => some (0, s)

/-- `linphone_core_remove_from_conference` -/
def removeFromConference : Option (Int × MixCore Mixer) := do
  let (err, s) ← s.removeFromConferenceInternal a c false
  if err ≠ 0 then pure (err, s)
  else if s.remoteParticipantsCount = 1 then s.convertConferenceToCall a
  else pure (err, s)

/-- The part of `linphone_core_conference_check_uninit` for the recorder. -/
def removeRecordEndpoint : Option (MixCore Mixer) :=
  match s.recordEndpoint with
  | none => some s
  | some ep => do
      let conf ← s.conf
      pure { s with
        conf := some (AudioConference.removeMember conf ep), recordEndpoint := none }

/-- `linphone_core_conference_check_uninit` -/
def conferenceCheckUninit : Option (MixCore Mixer) :=
  if s.conf.isNone then some s
  else do
    let remoteCount := s.remoteParticipantsCount
    let s ← (if remoteCount = 1 && !s.terminated then (s.convertConferenceToCall a).map (·.2)
      else some s)
    let s ← (if remoteCount = 0 then do
        let s ← (if s.localParticipant then s.removeLocalEndpoint else some s)
        s.removeRecordEndpoint
      else some s)
    let conf ← s.conf
    pure (if AudioConference.getSize conf = 0 then { s with conf := none } else s)

/-- `linphone_call_set_terminated` -/
def setTerminated : Option (MixCore Mixer) := do
  let s ← s.stopMediaStreams c
  let s := if s.currentCall = some c then { s with currentCall := none } else s
  { s with calls := s.calls.erase c }.conferenceCheckUninit a

/-- `linphone_call_set_state` with a final state. -/
def endCall (state : CallState) : Option (MixCore Mixer) :=
  match (s.call c).vars.setState state with
  | (vars, .notified) => (s.edit c fun d => { d with vars := vars }).setTerminated a c
  | (vars, _) => some (s.edit c fun d => { d with vars := vars })

/-- `linphone_core_terminate_call` -/
def terminateCall : Option (MixCore Mixer) :=
  if (s.call c).vars.state = .released || (s.call c).vars.state = .end then some s
  else do
    let s ← s.stopMediaStreams c
    s.endCall a c .end

/-- `linphone_core_enter_conference` -/
def enterConference : Option (Int × MixCore Mixer) :=
  if s.soundResourcesLocked then some (-1, s)
  else do
    let s ← (match s.currentCall with
      | some cur => (s.pauseCall a cur).map (·.2)
      | none => some s)
    let s ← (if !s.localParticipant then s.addLocalEndpoint else some s)
    pure (0, s)

/-- The loop of `linphone_core_add_all_to_conference`. -/
def addCalls (l : List CallId) : Option (MixCore Mixer) :=
  l.foldlM (fun s c =>
    if (s.call c).currentInConference then some s else (s.addToConference a c).map (·.2)) s

/-- `linphone_core_add_all_to_conference` -/
def addAllToConference : Option (MixCore Mixer) := do
  let s ← s.addCalls a s.calls
  (s.enterConference a).map (·.2)

/-- `linphone_core_terminate_conference` -/
def terminateConference : Option (MixCore Mixer) :=
  s.calls.foldlM (fun s c =>
    if (s.call c).currentInConference then s.terminateCall a c else some s)
    { s with terminated := true }

/-- `linphone_core_start_conference_recording` -/
def startConferenceRecording : Option (MixCore Mixer) :=
  match s.conf, s.recordEndpoint with
  | none, _ => some s
  | some _, some _ => some s
  | some conf, none =>
      let ep : Endpoint := ⟨.recorder, s.made⟩
      some { s with
        conf := some (AudioConference.addMember conf ep)
        recordEndpoint := some ep, made := s.made + 1 }

end MixCore

/-! ## The streams of `Linphone.Call.Streams`

`updateStreams` above keeps of the audio stream whether it is there and runs. What it leaves to the
answers is what `MediaCall.updateStreams` computes from the descriptions. -/

/-- The call as the model of its streams has it. -/
structure MixCall.Follows (d : MixCall) (m : MediaCall) : Prop where
  inConference : d.inConference = m.inConference
  currentInConference : d.currentInConference = m.currentInConference
  audio : d.audio = m.audio.stream

/-- What the descriptions of a call answer. -/
def mediaAnswers (lib : MediaLib) (env : UpdateEnv) (m : MediaCall) (new : SalMediaDescription) :
    MixAnswers where
  hasVideo _ := m.video.stream ≠ .absent
  videoRunning := m.video.running
  changed := ((m.rememberBiggest env new).kept lib env new).isNone
  accepted := (MediaCall.startable new .audio).isSome
  starts := env.audioStarts

namespace MediaCall

variable {lib : MediaLib} {env : UpdateEnv} {m m' : MediaCall} {new : SalMediaDescription}

theorem startAudioStream_conference (h : m.startAudioStream lib env new = some m') :
    m'.inConference = m.inConference ∧ m'.video = m.video ∧
      m'.currentInConference
        = (if (startable new .audio).isSome then m.inConference else m.currentInConference) ∧
      m'.audio.stream
        = (if (startable new .audio).isSome && env.audioStarts then .started
          else m.audio.stream) := by
  unfold startAudioStream at h
  cases hs : startable new .audio with
  | none =>
    simp only [hs, Option.some.injEq] at h
    subst h
    simp
  | some st =>
    simp only [hs, Option.map_eq_some_iff] at h
    obtain ⟨audio, hopen, rfl⟩ := h
    unfold openSlot at hopen
    rw [Option.map_eq_some_iff] at hopen
    obtain ⟨keys, -, rfl⟩ := hopen
    cases hstarts : env.audioStarts with
    | true => simp
    | false => simp

theorem startVideoStream_conference (h : m.startVideoStream lib env new = some m') :
    m'.inConference = m.inConference ∧ m'.currentInConference = m.currentInConference ∧
      m'.audio = m.audio := by
  unfold startVideoStream at h
  cases hs : startable new .video with
  | none =>
    simp only [hs, Option.some.injEq] at h
    subst h
    exact ⟨rfl, rfl, rfl⟩
  | some st =>
    simp only [hs] at h
    by_cases hinactive : videoInactive lib env new st
    · rw [if_pos hinactive, Option.some.injEq] at h
      subst h
      exact ⟨rfl, rfl, rfl⟩
    · rw [if_neg hinactive, Option.map_eq_some_iff] at h
      obtain ⟨video, -, rfl⟩ := h
      exact ⟨rfl, rfl, rfl⟩

theorem startMediaStreams_conference {muted ringback : Bool} (ha : m.audio.stream ≠ .absent)
    (h : m.startMediaStreams lib env new muted ringback = some m') :
    m'.inConference = m.inConference ∧
      m'.currentInConference
        = (if (startable new .audio).isSome then m.inConference else m.currentInConference) ∧
      m'.audio.stream
        = (if (startable new .audio).isSome && env.audioStarts then .started
          else m.audio.stream) := by
  unfold startMediaStreams at h
  rw [if_pos ha, Option.bind_eq_some_iff] at h
  obtain ⟨m₁, h₁, h⟩ := h
  obtain ⟨hin, hvideo, hcur, haudio⟩ := startAudioStream_conference h₁
  rw [Option.map_eq_some_iff] at h
  obtain ⟨m₂, h₂, rfl⟩ := h
  have hkeep : m₂.inConference = m₁.inConference ∧
      m₂.currentInConference = m₁.currentInConference ∧ m₂.audio = m₁.audio := by
    by_cases hv : m₁.video.stream ≠ .absent
    · rw [if_pos hv] at h₂
      exact startVideoStream_conference h₂
    · rw [if_neg hv, Option.some.injEq] at h₂
      subst h₂
      exact ⟨rfl, rfl, rfl⟩
  exact ⟨hkeep.1.trans hin, hkeep.2.1.trans hcur, hkeep.2.2 ▸ haudio⟩

theorem keepStreams_conference (old new : SalMediaDescription) (changed : MediaChanges) :
    (m.keepStreams old new changed).inConference = m.inConference ∧
      (m.keepStreams old new changed).currentInConference = m.currentInConference := by
  unfold keepStreams
  by_cases hnet : changed.network <;> by_cases hkeys : changed.cryptoKeys <;>
    simp [hnet, hkeys, updateStreamsDestinations, updateCryptoParameters]

variable (lib env m new) in
/-- Streams that are started over are there, and do not run yet. -/
theorem restartFrom_conference :
    (m.restartFrom lib env new).inConference = m.inConference ∧
      (m.restartFrom lib env new).currentInConference = m.currentInConference ∧
      (m.restartFrom lib env new).audio.stream
        = (if m.running || m.audio.stream = .absent then .initialized else m.audio.stream) := by
  have hrecreate : (m.recreateStreams lib env new).inConference = m.inConference ∧
      (m.recreateStreams lib env new).currentInConference = m.currentInConference ∧
      (m.recreateStreams lib env new).audio.stream = .initialized := by
    unfold recreateStreams
    by_cases hx : m.xxxcastMedia lib env new <;>
      simp [hx, initMediaStreams, sessionsUninit, stopMediaStreams, MediaSlot.init]
  unfold restartFrom
  by_cases hr : m.running
  · simp [hr, hrecreate]
  · by_cases ha : m.audio.stream = .absent
    · simp [hr, ha, initMediaStreams, MediaSlot.init]
    · simp [hr, ha]

/-- Streams that are kept are in the conference the parameters ask for. -/
theorem inConference_of_kept {old : SalMediaDescription} (h : m.kept lib env new = some old) :
    m.running = true ∧ m.inConference = m.currentInConference := by
  unfold kept at h
  have hp := (Option.filter_eq_some_iff.mp h).2
  simp only [Bool.and_eq_true, Bool.not_eq_true'] at hp
  refine ⟨hp.1.1, ?_⟩
  by_contra hne
  have hforced : (m.mediaParametersChanged lib env old new).restarts = true := by
    unfold mediaParametersChanged
    rw [if_pos hne]
    rfl
  rw [hp.1.2] at hforced
  exact Bool.false_ne_true hforced

end MediaCall

namespace MixCore

variable {Mixer : Type} [AudioConference Mixer] {a : MixAnswers} {c : CallId}
variable {s s' : MixCore Mixer}

theorem stopMediaStreams_call (h : s.stopMediaStreams c = some s') :
    (s'.call c).audio = .absent ∧ (s'.call c).inConference = (s.call c).inConference ∧
      (s'.call c).currentInConference = (s.call c).currentInConference := by
  unfold stopMediaStreams at h
  by_cases habsent : (s.call c).audio = .absent
  · rw [if_pos habsent, Option.some.injEq] at h
    subst h
    exact ⟨habsent, rfl, rfl⟩
  · rw [if_neg habsent, Option.bind_eq_bind, Option.bind_eq_some_iff] at h
    obtain ⟨s₁, h₁, h⟩ := h
    cases h
    have hcall : (s₁.call c).inConference = (s.call c).inConference ∧
        (s₁.call c).currentInConference = (s.call c).currentInConference := by
      by_cases he : (s.call c).endpoint.isSome
      · rw [if_pos he] at h₁
        simp only [callRemoveFromConf, Option.bind_eq_bind, Option.bind_eq_some_iff] at h₁
        obtain ⟨conf, -, ep, -, h₁⟩ := h₁
        cases h₁
        simp
      · rw [if_neg he, Option.some.injEq] at h₁
        subst h₁
        exact ⟨rfl, rfl⟩
    simpa using hcall

theorem startAudioStream_call (h : s.startAudioStream a c = some s') :
    (s'.call c).inConference = (s.call c).inConference ∧
      (s'.call c).currentInConference
        = (if a.accepted then (s.call c).inConference else (s.call c).currentInConference) ∧
      (s'.call c).audio = (if a.accepted && a.starts then .started else (s.call c).audio) := by
  unfold startAudioStream at h
  by_cases haccepted : a.accepted
  · rw [if_pos haccepted] at h
    simp only [Option.bind_eq_bind, Option.bind_eq_some_iff] at h
    obtain ⟨s₂, h₂, h⟩ := h
    cases h
    generalize hs₁ : (if a.starts then s.edit c fun d => { d with audio := .started } else s) = s₁
      at h₂
    have h₁ : (s₁.call c).inConference = (s.call c).inConference ∧
        (s₁.call c).audio = (if a.starts then .started else (s.call c).audio) := by
      subst hs₁
      by_cases hstarts : a.starts
      · simp [hstarts]
      · simp [hstarts]
    have hcall : (s₂.call c).inConference = (s₁.call c).inConference ∧
        (s₂.call c).audio = (s₁.call c).audio := by
      by_cases hc : (s₁.call c).inConference
      · rw [if_pos hc] at h₂
        simp only [callAddToConf, Option.bind_eq_bind, Option.bind_eq_some_iff] at h₂
        obtain ⟨conf, -, h₂⟩ := h₂
        cases h₂
        simp
      · rw [if_neg hc, Option.some.injEq] at h₂
        subst h₂
        exact ⟨rfl, rfl⟩
    simp [haccepted, hcall, h₁]
  · rw [if_neg haccepted, Option.some.injEq] at h
    subst h
    simp [haccepted]

/-- **The two models of an update agree.** A call that follows the model of its streams before an
update follows it after. -/
theorem updateStreams_follows {lib : MediaLib} {env : UpdateEnv} {m m' : MediaCall}
    {new : SalMediaDescription} (hm : (s.call c).Follows m)
    (hm' : m.updateStreams lib env (some new) = some m')
    (hs' : s.updateStreams (mediaAnswers lib env m new) c = some s') :
    (s'.call c).Follows m' := by
  have hrunning : s.running (mediaAnswers lib env m new) c = m.running := by
    simp [running, mediaAnswers, MediaCall.running, MediaSlot.running, hm.audio]
  unfold MediaCall.updateStreams at hm'
  unfold updateStreams at hs'
  cases hkept : (m.rememberBiggest env new).kept lib env new with
  | some old =>
    obtain ⟨hr, hin⟩ := MediaCall.inConference_of_kept hkept
    have hin' : (s.call c).inConference = (s.call c).currentInConference := by
      rw [hm.inConference, hm.currentInConference]
      exact hin
    have hstay : s.kept (mediaAnswers lib env m new) c := by
      have hchanged : (mediaAnswers lib env m new).changed = false := by
        simp [mediaAnswers, hkept]
      have hr' : m.running = true := hr
      unfold kept
      rw [hrunning, hr', hchanged, hin']
      simp
    rw [if_pos hstay, Option.some.injEq] at hs'
    simp only [hkept, Option.some.injEq] at hm'
    subst hs' hm'
    obtain ⟨hkeepIn, hkeepCur⟩ := (m.rememberBiggest env new).keepStreams_conference old new
      ((m.rememberBiggest env new).mediaParametersChanged lib env old new)
    have hkeepAudio := MediaCall.keepStreams_slot_stream (c := m.rememberBiggest env new) old new
      ((m.rememberBiggest env new).mediaParametersChanged lib env old new) .audio
    exact ⟨hm.inConference.trans hkeepIn.symm, hm.currentInConference.trans hkeepCur.symm,
      hm.audio.trans hkeepAudio.symm⟩
  | none =>
    have hstart : ¬ s.kept (mediaAnswers lib env m new) c := by
      simp [kept, mediaAnswers, hkept]
    rw [if_neg hstart] at hs'
    simp only [hkept, MediaCall.restartStreams] at hm'
    obtain ⟨hfromIn, hfromCur, hfromAudio⟩ :=
      MediaCall.restartFrom_conference lib env (m.rememberBiggest env new) new
    have hthere : ((m.rememberBiggest env new).restartFrom lib env new).audio.stream ≠ .absent := by
      rw [hfromAudio]
      by_cases hr : (m.rememberBiggest env new).running || (m.rememberBiggest env new).audio.stream
          = .absent
      · simp [hr]
      · rw [if_neg hr]
        intro habsent
        simp [habsent] at hr
    obtain ⟨hin, hcur, haudio⟩ := MediaCall.startMediaStreams_conference hthere hm'
    rw [Option.bind_eq_bind, Option.bind_eq_some_iff] at hs'
    obtain ⟨s₁, hs₁, hs'⟩ := hs'
    obtain ⟨hin', hcur', haudio'⟩ := startAudioStream_call hs'
    have hinit : ((s₁.initMediaStreams c).call c).inConference = m.inConference ∧
        ((s₁.initMediaStreams c).call c).currentInConference = m.currentInConference ∧
        ((s₁.initMediaStreams c).call c).audio
          = (if m.running || m.audio.stream = .absent then .initialized else m.audio.stream) := by
      rw [hrunning] at hs₁
      unfold initMediaStreams
      rw [edit_self]
      by_cases hr : m.running
      · rw [if_pos hr] at hs₁
        obtain ⟨hab, hin₁, hcur₁⟩ := stopMediaStreams_call hs₁
        simp [hab, hin₁, hcur₁, hr, hm.inConference, hm.currentInConference]
      · rw [if_neg hr, Option.some.injEq] at hs₁
        subst hs₁
        simp [hr, hm.inConference, hm.currentInConference, hm.audio]
    refine ⟨?_, ?_, ?_⟩
    · rw [hin', hin, hfromIn, hinit.1]
      rfl
    · rw [hcur', hcur, hfromIn, hfromCur, hinit.1, hinit.2.1]
      rfl
    · rw [haudio', haudio, hfromAudio, hinit.2.2]
      rfl

end MixCore

end Linphone
