import Linphone.Call.Lifecycle

/-!
# Failed re-INVITEs

What is left of a call when the re-INVITE of `linphone_core_pause_call`,
`linphone_core_resume_call` or `linphone_core_update_call` cannot be sent, or is refused by the peer
and reported through `call_failure`. The three functions change the state, `lc->current_call` and
the streams before they know, and only the state is restored, in `call_failure`.

`leftAsBefore_iff` says for every operation and outcome exactly when the call is as it was. The runs
are those of a quiet application, with any answers of the environment.
-/

namespace Linphone

open Reentrant

/-! ## Operations and outcomes -/

/-- Runs with a quiet application, in which every action is admitted. -/
abbrev quietly {α : Type} (answers : (q : Query) → q.Answer) (p : CoreProg α) (s : Core) :
    Option (α × Core) :=
  p.play (fun _ _ => true) answers s

/-- The operations that send a re-INVITE. -/
inductive HoldOp
  | pause | resume
  | update (params : CallParams)

/-- How the request fails. -/
inductive RequestFailure
  | notSent
  | refused (reason : SalReason) (contact : Bool)

/-- The states `_linphone_core_pause_call` starts from, and the streams it asks for. -/
def CallRec.pausable (r : CallRec) : Bool :=
  (r.vars.state = .streamsRunning || r.vars.state = .pausedByRemote) &&
    r.data.media.resultdesc.any fun md => md.hasDir .sendRecv || md.hasDir .recvOnly

namespace HoldOp

variable (op : HoldOp) (failure : RequestFailure) (answers : (q : Query) → q.Answer)
  (s : Core) (c : CallId)

def program : HoldOp → CallId → CoreProg Int
  | .pause, c => pauseCall c
  | .resume, c => resumeCall c
  | .update params, c => updateCall c (some params)

/-- The operation gets as far as sending its request, from the state of the call it is for. -/
def Attempted : HoldOp → Prop
  | .pause => (s.call c).pausable = true
  | .resume => s.state c = .paused ∧
      ((s.call c).data.media.inConference = true ∨ s.soundResourcesLocked = false)
  | .update _ => s.state c = .streamsRunning ∧
      ((s.call c).data.iceSession = true → answers (.prepareIce c) ≠ .gathering)

/-- The environment of the failure: the request cannot be sent, or is. -/
def environment : (q : Query) → q.Answer
  | .sent _ _ => match failure with
      | .notSent => false
      | .refused _ _ => true
  | q => answers q

/-- A quiet run of the operation and, when the request was sent, of `call_failure`. -/
def failedRun : Option Core :=
  (quietly (environment failure answers) (op.program c) s).bind fun r =>
    match failure with
    | .notSent => some r.2
    | .refused reason contact =>
        (quietly (environment failure answers) (callFailure c reason contact) r.2).map Prod.snd

end HoldOp

/-- The call is as it was: its state, the current call, and the streams that were running. -/
structure LeftAsBefore (s s' : Core) (c : CallId) : Prop where
  state : s'.state c = s.state c
  currentCall : s'.currentCall = s.currentCall
  audio : (s.call c).data.media.audio.running = true →
    (s'.call c).data.media.audio.running = true
  video : (s.call c).data.media.video.running = true →
    (s'.call c).data.media.video.running = true

/-- A call in order: not in a state that waits for an answer, with streams when it says so, and
not the current one while it is paused. -/
structure InOrder (s : Core) (c : CallId) : Prop where
  settled : s.state c ≠ .pausing ∧ s.state c ≠ .updating ∧ s.state c ≠ .resuming
  streams : s.state c = .streamsRunning → (s.call c).data.media.running = true
  current : s.state c = .paused → s.currentCall ≠ some c

/-- What is left as it was is left in order. -/
theorem LeftAsBefore.inOrder {s s' : Core} {c : CallId} (h : LeftAsBefore s s' c)
    (ho : InOrder s c) : InOrder s' c where
  settled := by
    rw [h.state]
    exact ho.settled
  streams hst := by
    rw [h.state] at hst
    have hr := ho.streams hst
    simp only [MediaCall.running, Bool.or_eq_true] at hr ⊢
    exact hr.imp h.audio h.video
  current hst := by
    rw [h.state] at hst
    rw [h.currentCall]
    exact ho.current hst

/-! ## When nothing is lost -/

/-- The resume of a call pauses the current one. -/
def Core.Preempts (s : Core) (c : CallId) : Prop :=
  (s.call c).data.media.inConference = false ∧ s.conference.localParticipant = false ∧
    ∃ cur, s.currentCall = some cur ∧ (s.call cur).pausable = true

/-- The condition under which a failure leaves the call as it was. -/
def HoldOp.Harmless (s : Core) (c : CallId) : HoldOp → RequestFailure → Prop
  | .pause, .notSent => False
  | .pause, .refused _ _ => s.currentCall = none ∧ (s.call c).data.media.running = false
  | .resume, .notSent => ¬s.Preempts c
  | .resume, .refused reason _ =>
      ((s.call c).data.media.inConference = true ∨ s.currentCall = some c) ∧
        (reason = .redirect → (s.call c).data.media.running = false)
  | .update _, .notSent => False
  | .update _, .refused reason _ =>
      reason = .redirect → (s.call c).data.media.running = false

/-! ## The programs, run -/

namespace Core

variable (s : Core) (c : CallId)

def edited (f : CallData → CallData) : Core := s.modify c fun r => { r with data := f r.data }

def entered (x : CallState) : Core := s.modify c fun r => r.assign x

/-- After `_linphone_core_pause_call`, up to the state. -/
def stopped (f : CallData → CallData) : Core :=
  ({ s.edited c f with currentCall := none }).edited c (·.mapMedia (·.stopMediaStreams))

@[simp] theorem edited_self (f : CallData → CallData) :
    (s.edited c f).call c = { s.call c with data := f (s.call c).data } := by
  simp [edited]

@[simp] theorem edited_ne (f : CallData → CallData) {d : CallId} (h : d ≠ c) :
    (s.edited c f).call d = s.call d := by
  simp [edited, h]

@[simp] theorem edited_currentCall (f : CallData → CallData) :
    (s.edited c f).currentCall = s.currentCall := rfl

@[simp] theorem edited_conference (f : CallData → CallData) :
    (s.edited c f).conference = s.conference := rfl

@[simp] theorem entered_self (x : CallState) :
    (s.entered c x).call c = (s.call c).assign x := by
  simp [entered]

@[simp] theorem entered_ne (x : CallState) {d : CallId} (h : d ≠ c) :
    (s.entered c x).call d = s.call d := by
  simp [entered, h]

@[simp] theorem entered_currentCall (x : CallState) :
    (s.entered c x).currentCall = s.currentCall := rfl

end Core

/-- States a failed operation can fall back to, and the ones it waits in. -/
def CallState.plain (x : CallState) : Bool :=
  !x.final && x ≠ .connected && x ≠ .refered

section runs

variable {answers : (q : Query) → q.Answer} {s : Core} {c : CallId}

theorem play_edit (f : CallData → CallData) :
    quietly answers (edit c f) s = some ((), s.edited c f) := rfl

theorem play_readCall {β : Type} (f : CallRec → CoreProg β) :
    quietly answers (readCall c >>= f) s = quietly answers (f (s.call c)) s := rfl

theorem play_getCore {β : Type} (f : Core → CoreProg β) :
    quietly answers (getCore >>= f) s = quietly answers (f s) s := rfl

theorem play_ask {β : Type} (q : Query) (f : q.Answer → CoreProg β) :
    quietly answers (query q >>= f) s = quietly answers (f (answers q)) s := rfl

theorem play_seq {α β : Type} {p : CoreProg α} {f : α → CoreProg β} {a : α} {s' : Core}
    (h : quietly answers p s = some (a, s')) :
    quietly answers (p >>= f) s = quietly answers (f a) s' := by
  rw [quietly, Prog.play_bind]
  exact congrArg (fun o => Option.bind o _) h

theorem play_useOp {β : Type} (f : Unit → CoreProg β) :
    quietly answers (useOp c >>= f) s =
      if (s.call c).op then quietly answers (f ()) s else none := by
  change quietly answers ((if _ then _ else _) >>= _) s = _
  cases (s.call c).op <;> rfl

theorem play_makeLocalMediaDescription :
    quietly answers (makeLocalMediaDescription c) s =
      some ((), s.edited c (·.makeLocal (answers .mediaLib) (answers (.localDescription c)))) := rfl

/-- From a state that is not final to a plain one. -/
theorem play_setStateWith {terminated : CoreProg Unit} {x : CallState} (hx : x.plain = true)
    (hs : (s.state c).final = false) (hne : s.state c ≠ x) :
    quietly answers (setStateWith terminated c x) s = some ((), s.entered c x) := by
  simp only [CallState.plain, Bool.and_eq_true, Bool.not_eq_true', decide_eq_true_eq] at hx
  obtain ⟨⟨hf, hcon⟩, -⟩ := hx
  have hrel : x ≠ .released := by
    rintro rfl
    cases hf
  have hne' : (s.call c).vars.state ≠ x := hne
  have hend : (s.call c).vars.state.ended = false := CallState.not_ended hs
  have hout : ((s.call c).vars.setState x).2 = .notified := by
    simp [StateVars.setState, hne', hend]
  rw [setStateWith, play_readCall, hout]
  simp only [CallState.not_ended hf, hcon, hrel, decide_false, Prog.when, Bool.false_eq_true,
    if_false]
  rfl

theorem entered_vars {x : CallState} (hx : x.plain = true) (hs : (s.state c).final = false)
    (hne : s.state c ≠ x) :
    (s.entered c x).call c =
      { s.call c with vars := ⟨x, s.state c⟩, history := x :: (s.call c).history } := by
  simp only [CallState.plain, Bool.and_eq_true, decide_eq_true_eq] at hx
  have hend : (s.call c).vars.state.ended = false := CallState.not_ended hs
  rw [Core.entered_self]
  exact CallRec.assign_moves hne hx.2 (by simp [hend])

/-- The states that wait for the answer to a re-INVITE. -/
def CallState.waiting (x : CallState) : Prop := x = .updating ∨ x = .pausing ∨ x = .resuming

theorem play_finishFailure (hw : (s.state c).waiting) (reason : SalReason)
    (referer : Option CallId) :
    quietly answers (finishFailure c reason referer) s =
      quietly answers (setState c (s.call c).vars.prevstate) s := by
  have hw' : (s.call c).vars.state = .updating ∨ (s.call c).vars.state = .pausing ∨
      (s.call c).vars.state = .resuming := hw
  change quietly answers (if _ then _ else _) s = _
  rw [if_pos hw']

/-- **`call_failure`** on a re-INVITE restores the state, after the streams of a redirected call
are stopped. -/
theorem play_callFailure (hw : (s.state c).waiting) {prev : CallState}
    (hprev : (s.call c).vars.prevstate = prev) (hp : prev.plain = true)
    (hne : s.state c ≠ prev) (reason : SalReason) (contact : Bool) :
    quietly answers (callFailure c reason contact) s =
      some ((), (if reason = .redirect then s.edited c (·.mapMedia (·.stopMediaStreams))
        else s).entered c prev) := by
  have hf : (s.state c).final = false := by
    rcases hw with h | h | h <;> rw [h] <;> rfl
  have hearly : (s.call c).vars.state.outgoingEarly = false := by
    have hw' : (s.call c).vars.state = .updating ∨ (s.call c).vars.state = .pausing ∨
        (s.call c).vars.state = .resuming := hw
    rcases hw' with h | h | h <;> rw [h] <;> rfl
  have hrestore : quietly answers (setState c (s.call c).vars.prevstate) s =
      some ((), s.entered c prev) := by
    rw [hprev]
    exact play_setStateWith hp hf hne
  rw [callFailure, play_readCall]
  cases reason with
  | redirect =>
      change quietly answers (if ((s.call c).vars.state.outgoingEarly && contact) = true then
        restartInvite c else finishFailure c .redirect (s.call c).data.referer)
        (s.edited c (·.mapMedia (·.stopMediaStreams))) = _
      rw [hearly, Bool.false_and, if_neg (by decide), if_pos rfl]
      have hw' : ((s.edited c (·.mapMedia (·.stopMediaStreams))).state c).waiting := by
        simpa [Core.state] using hw
      rw [play_finishFailure hw']
      simp only [Core.edited_self, hprev]
      refine play_setStateWith hp ?_ ?_
      · simpa [Core.state] using hf
      · simpa [Core.state] using hne
  | requestPending => exact hrestore
  | unsupportedContent | notAcceptable =>
      simp only [hearly, Bool.false_eq_true, if_false]
      exact (play_finishFailure hw _ _).trans hrestore
  | _ => exact (play_finishFailure hw _ _).trans hrestore

/-- After `_linphone_core_pause_call` has paused a call. -/
def Core.pausedBy (s : Core) (c : CallId) (f : CallData → CallData) : Core :=
  ((s.stopped c f).entered c .pausing).edited c fun d => { d with pausedByApp := false }

/-- The part of the pause that is the same for every call it applies to. -/
theorem play_pauseRest (hst : s.state c = .streamsRunning ∨ s.state c = .pausedByRemote) :
    quietly answers (do
      makeLocalMediaDescription c
      useOp c
      let _ ← query (.sent c .pause)
      perform .clearCurrent
      edit c (·.mapMedia (·.stopMediaStreams))
      enterState c .pausing
      edit c fun d => { d with pausedByApp := false }
      pure (0 : Int)) s =
    if (s.call c).op then some (0, s.pausedBy c
      (·.makeLocal (answers .mediaLib) (answers (.localDescription c)))) else none := by
  rw [play_seq play_makeLocalMediaDescription, play_useOp, Core.edited_self]
  change (if (s.call c).op then quietly answers (enterState c .pausing >>= fun _ => _)
    (s.stopped c _) else none) = _
  have hst' : (s.stopped c (·.makeLocal (answers .mediaLib)
      (answers (.localDescription c)))).state c = s.state c := by
    simp [Core.state, Core.stopped]
  have hlive : ((s.stopped c (·.makeLocal (answers .mediaLib)
      (answers (.localDescription c)))).state c).final = false := by
    rw [hst']
    rcases hst with h | h <;> rw [h] <;> rfl
  have hne : (s.stopped c (·.makeLocal (answers .mediaLib)
      (answers (.localDescription c)))).state c ≠ .pausing := by
    rw [hst']
    rcases hst with h | h <;> rw [h] <;> decide
  rw [play_seq (p := enterState c .pausing) (play_setStateWith rfl hlive hne)]
  rfl

/-- A pause that comes to an end has paused the call, or has found it not to be pausable. -/
theorem pauseCallInternal_cases {a : Int} {s' : Core}
    (h : quietly answers (pauseCallInternal c) s = some (a, s')) :
    ((s.call c).pausable = true ∧ a = 0 ∧ s' = s.pausedBy c
      (·.makeLocal (answers .mediaLib) (answers (.localDescription c)))) ∨
    ((s.call c).pausable = false ∧ a = -1 ∧ s' = s) := by
  rw [pauseCallInternal, play_readCall] at h
  split at h
  · rename_i hst
    cases h
    refine .inr ⟨?_, rfl, rfl⟩
    simp [CallRec.pausable, hst.1, hst.2]
  · rename_i hst
    have hst' : s.state c = .streamsRunning ∨ s.state c = .pausedByRemote := by
      by_contra hno
      push Not at hno
      exact hst hno
    have hstb : ((s.call c).vars.state = .streamsRunning ||
        (s.call c).vars.state = .pausedByRemote) = true := by
      simpa [Core.state] using hst'
    split at h
    · cases h
    · rename_i md hmd
      split at h
      · rename_i hdir
        rw [play_pauseRest hst'] at h
        split at h
        · cases h
          refine .inl ⟨?_, rfl, rfl⟩
          simp [CallRec.pausable, hstb, hmd, hdir]
        · cases h
      · rename_i hdir
        cases h
        refine .inr ⟨?_, rfl, rfl⟩
        simp only [CallRec.pausable, hmd, Option.any_some]
        simp [hdir]

/-! ## What the runs leave -/

@[simp] theorem makeLocal_audio (d : CallData) (lib : MediaLib) (md : SalMediaDescription) :
    (d.makeLocal lib md).media.audio = d.media.audio := by
  unfold CallData.makeLocal
  split <;> rfl

@[simp] theorem makeLocal_video (d : CallData) (lib : MediaLib) (md : SalMediaDescription) :
    (d.makeLocal lib md).media.video = d.media.video := by
  unfold CallData.makeLocal
  split <;> rfl

@[simp] theorem makeLocal_inConference (d : CallData) (lib : MediaLib)
    (md : SalMediaDescription) :
    (d.makeLocal lib md).media.inConference = d.media.inConference := by
  unfold CallData.makeLocal
  split <;> rfl

/-- A call that waits for the answer to its re-INVITE. -/
structure Waiting (s s' : Core) (c : CallId) (x : CallState) : Prop where
  vars : (s'.call c).vars = ⟨x, s.state c⟩
  waiting : x.waiting

/-- The streams of a call are the ones it had. -/
structure SameStreams (s s' : Core) (c : CallId) : Prop where
  audio : (s'.call c).data.media.audio = (s.call c).data.media.audio
  video : (s'.call c).data.media.video = (s.call c).data.media.video

theorem SameStreams.trans {s s' s'' : Core} (h₁ : SameStreams s s' c)
    (h₂ : SameStreams s' s'' c) : SameStreams s s'' c :=
  ⟨h₂.audio.trans h₁.audio, h₂.video.trans h₁.video⟩

/-- No stream of the call runs. -/
def Stopped (s : Core) (c : CallId) : Prop :=
  (s.call c).data.media.audio.running = false ∧ (s.call c).data.media.video.running = false

theorem stopped_iff : Stopped s c ↔ (s.call c).data.media.running = false := by
  simp [Stopped, MediaCall.running]

/-- A call left stopped is as it was when it had no stream. -/
theorem leftAsBefore_of_stopped {s' : Core} (hs : Stopped s' c) :
    LeftAsBefore s s' c ↔
      s'.state c = s.state c ∧ s'.currentCall = s.currentCall ∧
        (s.call c).data.media.running = false := by
  rw [← stopped_iff]
  constructor
  · intro h
    refine ⟨h.state, h.currentCall, ?_, ?_⟩
    · cases hr : (s.call c).data.media.audio.running with
      | true => exact absurd (h.audio hr) (by simp [hs.1])
      | false => rfl
    · cases hr : (s.call c).data.media.video.running with
      | true => exact absurd (h.video hr) (by simp [hs.2])
      | false => rfl
  · rintro ⟨hst, hcur, hno⟩
    refine ⟨hst, hcur, fun h => ?_, fun h => ?_⟩
    · simp [hno.1] at h
    · simp [hno.2] at h

theorem leftAsBefore_of_sameStreams {s' : Core} (hs : SameStreams s s' c) :
    LeftAsBefore s s' c ↔ s'.state c = s.state c ∧ s'.currentCall = s.currentCall := by
  constructor
  · exact fun h => ⟨h.state, h.currentCall⟩
  · rintro ⟨hst, hcur⟩
    refine ⟨hst, hcur, ?_, ?_⟩
    · rw [hs.audio]
      exact id
    · rw [hs.video]
      exact id

/-- After a pause: the call waits, nothing runs, and there is no current call. -/
theorem pausedBy_spec {f : CallData → CallData}
    (hst : s.state c = .streamsRunning ∨ s.state c = .pausedByRemote) :
    Waiting s (s.pausedBy c f) c .pausing ∧ Stopped (s.pausedBy c f) c ∧
      (s.pausedBy c f).currentCall = none := by
  have hst' : (s.stopped c f).state c = s.state c := by
    simp [Core.state, Core.stopped]
  have hlive : ((s.stopped c f).state c).final = false := by
    rw [hst']
    rcases hst with h | h <;> rw [h] <;> rfl
  have hne : (s.stopped c f).state c ≠ .pausing := by
    rw [hst']
    rcases hst with h | h <;> rw [h] <;> decide
  have hcall := entered_vars (x := .pausing) rfl hlive hne
  refine ⟨⟨?_, .inr (.inl rfl)⟩, ⟨?_, ?_⟩, rfl⟩
  · rw [Core.pausedBy, Core.edited_self, hcall, hst']
  · rw [Core.pausedBy, Core.edited_self, hcall]
    simp [Core.stopped, CallData.mapMedia, MediaCall.stopMediaStreams]
  · rw [Core.pausedBy, Core.edited_self, hcall]
    simp [Core.stopped, CallData.mapMedia, MediaCall.stopMediaStreams]

/-- **After `call_failure`**: the state is the one before the operation, and the streams are
stopped on a redirection only. -/
theorem callFailure_spec {s₀ s' : Core} {x : CallState} (hw : Waiting s₀ s c x)
    (hp : (s₀.state c).plain = true) (hne : x ≠ s₀.state c) {reason : SalReason} {contact : Bool}
    (h : quietly answers (callFailure c reason contact) s = some ((), s')) :
    s'.state c = s₀.state c ∧ s'.currentCall = s.currentCall ∧
      (reason = .redirect → Stopped s' c) ∧ (reason ≠ .redirect → SameStreams s s' c) := by
  have hstate : s.state c = x := congrArg StateVars.state hw.vars
  have hw' : (s.state c).waiting := by
    rw [hstate]
    exact hw.waiting
  have hlive : (s.state c).final = false := by
    rcases hw' with h | h | h <;> rw [h] <;> rfl
  have hne' : s.state c ≠ s₀.state c := by
    rw [hstate]
    exact hne
  have hprev : (s.call c).vars.prevstate = s₀.state c := congrArg StateVars.prevstate hw.vars
  rw [play_callFailure hw' hprev hp hne'] at h
  cases h
  by_cases hr : reason = .redirect
  · have hsame : (s.edited c (·.mapMedia (·.stopMediaStreams))).state c = s.state c := by
      simp [Core.state]
    have hcall := entered_vars (s := s.edited c (·.mapMedia (·.stopMediaStreams))) hp
      (by rwa [hsame]) (by rwa [hsame])
    simp only [hr, if_true]
    refine ⟨?_, rfl, fun _ => ⟨?_, ?_⟩, fun h => absurd rfl h⟩
    · rw [Core.state, hcall]
    · rw [hcall]
      simp [CallData.mapMedia, MediaCall.stopMediaStreams]
    · rw [hcall]
      simp [CallData.mapMedia, MediaCall.stopMediaStreams]
  · have hcall := entered_vars hp hlive hne'
    simp only [hr, if_false]
    refine ⟨?_, rfl, fun h => absurd h (by simp), fun _ => ⟨?_, ?_⟩⟩
    · rw [Core.state, hcall]
    · rw [hcall]
    · rw [hcall]

/-! ## What the operations leave -/

/-- Edits of one call that keep its streams. -/
def Action.keepsStreams (c : CallId) : Action → Prop
  | .edit d f => d = c ∧ ∀ data, (f data).media.audio = data.media.audio ∧
      (f data).media.video = data.media.video
  | _ => False

/-- What such edits keep. -/
structure Kept (c : CallId) (s s' : Core) : Prop where
  streams : SameStreams s s' c
  vars : (s'.call c).vars = (s.call c).vars
  currentCall : s'.currentCall = s.currentCall

theorem kept_of_play {α : Type} {p : CoreProg α} (hp : p.Only (Action.keepsStreams c)) {a : α}
    {s' : Core} (h : quietly answers p s = some (a, s')) : Kept c s s' := by
  refine Prog.rel_of_play (E := Kept c) (fun _ => ⟨⟨rfl, rfl⟩, rfl, rfl⟩) ?_ ?_ hp h
  · rintro s₁ s₂ s₃ ⟨hs, hv, hc⟩ ⟨hs', hv', hc'⟩
    exact ⟨hs.trans hs', hv'.trans hv, hc'.trans hc⟩
  · intro x s hx
    cases x with
    | edit d f =>
        obtain ⟨rfl, hf⟩ := hx
        have hcall : (s.modify d fun r => { r with data := f r.data }).call d =
            { s.call d with data := f (s.call d).data } := by simp
        refine ⟨⟨?_, ?_⟩, ?_, rfl⟩
        · exact (congrArg (·.data.media.audio) hcall).trans (hf _).1
        · exact (congrArg (·.data.media.video) hcall).trans (hf _).2
        · exact congrArg (·.vars) hcall
    | _ => exact absurd hx id

theorem pause_spec {a : Int} {s' : Core} (hp : (s.call c).pausable = true)
    (h : quietly answers (pauseCall c) s = some (a, s')) :
    Waiting s s' c .pausing ∧ Stopped s' c ∧ s'.currentCall = none := by
  have hst : s.state c = .streamsRunning ∨ s.state c = .pausedByRemote := by
    simp only [CallRec.pausable, Bool.and_eq_true, Bool.or_eq_true, decide_eq_true_eq] at hp
    exact hp.1
  rw [pauseCall, quietly, Prog.play_bind, Option.bind_eq_some_iff] at h
  obtain ⟨⟨err, s₁⟩, hpause, hrest⟩ := h
  rcases pauseCallInternal_cases hpause with ⟨-, rfl, rfl⟩ | ⟨hno, -⟩
  · cases hrest
    obtain ⟨hw, hstop, hcur⟩ := pausedBy_spec (s := s)
      (f := (·.makeLocal (answers .mediaLib) (answers (.localDescription c)))) hst
    refine ⟨⟨?_, hw.waiting⟩, ⟨?_, ?_⟩, hcur⟩
    · simpa [Action.apply] using hw.vars
    · simpa [Action.apply] using hstop.1
    · simpa [Action.apply] using hstop.2
  · rw [hp] at hno
    cases hno

theorem only_prepareIce : (prepareIce c).Only (Action.keepsStreams c) := by
  refine Prog.Only.bind (fun _ => trivial) fun r => Prog.Only.ite ?_ trivial
  intro answer
  cases answer with
  | gathering => trivial
  | ready => trivial
  | deleted => exact ⟨⟨rfl, fun _ => ⟨rfl, rfl⟩⟩, trivial⟩

theorem only_startUpdateCall : (startUpdateCall c).Only (Action.keepsStreams c) := by
  refine Prog.Only.bind (fun _ => trivial) fun r => Prog.Only.bind (Prog.Only.when ?_) fun _ => ?_
  · exact fun lib md => ⟨⟨rfl, fun _ => ⟨makeLocal_audio .., makeLocal_video ..⟩⟩, trivial⟩
  · refine Prog.Only.bind ?_ fun _ => fun _ => trivial
    exact Prog.Only.bind (fun _ => trivial) fun _ => Prog.Only.ite trivial trivial

theorem update_spec {params : CallParams} {a : Int} {s' : Core}
    (hst : s.state c = .streamsRunning)
    (h : quietly answers (updateCall c (some params)) s = some (a, s')) :
    Waiting s s' c .updating ∧ SameStreams s s' c ∧ s'.currentCall = s.currentCall := by
  have hst' : (s.call c).vars.state = .streamsRunning := hst
  have hlive : (s.state c).final = false := by
    rw [hst]
    rfl
  have hne : s.state c ≠ .updating := by
    rw [hst]
    decide
  rw [updateCall, play_readCall, hst'] at h
  have hcall := entered_vars (x := .updating) rfl hlive hne
  change quietly answers (enterState c .updating >>= fun _ => _) s = _ at h
  rw [play_seq (p := enterState c .updating) (play_setStateWith rfl hlive hne)] at h
  have hkept : Kept c (s.entered c .updating) s' := by
    refine kept_of_play ?_ h
    refine Prog.Only.bind ⟨⟨rfl, fun _ => ⟨rfl, rfl⟩⟩, trivial⟩ fun _ => ?_
    exact only_prepareIce.bind fun _ => Prog.Only.ite trivial only_startUpdateCall
  refine ⟨⟨?_, .inl rfl⟩, ⟨?_, ?_⟩, hkept.currentCall⟩
  · rw [hkept.vars, hcall]
  · rw [hkept.streams.audio, hcall]
  · rw [hkept.streams.video, hcall]

/-- The preemption for a call that is itself not in the way. -/
theorem preempt_spec {s' : Core} (hc : (s.call c).pausable = false)
    (h : quietly answers preemptSoundResources s = some ((), s')) :
    s'.call c = s.call c ∧ s'.currentCall = s.currentCall.filter fun cur =>
      s.conference.localParticipant || !(s.call cur).pausable := by
  rw [preemptSoundResources, play_getCore] at h
  split at h
  · rename_i hl
    cases h
    refine ⟨rfl, ?_⟩
    rw [hl]
    change s.currentCall = _
    cases s.currentCall <;> rfl
  · rename_i hl
    split at h
    · rename_i cur hcur
      rw [quietly, Prog.play_bind, Option.bind_eq_some_iff] at h
      obtain ⟨⟨err, s₁⟩, hpause, hrest⟩ := h
      cases hrest
      rcases pauseCallInternal_cases hpause with ⟨hp, -, heq⟩ | ⟨hp, -, heq⟩
      · have hne : c ≠ cur := by
          rintro rfl
          rw [hp] at hc
          cases hc
        simp only [heq, hcur]
        refine ⟨?_, ?_⟩
        · simp [Core.pausedBy, Core.stopped, hne]
        · simp [Core.pausedBy, Core.stopped, hl, hp, Option.filter_some]
      · rw [heq]
        refine ⟨rfl, ?_⟩
        simp [hcur, hp, Option.filter_some]
    · rename_i hcur
      cases h
      simp [hcur]

/-- The resume, once the sound is there. -/
theorem sendResume_spec {a : Int} {s' : Core} (hst : s.state c = .paused)
    (h : quietly answers (sendResume c) s = some (a, s')) :
    SameStreams s s' c ∧
      (answers (.sent c .resume) = false →
        s'.state c = s.state c ∧ s'.currentCall = s.currentCall) ∧
      (answers (.sent c .resume) = true → Waiting s s' c .resuming ∧
        s'.currentCall =
          if (s.call c).data.media.inConference then s.currentCall else some c) := by
  rw [sendResume, play_seq (play_edit _), play_seq play_makeLocalMediaDescription, play_useOp] at h
  split at h
  case isFalse => cases h
  rw [play_seq (play_edit _), play_ask] at h
  -- the call with its new local description
  generalize hs₁ : ((s.edited c _).edited c _).edited c _ = s₁ at h
  have hcall : s₁.call c = { s.call c with data := (s₁.call c).data } := by
    simp [← hs₁]
  have hcur : s₁.currentCall = s.currentCall := by
    simp [← hs₁]
  have hstreams : SameStreams s s₁ c := by
    constructor <;> simp [← hs₁, CallData.mapMedia]
  have hconf : (s₁.call c).data.media.inConference = (s.call c).data.media.inConference := by
    simp [← hs₁, CallData.mapMedia]
  have hst₁ : s₁.state c = .paused := by
    rw [Core.state, hcall]
    exact hst
  cases hsent : answers (.sent c .resume) with
  | false =>
      rw [hsent] at h
      cases h
      exact ⟨hstreams, fun _ => ⟨by rw [hst₁, hst], hcur⟩, fun h => Bool.noConfusion h⟩
  | true =>
      have hlive : (s₁.state c).final = false := by
        rw [hst₁]
        rfl
      have hne : s₁.state c ≠ .resuming := by
        rw [hst₁]
        decide
      rw [hsent] at h
      change quietly answers (setState c .resuming >>= fun _ => _) s₁ = _ at h
      rw [play_seq (p := setState c .resuming) (play_setStateWith rfl hlive hne), play_readCall,
        entered_vars rfl hlive hne] at h
      have hent := entered_vars (x := .resuming) rfl hlive hne
      have hvars : ((s₁.entered c .resuming).call c).vars = ⟨.resuming, s.state c⟩ := by
        rw [hent, hst₁, hst]
      have hstreams' : SameStreams s (s₁.entered c .resuming) c :=
        ⟨by rw [hent]; exact hstreams.audio, by rw [hent]; exact hstreams.video⟩
      cases hin : (s.call c).data.media.inConference with
      | true =>
          rw [hconf, hin] at h
          cases h
          exact ⟨hstreams', fun h => Bool.noConfusion h,
            fun _ => ⟨⟨hvars, .inr (.inr rfl)⟩, hcur⟩⟩
      | false =>
          rw [hconf, hin] at h
          cases h
          exact ⟨⟨hstreams'.audio, hstreams'.video⟩, fun h => Bool.noConfusion h,
            fun _ => ⟨⟨hvars, .inr (.inr rfl)⟩, rfl⟩⟩

theorem not_pausable_of_paused (hst : s.state c = .paused) : (s.call c).pausable = false := by
  have hst' : (s.call c).vars.state = .paused := hst
  simp [CallRec.pausable, hst']

theorem resume_spec {a : Int} {s' : Core} (hst : s.state c = .paused)
    (hfree : (s.call c).data.media.inConference = true ∨ s.soundResourcesLocked = false)
    (h : quietly answers (resumeCall c) s = some (a, s')) :
    SameStreams s s' c ∧
      (answers (.sent c .resume) = false →
        s'.state c = s.state c ∧ (s'.currentCall = s.currentCall ↔ ¬s.Preempts c)) ∧
      (answers (.sent c .resume) = true → Waiting s s' c .resuming ∧
        s'.currentCall =
          if (s.call c).data.media.inConference then s.currentCall else some c) := by
  have hst' : ¬(s.call c).vars.state ≠ .paused := not_not.mpr hst
  rw [resumeCall, play_getCore, play_readCall, if_neg hst'] at h
  cases hin : (s.call c).data.media.inConference with
  | true =>
      rw [hin, if_pos rfl] at h
      obtain ⟨hstreams, hno, hyes⟩ := sendResume_spec hst h
      refine ⟨hstreams, fun hs => ⟨(hno hs).1, ?_⟩, fun hs => ?_⟩
      · simp [(hno hs).2, Core.Preempts, hin]
      · simpa [hin] using hyes hs
  | false =>
      have hunlocked : s.soundResourcesLocked = false := by simpa [hin] using hfree
      rw [hin, hunlocked, if_neg (by decide), if_neg (by decide), quietly, Prog.play_bind,
        Option.bind_eq_some_iff] at h
      obtain ⟨⟨u, s₁⟩, hpre, hsend⟩ := h
      obtain ⟨hcall, hcur⟩ := preempt_spec (not_pausable_of_paused hst) hpre
      have hst₁ : s₁.state c = s.state c := by
        rw [Core.state, hcall, Core.state]
      obtain ⟨hstreams, hno, hyes⟩ := sendResume_spec (hst₁.trans hst) hsend
      refine ⟨⟨?_, ?_⟩, fun hs => ⟨(hno hs).1.trans hst₁, ?_⟩, fun hs => ⟨⟨?_, ?_⟩, ?_⟩⟩
      · rw [hstreams.audio, hcall]
      · rw [hstreams.video, hcall]
      · rw [(hno hs).2, hcur]
        cases hc : s.currentCall with
        | none => simp [Core.Preempts, hc]
        | some cur => simp [Core.Preempts, hc, hin, Option.filter_some]
      · rw [(hyes hs).1.vars, hst₁]
      · exact (hyes hs).1.waiting
      · rw [(hyes hs).2, hcall, hin]
        rfl

theorem not_leftAsBefore_of_waiting {s s' : Core} {x : CallState} (hw : Waiting s s' c x)
    (hne : x ≠ s.state c) : ¬LeftAsBefore s s' c := by
  intro h
  have hstate := h.state
  rw [Core.state, hw.vars] at hstate
  exact hne hstate

/-- A refused request whose streams went on: what is lost is the current call, and the streams with
a redirection. -/
theorem leftAsBefore_refused_iff {s s₁ s₂ : Core} {x : CallState} (hw : Waiting s s₁ c x)
    (hplain : (s.state c).plain = true) (hne : x ≠ s.state c) (hstreams : SameStreams s s₁ c)
    {reason : SalReason} {contact : Bool}
    (hfail : quietly answers (callFailure c reason contact) s₁ = some ((), s₂)) :
    LeftAsBefore s s₂ c ↔ s₁.currentCall = s.currentCall ∧
      (reason = .redirect → (s.call c).data.media.running = false) := by
  obtain ⟨hst, hcur, hred, hkeep⟩ := callFailure_spec hw hplain hne hfail
  by_cases hre : reason = .redirect
  · rw [leftAsBefore_of_stopped (hred hre), hst, hcur]
    simp [hre]
  · rw [leftAsBefore_of_sameStreams (hstreams.trans (hkeep hre)), hst, hcur]
    simp [hre]

end runs

/-! ## The iff -/

/-- **A failed re-INVITE leaves the call as it was exactly when it is harmless**: a pause never when
it cannot be sent, and when it is refused only if there was nothing to lose. -/
theorem leftAsBefore_iff (op : HoldOp) (failure : RequestFailure)
    {answers : (q : Query) → q.Answer} {s s' : Core} {c : CallId}
    (ha : op.Attempted answers s c) (hr : op.failedRun failure answers s c = some s') :
    LeftAsBefore s s' c ↔ op.Harmless s c failure := by
  rw [HoldOp.failedRun, Option.bind_eq_some_iff] at hr
  obtain ⟨⟨a, s₁⟩, hop, hfail⟩ := hr
  cases op with
  | pause =>
      obtain ⟨hw, hstop, hcur⟩ := pause_spec ha hop
      have hst : s.state c = .streamsRunning ∨ s.state c = .pausedByRemote := by
        have hp : (s.call c).pausable = true := ha
        simp only [CallRec.pausable, Bool.and_eq_true, Bool.or_eq_true, decide_eq_true_eq] at hp
        exact hp.1
      have hplain : (s.state c).plain = true := by
        rcases hst with h | h <;> rw [h] <;> rfl
      have hne : CallState.pausing ≠ s.state c := by
        rcases hst with h | h <;> rw [h] <;> decide
      cases failure with
      | notSent =>
          cases hfail
          exact ⟨not_leftAsBefore_of_waiting hw hne, False.elim⟩
      | refused reason contact =>
          obtain ⟨⟨⟨⟩, s₂⟩, hcf, heq⟩ := Option.map_eq_some_iff.mp hfail
          cases heq
          obtain ⟨hst₂, hcur₂, hred, hkeep⟩ := callFailure_spec hw hplain hne hcf
          have hstop₂ : Stopped s₂ c := by
            by_cases hre : reason = .redirect
            · exact hred hre
            · have hsame := hkeep hre
              refine ⟨?_, ?_⟩
              · rw [hsame.audio]
                exact hstop.1
              · rw [hsame.video]
                exact hstop.2
          rw [leftAsBefore_of_stopped hstop₂, hst₂, hcur₂, hcur, eq_comm (a := none)]
          simp [HoldOp.Harmless]
  | resume =>
      obtain ⟨hst, hfree⟩ := ha
      obtain ⟨hstreams, hno, hyes⟩ := resume_spec hst hfree hop
      have hplain : (s.state c).plain = true := by
        rw [hst]
        rfl
      cases failure with
      | notSent =>
          cases hfail
          rw [leftAsBefore_of_sameStreams hstreams, (hno rfl).2]
          exact ⟨fun h => h.2, fun h => ⟨(hno rfl).1, h⟩⟩
      | refused reason contact =>
          obtain ⟨⟨⟨⟩, s₂⟩, hcf, heq⟩ := Option.map_eq_some_iff.mp hfail
          cases heq
          obtain ⟨hw, hcur⟩ := hyes rfl
          have hne : CallState.resuming ≠ s.state c := by
            rw [hst]
            decide
          have hcond : s₁.currentCall = s.currentCall ↔
              (s.call c).data.media.inConference = true ∨ s.currentCall = some c := by
            rw [hcur]
            cases (s.call c).data.media.inConference <;> simp [eq_comm]
          rw [leftAsBefore_refused_iff hw hplain hne hstreams hcf, hcond]
          rfl
  | update params =>
      obtain ⟨hst, -⟩ := ha
      obtain ⟨hw, hstreams, hcur⟩ := update_spec hst hop
      have hplain : (s.state c).plain = true := by
        rw [hst]
        rfl
      have hne : CallState.updating ≠ s.state c := by
        rw [hst]
        decide
      cases failure with
      | notSent =>
          cases hfail
          exact ⟨not_leftAsBefore_of_waiting hw hne, False.elim⟩
      | refused reason contact =>
          obtain ⟨⟨⟨⟩, s₂⟩, hcf, heq⟩ := Option.map_eq_some_iff.mp hfail
          cases heq
          rw [leftAsBefore_refused_iff hw hplain hne hstreams hcf]
          exact and_iff_right hcur

/-! ## A call in conversation -/

def talk : SalMediaDescription := lines 1 { type := .audio, rtpPort := 9078 }

/-- One call, with its audio stream running. -/
def conversation : Core where
  call := Function.update (fun _ => {}) 0
    { vars := ⟨.streamsRunning, .connected⟩
      op := true
      added := true
      data := { media := { localdesc := talk
                           resultdesc := some talk
                           audio := { stream := .started } } } }
  created := 1
  calls := [0]
  currentCall := some 0

/-- The peer is busy for an update: nothing is lost. -/
theorem leftAsBefore_of_busy_update :
    ∃ s', (HoldOp.update {}).failedRun (.refused .busy false) plainAnswers conversation 0 =
      some s' ∧
      LeftAsBefore conversation s' 0 :=
  ⟨_, rfl, (leftAsBefore_iff (.update {}) (.refused .busy false)
    ⟨rfl, fun h => absurd h (by decide)⟩ rfl).mpr fun h => absurd h (by decide)⟩

/-- The peer is busy for a pause: the call is running again, without its stream. -/
theorem refused_pause_stops_streams :
    ¬∀ (op : HoldOp) (failure : RequestFailure) (answers : (q : Query) → q.Answer) (s s' : Core)
      (c : CallId), op.Attempted answers s c → op.failedRun failure answers s c = some s' →
      LeftAsBefore s s' c := by
  intro h
  have hattempted : (conversation.call 0).pausable = true := by decide
  have hpause := h .pause (.refused .busy false) plainAnswers conversation _ 0 hattempted rfl
  exact absurd (hpause.audio rfl) (by decide)

end Linphone
