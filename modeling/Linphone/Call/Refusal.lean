import Linphone.Call.Failure

/-!
# Calls that are refused

`linphone_core_invite_address_with_params` frees the sound before it looks whether there is room for
another call. When there is none it returns `NULL`, but the current call is paused, the conference is
left or the ringing is stopped by then.

The ringing goes next to the core of `Call.Api`. The application does nothing when it is notified.

`refusal_harmless_iff`: in which states a refused attempt leaves everything as it was.
-/

namespace Linphone

open Reentrant

/-! ## The attempt -/

/-- A core, and whether `lc->ringstream` is there. -/
structure RingingCore where
  core : Core
  ringstream : Bool

/-- `linphone_core_invite_address_with_params` from where there is room for the call. -/
def placeCall (referer : Option CallId) : CoreProg (Option CallId) := do
  let c ← newOutgoing referer
  let added ← addCall c
  if added then do
    perform (.makeCurrent .invited c)
    setState c .outgoingInit
    edit c (·.mapMedia (·.initMediaStreams))
    let wait ← prepareIce c
    let ping ← flag .pingWithOptions c
    let noProxy ← flag .noDestProxy c
    Prog.when (noProxy && ping) (edit c fun d => { d with pingOp := true, pingReplied := false })
    Prog.when (!wait && !(noProxy && ping)) (startInvite c)
    pure (some c)
  else pure none

/-- `linphone_core_can_we_add_call` -/
def Core.canWeAddCall (s : Core) : Prop := s.calls.length < s.maxCalls

instance (s : Core) : Decidable s.canWeAddCall := inferInstanceAs (Decidable (_ < _))

namespace RingingCore

variable (answers : (q : Query) → q.Answer) (r : RingingCore)

/-- `linphone_core_stop_ringing`, when there is a ring stream. -/
def stopRinging : RingingCore where
  core :=
    match r.core.currentCall with
    | some c =>
      if (r.core.call c).data.ringingBeep then
        r.core.edited c fun d => { d with ringingBeep := false }
      else r.core
    | none => r.core
  ringstream := false

/-- `linphone_core_preempt_sound_resources` -/
def preempt : Option RingingCore :=
  if r.core.conference.localParticipant then
    (quietly answers leaveConference r.core).map fun p => { r with core := p.2 }
  else
    ((match r.core.currentCall with
      | some cur => (quietly answers (pauseCallInternal cur) r.core).map Prod.snd
      | none => some r.core).map fun core => { r with core := core }).map fun r : RingingCore =>
        if r.ringstream then r.stopRinging else r

/-- `linphone_core_invite_address_with_params`: the call, or `NULL`, and the core. -/
def invite (referer : Option CallId) : Option (Option CallId × RingingCore) :=
  (r.preempt answers).bind fun r =>
    if r.core.canWeAddCall then
      (quietly answers (placeCall referer) r.core).map fun p => (p.1, { r with core := p.2 })
    else some (none, r)

end RingingCore

/-! ## What a refusal is to leave -/

/-- The calls, the current one, the states and the media of the calls, the membership of the
conference and the ringing. -/
structure RingingCore.Unchanged (r r' : RingingCore) : Prop where
  calls : r'.core.calls = r.core.calls
  currentCall : r'.core.currentCall = r.core.currentCall
  state : ∀ c ∈ r.core.calls, r'.core.state c = r.core.state c
  media : ∀ c ∈ r.core.calls, (r'.core.call c).data.media = (r.core.call c).data.media
  participant : r'.core.conference.localParticipant = r.core.conference.localParticipant
  ringing : r'.ringstream = r.ringstream

/-- A refused attempt leaves everything as it was. -/
def RingingCore.RefusalHarmless (r : RingingCore) : Prop :=
  ∀ (answers : (q : Query) → q.Answer) (referer : Option CallId) (r' : RingingCore),
    r.invite answers referer = some (none, r') → r.Unchanged r'

/-- `_linphone_core_pause_call` reads through a pointer that is `NULL`. -/
def CallRec.PauseCrashes (r : CallRec) : Prop :=
  (r.vars.state = .streamsRunning ∨ r.vars.state = .pausedByRemote) ∧
      r.data.media.resultdesc = none ∨
    r.pausable = true ∧ r.op = false

/-- There is room for a call; or there is no conference to leave, no ringing to stop and no current
call that can be paused, unless the attempt does not return at all. -/
def RingingCore.Undisturbed (r : RingingCore) : Prop :=
  r.core.canWeAddCall ∨
    r.core.conference.localParticipant = false ∧
      ((∃ cur, r.core.currentCall = some cur ∧ (r.core.call cur).PauseCrashes) ∨
        r.ringstream = false ∧
          ∀ cur, r.core.currentCall = some cur → (r.core.call cur).pausable = false)

/-! ## The preemption -/

section preempt

variable {answers : (q : Query) → q.Answer} {r r' : RingingCore} {s s' : Core} {c : CallId}

theorem play_pause_inactive (hst : ¬((s.call c).vars.state = .streamsRunning ∨
    (s.call c).vars.state = .pausedByRemote)) :
    quietly answers (pauseCallInternal c) s = some (-1, s) := by
  rw [pauseCallInternal, play_readCall, if_pos (not_or.mp hst)]
  rfl

/-- What the pause of an active call comes to. -/
theorem play_pause_active (hst : (s.call c).vars.state = .streamsRunning ∨
    (s.call c).vars.state = .pausedByRemote) :
    quietly answers (pauseCallInternal c) s =
      match (s.call c).data.media.resultdesc with
      | none => none
      | some md =>
        if md.hasDir .sendRecv || md.hasDir .recvOnly then
          if (s.call c).op then some (0, s.pausedBy c
            (·.makeLocal (answers .mediaLib) (answers (.localDescription c)))) else none
        else some (-1, s) := by
  rw [pauseCallInternal, play_readCall, if_neg fun h => not_or.mpr h hst]
  cases (s.call c).data.media.resultdesc with
  | none => rfl
  | some md =>
    by_cases hdir : (md.hasDir .sendRecv || md.hasDir .recvOnly) = true
    · simp only [hdir, if_true]
      exact play_pauseRest hst
    · simp only [hdir]
      rfl

theorem pausable_iff {r : CallRec} :
    r.pausable = true ↔
      (r.vars.state = .streamsRunning ∨ r.vars.state = .pausedByRemote) ∧
        ∃ md, r.data.media.resultdesc = some md ∧
          (md.hasDir .sendRecv || md.hasDir .recvOnly) = true := by
  simp only [CallRec.pausable, Bool.and_eq_true, Bool.or_eq_true, decide_eq_true_eq,
    Option.any_eq_true]

/-- The pause does not return exactly when it crashes. -/
theorem play_pause_eq_none_iff :
    quietly answers (pauseCallInternal c) s = none ↔ (s.call c).PauseCrashes := by
  by_cases hst : (s.call c).vars.state = .streamsRunning ∨
      (s.call c).vars.state = .pausedByRemote
  · rw [play_pause_active hst, CallRec.PauseCrashes, and_iff_right hst]
    cases hmd : (s.call c).data.media.resultdesc with
    | none => simp
    | some md =>
      have hp : (s.call c).pausable = true ↔
          (md.hasDir .sendRecv || md.hasDir .recvOnly) = true := by
        rw [pausable_iff, and_iff_right hst, hmd]
        simp only [Option.some.injEq, exists_eq_left']
      by_cases hdir : (md.hasDir .sendRecv || md.hasDir .recvOnly) = true
      · simp [hdir, hp.mpr hdir]
      · simp [hdir, mt hp.mp hdir]
  · rw [play_pause_inactive hst, CallRec.PauseCrashes, pausable_iff]
    simp only [hst, false_and, or_false, reduceCtorEq]

theorem stopRinging_core (r : RingingCore) :
    r.stopRinging.core = r.core ∨
      ∃ c, r.stopRinging.core = r.core.edited c fun d => { d with ringingBeep := false } := by
  unfold RingingCore.stopRinging
  cases r.core.currentCall with
  | none => exact .inl rfl
  | some c =>
    by_cases hbeep : (r.core.call c).data.ringingBeep = true
    · exact .inr ⟨c, if_pos hbeep⟩
    · exact .inl (if_neg hbeep)

theorem preempt_participant (h : r.core.conference.localParticipant = true) :
    r.preempt answers = some { r with
      core := { r.core with
        conference := { r.core.conference with localParticipant := false } } } := by
  rw [RingingCore.preempt, if_pos h]
  rfl

/-- Outside the conference the current call is paused or cannot be, and the ringing is stopped. -/
theorem preempt_cases (hpart : r.core.conference.localParticipant = false)
    (h : r.preempt answers = some r') :
    ∃ core, (core = r.core ∧
          (∀ cur, r.core.currentCall = some cur → (r.core.call cur).pausable = false) ∨
        ∃ cur f, core = r.core.pausedBy cur f ∧ r.core.currentCall = some cur ∧
          (r.core.call cur).pausable = true) ∧
      r' = if r.ringstream then { r with core := core : RingingCore }.stopRinging
        else { r with core := core } := by
  rw [RingingCore.preempt, hpart, if_neg (by decide)] at h
  obtain ⟨r₁, hr₁, hstop⟩ := Option.map_eq_some_iff.mp h
  obtain ⟨core, hcore, rfl⟩ := Option.map_eq_some_iff.mp hr₁
  refine ⟨core, ?_, hstop.symm⟩
  cases hcur : r.core.currentCall with
  | none =>
    simp only [hcur, Option.some.injEq] at hcore
    exact .inl ⟨hcore.symm, fun _ h => nomatch h⟩
  | some cur =>
    simp only [hcur] at hcore
    obtain ⟨⟨a, s⟩, hpause, rfl⟩ := Option.map_eq_some_iff.mp hcore
    rcases pauseCallInternal_cases hpause with ⟨hp, -, heq⟩ | ⟨hp, -, heq⟩
    · exact .inr ⟨cur, _, heq, rfl, hp⟩
    · refine .inl ⟨heq, fun c hc => ?_⟩
      rw [← Option.some.inj hc]
      exact hp

/-- There is room after the preemption when there was before. -/
theorem preempt_room (h : r.preempt answers = some r') :
    r'.core.calls = r.core.calls ∧ r'.core.maxCalls = r.core.maxCalls := by
  cases hpart : r.core.conference.localParticipant with
  | true =>
    rw [preempt_participant hpart] at h
    cases h
    exact ⟨rfl, rfl⟩
  | false =>
    obtain ⟨core, hcore, rfl⟩ := preempt_cases hpart h
    have hkept : core.calls = r.core.calls ∧ core.maxCalls = r.core.maxCalls := by
      rcases hcore with ⟨rfl, -⟩ | ⟨cur, f, rfl, -⟩
      · exact ⟨rfl, rfl⟩
      · exact ⟨rfl, rfl⟩
    split_ifs
    · rcases stopRinging_core { r with core := core } with heq | ⟨c, heq⟩
      · rw [heq]
        exact hkept
      · rw [heq]
        exact hkept
    · exact hkept

theorem canWeAddCall_preempt (h : r.preempt answers = some r') :
    r'.core.canWeAddCall ↔ r.core.canWeAddCall := by
  obtain ⟨hcalls, hmax⟩ := preempt_room h
  rw [Core.canWeAddCall, Core.canWeAddCall, hcalls, hmax]

theorem preempt_eq_none_iff (hpart : r.core.conference.localParticipant = false) :
    r.preempt answers = none ↔
      ∃ cur, r.core.currentCall = some cur ∧ (r.core.call cur).PauseCrashes := by
  rw [RingingCore.preempt, hpart, if_neg (by decide), Option.map_eq_none_iff,
    Option.map_eq_none_iff]
  cases r.core.currentCall with
  | none => simp
  | some cur =>
    simp only [Option.map_eq_none_iff, play_pause_eq_none_iff, Option.some.injEq, exists_eq_left']

/-! ## When nothing is lost -/

theorem play_addCall (hroom : s.canWeAddCall) :
    quietly answers (addCall c) s = some (true, (Action.addCall c).apply s) := by
  rw [addCall, play_getCore]
  exact congrArg (quietly answers · s) (if_pos hroom)

/-- With room for it, a call is placed. -/
theorem placeCall_placed {referer a : Option CallId} (hroom : s.canWeAddCall)
    (h : quietly answers (placeCall referer) s = some (a, s')) : a ≠ none := by
  rw [placeCall, quietly, Prog.play_bind, Option.bind_eq_some_iff] at h
  obtain ⟨⟨c, s₁⟩, hnew, h⟩ := h
  have hroom₁ : s₁.canWeAddCall := by
    cases hnew
    exact hroom
  change quietly answers (addCall c >>= _) s₁ = _ at h
  rw [play_seq (play_addCall hroom₁)] at h
  -- whatever the steps after it come to, the call is returned
  simp only [if_true, quietly, Prog.play_bind, Option.bind_eq_some_iff] at h
  obtain ⟨_, -, _, -, _, -, _, -, _, -, _, -, _, -, _, -, h⟩ := h
  cases h
  exact Option.some_ne_none _

theorem invite_refused {referer : Option CallId}
    (h : r.invite answers referer = some (none, r')) :
    r.preempt answers = some r' ∧ ¬r.core.canWeAddCall := by
  obtain ⟨r₁, hr₁, hrest⟩ := Option.bind_eq_some_iff.mp h
  by_cases hroom : r₁.core.canWeAddCall
  · rw [if_pos hroom] at hrest
    obtain ⟨⟨a, s⟩, hplace, heq⟩ := Option.map_eq_some_iff.mp hrest
    cases heq
    exact absurd rfl (placeCall_placed hroom hplace)
  · rw [if_neg hroom] at hrest
    cases hrest
    exact ⟨hr₁, fun h => hroom ((canWeAddCall_preempt hr₁).mpr h)⟩

theorem invite_full (referer : Option CallId) (hfull : ¬r.core.canWeAddCall)
    (h : r.preempt answers = some r') : r.invite answers referer = some (none, r') := by
  rw [RingingCore.invite, h]
  exact if_neg fun hroom => hfull ((canWeAddCall_preempt h).mp hroom)

/-- With nothing in its way the preemption changes nothing. -/
theorem preempt_unchanged (hpart : r.core.conference.localParticipant = false)
    (hring : r.ringstream = false)
    (hcur : ∀ cur, r.core.currentCall = some cur → (r.core.call cur).pausable = false)
    (h : r.preempt answers = some r') : r.Unchanged r' := by
  obtain ⟨core, hcore, rfl⟩ := preempt_cases hpart h
  have hsame : core = r.core := by
    rcases hcore with ⟨heq, -⟩ | ⟨cur, f, -, hc, hp⟩
    · exact heq
    · rw [hcur cur hc] at hp
      cases hp
  rw [hring, if_neg (by decide), hsame, ← hring]
  exact ⟨rfl, rfl, fun _ _ => rfl, fun _ _ => rfl, rfl, rfl⟩

/-- A preemption that changes nothing had nothing in its way. -/
theorem undisturbed_of_preempt (h : r.preempt answers = some r') (hkept : r.Unchanged r') :
    r.core.conference.localParticipant = false ∧ r.ringstream = false ∧
      ∀ cur, r.core.currentCall = some cur → (r.core.call cur).pausable = false := by
  have hpart : r.core.conference.localParticipant = false := by
    by_contra hin
    rw [Bool.not_eq_false] at hin
    rw [preempt_participant hin] at h
    cases h
    exact absurd hkept.participant (by simp [hin])
  obtain ⟨core, hcore, rfl⟩ := preempt_cases hpart h
  have hring : r.ringstream = false := by
    by_contra hon
    rw [Bool.not_eq_false] at hon
    rw [hon, if_pos rfl] at hkept
    have hoff := hkept.ringing
    rw [hon] at hoff
    cases hoff
  refine ⟨hpart, hring, ?_⟩
  rw [hring, if_neg (by decide)] at hkept
  rcases hcore with ⟨-, hno⟩ | ⟨cur, f, rfl, hcur, -⟩
  · exact hno
  · have hnone := hkept.currentCall
    rw [hcur] at hnone
    cases hnone

end preempt

/-- **When a refused call leaves everything as it was.** -/
theorem refusal_harmless_iff (r : RingingCore) : r.RefusalHarmless ↔ r.Undisturbed := by
  constructor
  · intro h
    by_cases hroom : r.core.canWeAddCall
    · exact .inl hroom
    · cases hp : r.preempt plainAnswers with
      | none =>
        have hpart : r.core.conference.localParticipant = false := by
          by_contra hin
          rw [Bool.not_eq_false] at hin
          rw [preempt_participant hin] at hp
          cases hp
        exact .inr ⟨hpart, .inl ((preempt_eq_none_iff hpart).mp hp)⟩
      | some r' =>
        have hkept := h plainAnswers none r' (invite_full none hroom hp)
        obtain ⟨hpart, hrest⟩ := undisturbed_of_preempt hp hkept
        exact .inr ⟨hpart, .inr hrest⟩
  · rintro hun answers referer r' h
    obtain ⟨hp, hfull⟩ := invite_refused h
    rcases hun with hroom | ⟨hpart, hcrash | ⟨hring, hcur⟩⟩
    · exact absurd hroom hfull
    · rw [(preempt_eq_none_iff hpart).mpr hcrash] at hp
      cases hp
    · exact preempt_unchanged hpart hring hcur hp

/-! ## The attempt without ringing -/

theorem preempt_core (answers : (q : Query) → q.Answer) (s : Core) :
    RingingCore.preempt answers ⟨s, false⟩ =
      (quietly answers preemptSoundResources s).map fun p => ⟨p.2, false⟩ := by
  rw [RingingCore.preempt, preemptSoundResources, play_getCore]
  cases s.conference.localParticipant with
  | true => rfl
  | false =>
    simp only [Bool.false_eq_true, if_false]
    cases s.currentCall with
    | none => rfl
    | some cur =>
      simp only [quietly, Prog.play_bind]
      cases Prog.play (fun _ _ => true) answers (pauseCallInternal cur) s with
      | none => rfl
      | some p => rfl

/-- The attempt is the one of `Call.Api` where nothing rings. -/
theorem invite_core (answers : (q : Query) → q.Answer) (referer : Option CallId) (s : Core) :
    (RingingCore.invite answers ⟨s, false⟩ referer).map (fun p => (p.1, p.2.core)) =
      quietly answers (inviteAddressWithParams referer) s := by
  rw [RingingCore.invite, preempt_core, inviteAddressWithParams]
  cases hpre : quietly answers preemptSoundResources s with
  | none =>
    rw [quietly, Prog.play_bind]
    exact (congrArg (Option.bind · _) hpre).symm
  | some p =>
    rw [play_seq hpre, play_getCore]
    change Option.map _ (if p.2.calls.length < p.2.maxCalls then _ else _) = _
    by_cases hroom : p.2.calls.length < p.2.maxCalls
    · rw [if_pos hroom, if_pos hroom, Option.map_map]
      change (quietly answers (placeCall referer) p.2).map id = _
      rw [Option.map_id]
      rfl
    · rw [if_neg hroom, if_neg hroom]
      rfl

/-! ## A full core -/

/-- `conversation`, with no room for a second call. -/
def fullCore : RingingCore := ⟨{ conversation with maxCalls := 1 }, false⟩

/-- The call that goes on is paused for one that is refused. -/
theorem refused_pauses_current : ¬∀ r : RingingCore, r.RefusalHarmless := by
  intro h
  have hkept := h fullCore plainAnswers none _ rfl
  exact absurd hkept.currentCall (by decide)

end Linphone
