import Linphone.Lib.Returns
import Linphone.Call.Conference

/-!
# Who is in the mixer

The members of the mixer against what the core knows of them: the endpoint of the local user, of
the recorder, and of each call. `Settled` is kept by every function of the conference under a
condition on the state it starts in; `OnlyCall` says which functions leave everything else alone.

**Main result** (`conference_sound_of_careful`). In a run whose operations all start in a state that
allows them, the members of the mixer are the endpoints the core knows, one for each, and every
operation returns.
-/

namespace Linphone.MixCore

open Holding

variable {Mixer : Type} {a : MixAnswers} {c : CallId} {s : MixCore Mixer}

/-! ## One call -/

/-- The endpoint each owner has, as far as the core knows. -/
def held (s : MixCore Mixer) : EndpointOwner → Option Endpoint
  | .localUser => s.localEndpoint
  | .recorder => s.recordEndpoint
  | .call c => (s.call c).endpoint

/-- What a function does to one call alone: the others, and the place of the local user, are left
as they are. -/
structure OnlyCall (c : CallId) (s s' : MixCore Mixer) : Prop where
  conf : s'.conf.isSome = s.conf.isSome
  localParticipant : s'.localParticipant = s.localParticipant
  calls : s'.calls = s.calls
  others : ∀ d ≠ c, s'.call d = s.call d

theorem OnlyCall.refl : OnlyCall c s s := ⟨rfl, rfl, rfl, fun _ _ => rfl⟩

theorem OnlyCall.trans {s₁ s₂ : MixCore Mixer} (h : OnlyCall c s s₁) (h' : OnlyCall c s₁ s₂) :
    OnlyCall c s s₂ where
  conf := h'.conf.trans h.conf
  localParticipant := h'.localParticipant.trans h.localParticipant
  calls := h'.calls.trans h.calls
  others d hd := (h'.others d hd).trans (h.others d hd)

/-- The call has lost its endpoint, and no more than that and its stream. -/
structure TakenOff (c : CallId) (s s' : MixCore Mixer) : Prop extends OnlyCall c s s' where
  endpoint : (s'.call c).endpoint = none
  vars : (s'.call c).vars = (s.call c).vars
  inConference : (s'.call c).inConference = (s.call c).inConference
  currentInConference : (s'.call c).currentInConference = (s.call c).currentInConference

theorem TakenOff.refl (h : (s.call c).endpoint = none) : TakenOff c s s :=
  ⟨.refl, h, rfl, rfl, rfl⟩

theorem held_edit (f : MixCall → MixCall) :
    (s.edit c f).held = Function.update s.held (.call c) (f (s.call c)).endpoint := by
  funext o
  cases o with
  | localUser => rfl
  | recorder => rfl
  | call d =>
    by_cases h : d = c
    · subst h
      simp [held]
    · rw [Function.update_of_ne (by simpa using h)]
      show ((s.edit c f).call d).endpoint = (s.call d).endpoint
      rw [edit_of_ne f h]

theorem onlyCall_edit (f : MixCall → MixCall) : OnlyCall c s (s.edit c f) where
  conf := rfl
  localParticipant := rfl
  calls := rfl
  others _ hd := edit_of_ne f hd

theorem onlyCall_enterState (state : CallState) : OnlyCall c s (s.enterState c state) :=
  onlyCall_edit _

/-- Adding the call puts the local user in the conference. -/
def takesIn (s : MixCore Mixer) (c : CallId) : Bool :=
  !(s.call c).currentInConference && (s.call c).vars.state = .streamsRunning

theorem takesIn_of_state {s' : MixCore Mixer}
    (h : (s'.call c).vars.state ≠ .streamsRunning) : s'.takesIn c = false := by
  simp [takesIn, h]

theorem sendResume_takesIn (h : (s.call c).vars.state = .paused) :
    (s.sendResume a c).2.takesIn c = false := by
  refine takesIn_of_state ?_
  have hstate : ((s.enterState c .resuming).call c).vars.state = .resuming := by
    simp [enterState, StateVars.setState, h, CallState.ended]
  unfold sendResume
  by_cases hs : a.updateSent c
  · rw [if_pos hs]
    by_cases hc : ((s.enterState c .resuming).call c).inConference
    · simp [hc, hstate]
    · simp [hc, hstate]
  · simp [if_neg hs, h]

theorem updateCall_takesIn (h : (s.call c).vars.state = .streamsRunning) (inConference : Bool) :
    (s.updateCall a c inConference).2.takesIn c = false := by
  refine takesIn_of_state ?_
  simp [updateCall, updatingState, h, enterState, StateVars.setState, CallState.ended]

/-! ## The invariant -/

variable [AudioConference Mixer]

/-- **The mixer and the core agree.** -/
structure Settled (s : MixCore Mixer) : Prop where
  agree : Agree Endpoint.owner s.members s.held
  localUser : s.localParticipant = s.localEndpoint.isSome
  /-- A call with an endpoint has the audio stream it was taken from. -/
  stream : ∀ c, (s.call c).endpoint.isSome → (s.call c).audio ≠ .absent

/-- What does not touch the endpoint of a call. -/
theorem Settled.edit (h : Settled s) (f : MixCall → MixCall)
    (hendpoint : (f (s.call c)).endpoint = (s.call c).endpoint)
    (hstream : (s.call c).endpoint.isSome → (f (s.call c)).audio ≠ .absent) :
    Settled (s.edit c f) where
  agree := by
    rw [held_edit, hendpoint]
    show Agree Endpoint.owner s.members (Function.update s.held (.call c) (s.held (.call c)))
    rw [Function.update_eq_self]
    exact h.agree
  localUser := h.localUser
  stream d hd := by
    by_cases hdc : d = c
    · subst hdc
      rw [edit_self] at hd ⊢
      exact hstream (hendpoint ▸ hd)
    · rw [edit_of_ne f hdc] at hd ⊢
      exact h.stream d hd

theorem Settled.editRest (h : Settled s) (f : MixCall → MixCall)
    (hendpoint : ∀ d, (f d).endpoint = d.endpoint) (haudio : ∀ d, (f d).audio = d.audio) :
    Settled (s.edit c f) :=
  h.edit f (hendpoint _) fun he => haudio (s.call c) ▸ h.stream c he

theorem Settled.enterState (h : Settled s) (state : CallState) : Settled (s.enterState c state) :=
  h.editRest _ (fun _ => rfl) fun _ => rfl

/-! ## Members of the mixer -/

/-- An endpoint the core knows is in a mixer, and can be taken out of it. -/
theorem Settled.remove (h : Settled s) {o : EndpointOwner} {ep : Endpoint}
    (ho : s.held o = some ep) :
    ∃ conf, s.conf = some conf ∧
      Agree Endpoint.owner (AudioConference.members (AudioConference.removeMember conf ep))
        (Function.update s.held o none) := by
  have hmem := h.agree.mem ho
  cases hconf : s.conf with
  | none =>
    simp [MixCore.members, hconf] at hmem
  | some conf =>
    have hm : s.members = AudioConference.members conf := by simp [MixCore.members, hconf]
    refine ⟨conf, rfl, ?_⟩
    rw [AudioConference.members_removeMember conf ep (hm ▸ hmem), ← hm]
    exact h.agree.remove ho

theorem Settled.addMember (h : Settled s) {conf : Mixer} (hconf : s.conf = some conf)
    (ep : Endpoint) (hfree : s.held ep.owner = none) :
    Agree Endpoint.owner (AudioConference.members (AudioConference.addMember conf ep))
      (Function.update s.held ep.owner (some ep)) := by
  have hm : s.members = AudioConference.members conf := by simp [MixCore.members, hconf]
  rw [AudioConference.members_addMember, ← hm]
  exact h.agree.add hfree

theorem settled_of_agree {conf : Mixer} {held' : EndpointOwner → Option Endpoint}
    (hagree : Agree Endpoint.owner (AudioConference.members conf) held')
    (hconf : s.conf = some conf) (hheld : s.held = held')
    (hlocal : s.localParticipant = s.localEndpoint.isSome)
    (hstream : ∀ c, (s.call c).endpoint.isSome → (s.call c).audio ≠ .absent) : Settled s where
  agree := by
    have hm : s.members = AudioConference.members conf := by simp [MixCore.members, hconf]
    rw [hm, hheld]
    exact hagree
  localUser := hlocal
  stream := hstream

theorem Settled.conf_of_held (h : Settled s) {o : EndpointOwner} (ho : s.held o ≠ none) :
    s.conf.isSome := by
  obtain ⟨ep, hep⟩ := Option.ne_none_iff_exists'.mp ho
  obtain ⟨conf, hconf, -⟩ := h.remove hep
  rw [hconf]
  rfl

theorem Settled.conf_of_localParticipant (h : Settled s) (hl : s.localParticipant = true) :
    s.conf.isSome := by
  rw [h.localUser] at hl
  exact h.conf_of_held (o := .localUser) (Option.isSome_iff_ne_none.mp hl)

theorem removeLocalEndpoint_spec (h : Settled s) :
    Returns s.removeLocalEndpoint fun s' => Settled s' ∧ s'.localParticipant = false ∧
      s'.call = s.call ∧ s'.conf.isSome = s.conf.isSome ∧
      s'.recordEndpoint = s.recordEndpoint := by
  unfold removeLocalEndpoint
  cases hl : s.localEndpoint with
  | none =>
    refine .some ⟨h, ?_, rfl, rfl, rfl⟩
    rw [h.localUser, hl]
    rfl
  | some ep =>
    obtain ⟨conf, hconf, hagree⟩ := h.remove (o := .localUser) hl
    simp only [hconf]
    refine .some ⟨settled_of_agree hagree rfl ?_ rfl h.stream, rfl, rfl, rfl, rfl⟩
    funext o
    cases o <;> rfl

theorem leaveConference_spec (h : Settled s) :
    Returns s.leaveConference fun s' => Settled s' ∧ s'.conf.isSome = s.conf.isSome := by
  unfold leaveConference
  refine .ite (fun _ => ?_) fun _ => .some ⟨h, rfl⟩
  exact (removeLocalEndpoint_spec h).mono fun _ h' => ⟨h'.1, h'.2.2.2.1⟩

theorem removeRecordEndpoint_spec (h : Settled s) :
    Returns s.removeRecordEndpoint fun s' => Settled s' ∧ s'.conf.isSome = s.conf.isSome := by
  unfold removeRecordEndpoint
  cases hr : s.recordEndpoint with
  | none => exact .some ⟨h, rfl⟩
  | some ep =>
    obtain ⟨conf, hconf, hagree⟩ := h.remove (o := .recorder) hr
    simp only [hconf]
    refine .some ⟨settled_of_agree hagree rfl ?_ h.localUser h.stream, rfl⟩
    funext o
    cases o <;> rfl

theorem addLocalEndpoint_spec (h : Settled s) (hconf : s.conf.isSome)
    (hl : s.localParticipant = false) :
    Returns s.addLocalEndpoint fun s' => Settled s' ∧ s'.localParticipant = true ∧
      s'.call = s.call ∧ s'.conf.isSome := by
  obtain ⟨conf, hconf⟩ := Option.isSome_iff_exists.mp hconf
  have hfree : s.held .localUser = none := by
    have := h.localUser
    rw [hl] at this
    exact Option.isSome_eq_false_iff.mp this.symm |> Option.isNone_iff_eq_none.mp
  have hagree := h.addMember hconf ⟨.localUser, s.made⟩ hfree
  unfold addLocalEndpoint
  simp only [hconf]
  refine .some ⟨settled_of_agree hagree rfl ?_ rfl h.stream, rfl, rfl, rfl⟩
  funext o
  cases o <;> rfl

theorem callAddToConf_spec (h : Settled s) (hconf : s.conf.isSome)
    (hfree : (s.call c).endpoint = none) (hstream : (s.call c).audio ≠ .absent) :
    Returns (s.callAddToConf c) Settled := by
  obtain ⟨conf, hconf⟩ := Option.isSome_iff_exists.mp hconf
  have hagree := h.addMember hconf ⟨.call c, s.made⟩ hfree
  unfold callAddToConf
  simp only [hconf]
  refine .some (settled_of_agree hagree rfl ?_ h.localUser ?_)
  · exact held_edit (s := s) (c := c) fun d => { d with endpoint := some ⟨.call c, s.made⟩ }
  · intro d hd
    by_cases hdc : d = c
    · subst hdc
      simpa using hstream
    · simp only [edit_of_ne _ hdc] at hd ⊢
      exact h.stream d hd

theorem callRemoveFromConf_spec (h : Settled s) (he : (s.call c).endpoint.isSome) :
    Returns (s.callRemoveFromConf c) fun s' => Settled s' ∧ TakenOff c s s' := by
  obtain ⟨ep, hep⟩ := Option.isSome_iff_exists.mp he
  obtain ⟨conf, hconf, hagree⟩ := h.remove (o := .call c) hep
  unfold callRemoveFromConf
  simp only [hconf, hep]
  refine .some ⟨settled_of_agree hagree rfl ?_ h.localUser ?_,
    ⟨by simp [hconf], rfl, rfl, fun _ hd => Function.update_of_ne hd _ _⟩,
    by simp, by simp, by simp, by simp⟩
  · exact held_edit (s := s) (c := c) fun d => { d with endpoint := none }
  · intro d hd
    by_cases hdc : d = c
    · subst hdc
      simp at hd
    · simp only [edit_of_ne _ hdc] at hd ⊢
      exact h.stream d hd

/-! ## Streams -/

theorem stopMediaStreams_spec (h : Settled s) :
    Returns (s.stopMediaStreams c) fun s' => Settled s' ∧ TakenOff c s s' := by
  unfold stopMediaStreams
  refine .ite (fun habsent => .some ⟨h, .refl ?_⟩) fun _ => ?_
  · by_contra hne
    exact h.stream c (Option.isSome_iff_ne_none.mpr hne) habsent
  · have hremove : Returns (if (s.call c).endpoint.isSome then s.callRemoveFromConf c else some s)
        fun s' => Settled s' ∧ TakenOff c s s' := by
      refine .ite (fun he => callRemoveFromConf_spec h he) fun he => .some ⟨h, .refl ?_⟩
      exact Option.not_isSome_iff_eq_none.mp he
    refine hremove.bind fun s₁ ⟨h₁, hoff⟩ => .some ⟨?_, ?_⟩
    · exact h₁.edit _ rfl fun he => absurd hoff.endpoint (Option.isSome_iff_ne_none.mp he)
    · refine ⟨hoff.toOnlyCall.trans (onlyCall_edit _), ?_, ?_, ?_, ?_⟩
      · simpa using hoff.endpoint
      · simpa using hoff.vars
      · simpa using hoff.inConference
      · simpa using hoff.currentInConference

theorem initMediaStreams_spec (h : Settled s) :
    Settled (s.initMediaStreams c) ∧ ((s.initMediaStreams c).call c).audio ≠ .absent := by
  have haudio : ((s.initMediaStreams c).call c).audio ≠ .absent := by
    unfold initMediaStreams
    rw [edit_self]
    by_cases habsent : (s.call c).audio = .absent
    · simp [habsent]
    · simp [habsent]
  refine ⟨h.edit _ rfl fun _ => ?_, haudio⟩
  simpa [initMediaStreams] using haudio

theorem startAudioStream_spec (h : Settled s) (haudio : (s.call c).audio ≠ .absent)
    (hjoin : a.accepted → (s.call c).inConference → s.conf.isSome ∧ (s.call c).endpoint = none) :
    Returns (s.startAudioStream a c) Settled := by
  unfold startAudioStream
  refine .ite (fun haccepted => ?_) fun _ => .some h
  generalize hs₁ : (if a.starts then s.edit c fun d => { d with audio := .started } else s) = s₁
  have h₁ : Settled s₁ ∧ (s₁.call c).audio ≠ .absent ∧ s₁.conf = s.conf ∧
      (s₁.call c).inConference = (s.call c).inConference ∧
      (s₁.call c).endpoint = (s.call c).endpoint := by
    subst hs₁
    by_cases hstarts : a.starts
    · rw [if_pos hstarts, edit_self]
      exact ⟨h.edit _ rfl fun _ => MediaStreamState.noConfusion, MediaStreamState.noConfusion,
        rfl, rfl, rfl⟩
    · rw [if_neg hstarts]
      exact ⟨h, haudio, rfl, rfl, rfl⟩
  obtain ⟨hsettled, haudio₁, hconf, hin, hendpoint⟩ := h₁
  have hadd : Returns (if (s₁.call c).inConference then s₁.callAddToConf c else some s₁)
      Settled := by
    refine .ite (fun hc => ?_) fun _ => .some hsettled
    obtain ⟨hm, he⟩ := hjoin haccepted (hin ▸ hc)
    exact callAddToConf_spec hsettled (hconf ▸ hm) (hendpoint.trans he) haudio₁
  exact hadd.bind fun _ h₂ => .some (h₂.editRest _ (fun _ => rfl) fun _ => rfl)

/-- The call connects its stream to the mixer. -/
def joins (a : MixAnswers) (c : CallId) (s : MixCore Mixer) : Bool :=
  !s.kept a c && a.accepted && (s.call c).inConference

theorem updateStreams_spec (h : Settled s)
    (hjoin : s.joins a c → s.conf.isSome ∧ ((s.call c).endpoint = none ∨ s.running a c)) :
    Returns (s.updateStreams a c) Settled := by
  unfold updateStreams
  refine .ite (fun _ => .some h) fun hkept => ?_
  have hstop : Returns (if s.running a c then s.stopMediaStreams c else some s) fun s' =>
      Settled s' ∧ s'.conf.isSome = s.conf.isSome ∧
        (s'.call c).inConference = (s.call c).inConference ∧
        ((s.call c).endpoint = none ∨ s.running a c → (s'.call c).endpoint = none) := by
    refine .ite (fun hr => ?_) fun hr => .some ⟨h, rfl, rfl, fun hor => hor.resolve_right hr⟩
    exact (stopMediaStreams_spec h).mono fun s' ⟨h', hoff⟩ =>
      ⟨h', hoff.conf, hoff.inConference, fun _ => hoff.endpoint⟩
  refine hstop.bind fun s₁ ⟨h₁, hconf, hin, hnone⟩ => ?_
  obtain ⟨hinit, haudio⟩ := initMediaStreams_spec (c := c) h₁
  refine startAudioStream_spec hinit haudio fun haccepted hc => ?_
  have hc' : (s.call c).inConference := by simpa [initMediaStreams, hin] using hc
  obtain ⟨hm, he⟩ := hjoin (by simp [joins, hkept, haccepted, hc'])
  refine ⟨?_, ?_⟩
  · show s₁.conf.isSome
    rw [hconf]
    exact hm
  · simpa [initMediaStreams] using hnone he

/-! ## Calls -/

theorem pauseCall_spec (h : Settled s) :
    Returns (s.pauseCall a c) fun r => Settled r.2 ∧ OnlyCall c s r.2 := by
  unfold pauseCall
  refine .ite (fun _ => ?_) fun _ => .some ⟨h, .refl⟩
  have h₀ : Settled { s with currentCall := none } := ⟨h.agree, h.localUser, h.stream⟩
  refine (stopMediaStreams_spec h₀).bind fun s₁ ⟨h₁, hoff⟩ => .some ⟨h₁.enterState _, ?_⟩
  have honly : OnlyCall c s s₁ := ⟨hoff.conf, hoff.localParticipant, hoff.calls, hoff.others⟩
  exact honly.trans (onlyCall_enterState _)

theorem updateCall_spec (h : Settled s) (inConference : Bool) :
    Settled (s.updateCall a c inConference).2 ∧
      OnlyCall c s (s.updateCall a c inConference).2 := by
  unfold updateCall
  cases updatingState (s.call c).vars.state with
  | none => exact ⟨h, .refl⟩
  | some next =>
    have h' := (h.enterState (c := c) next).editRest (c := c)
      (fun d => { d with inConference := inConference }) (fun _ => rfl) fun _ => rfl
    exact ⟨h', (onlyCall_enterState next).trans
      (onlyCall_edit fun d => { d with inConference := inConference })⟩

theorem sendResume_spec (h : Settled s) :
    Settled (s.sendResume a c).2 ∧ OnlyCall c s (s.sendResume a c).2 := by
  have h' := h.enterState (c := c) .resuming
  have honly : OnlyCall c s (s.enterState c .resuming) := onlyCall_enterState _
  unfold sendResume
  by_cases hs : a.updateSent c
  · rw [if_pos hs]
    by_cases hc : ((s.enterState c .resuming).call c).inConference
    · simp only [hc, if_true]
      exact ⟨h', honly⟩
    · simp only [hc]
      exact ⟨⟨h'.agree, h'.localUser, h'.stream⟩,
        honly.conf, honly.localParticipant, honly.calls, honly.others⟩
  · rw [if_neg hs]
    exact ⟨h, .refl⟩

theorem preemptSoundResources_spec (h : Settled s) :
    Returns (s.preemptSoundResources a) Settled := by
  unfold preemptSoundResources
  refine .ite (fun _ => (leaveConference_spec h).mono fun _ h' => h'.1) fun _ => ?_
  cases s.currentCall with
  | none => exact .some h
  | some cur => exact (pauseCall_spec h).map fun _ h' => h'.1

theorem resumeCall_spec (h : Settled s) :
    Returns (s.resumeCall a c) fun r =>
      Settled r.2 ∧ ((s.call c).inConference → OnlyCall c s r.2) := by
  unfold resumeCall
  refine .ite (fun _ => .some ⟨h, fun _ => .refl⟩) fun _ => ?_
  refine .ite (fun _ => .some ?_) fun hc => ?_
  · exact ⟨(sendResume_spec h).1, fun _ => (sendResume_spec h).2⟩
  refine .ite (fun _ => .some ⟨h, fun _ => .refl⟩) fun _ => ?_
  refine (preemptSoundResources_spec h).bind fun s₁ h₁ => .some ?_
  exact ⟨(sendResume_spec h₁).1, fun hc' => absurd hc' hc⟩

/-! ## Into the conference -/

theorem clearCurrent_spec (h : Settled s) :
    Settled (if s.currentCall = some c then { s with currentCall := none } else s) ∧
      OnlyCall c s (if s.currentCall = some c then { s with currentCall := none } else s) ∧
      (if s.currentCall = some c then { s with currentCall := none } else s).call = s.call := by
  by_cases hcur : s.currentCall = some c
  · rw [if_pos hcur]
    exact ⟨⟨h.agree, h.localUser, h.stream⟩, ⟨rfl, rfl, rfl, fun _ _ => rfl⟩, rfl⟩
  · rw [if_neg hcur]
    exact ⟨h, .refl, rfl⟩

theorem remake_spec (h : Settled s) (p : Prop) [Decidable p] :
    Returns (if p then (s.stopMediaStreams c).map (·.initMediaStreams c) else some s) fun s' =>
      Settled s' ∧ OnlyCall c s s' ∧ (s'.call c).vars = (s.call c).vars := by
  refine .ite (fun _ => ?_) fun _ => .some ⟨h, .refl, rfl⟩
  refine (stopMediaStreams_spec h).map fun s' ⟨h', hoff⟩ => ?_
  refine ⟨(initMediaStreams_spec h').1, hoff.toOnlyCall.trans (onlyCall_edit _), ?_⟩
  simpa [initMediaStreams] using hoff.vars

theorem checkInit_spec (h : Settled s) :
    Settled s.checkInit ∧ s.checkInit.conf.isSome ∧ s.checkInit.call = s.call ∧
      s.checkInit.localParticipant = s.localParticipant := by
  unfold checkInit
  cases hconf : s.conf with
  | some conf => exact ⟨h, by simp [hconf], rfl, rfl⟩
  | none =>
    refine ⟨⟨?_, h.localUser, h.stream⟩, rfl, rfl, rfl⟩
    have hm : s.members = 0 := by simp [MixCore.members, hconf]
    have hnew : AudioConference.members (AudioConference.new : Mixer) = 0 :=
      AudioConference.members_new
    have hagree := h.agree
    rw [hm, ← hnew] at hagree
    exact hagree

/-- What adding a call that is not in the conference leads to. -/
structure Added (c : CallId) (s s' : MixCore Mixer) : Prop where
  settled : Settled s'
  conf : s'.conf.isSome
  localParticipant : s'.localParticipant = (s.localParticipant || s.takesIn c)
  takesIn : s'.takesIn c = false
  others : ∀ d ≠ c, s'.call d = s.call d

theorem addToConference_spec (h : Settled s) (hout : (s.call c).currentInConference = false)
    (hlocal : s.takesIn c → s.localParticipant = false) :
    Returns (s.addToConference a c) fun r => Added c s r.2 := by
  obtain ⟨h₀, hconf₀, hcall₀, hlocal₀⟩ := checkInit_spec h
  unfold addToConference
  rw [if_neg (by simp [hout])]
  simp only
  rw [hcall₀]
  refine .ite (fun hpaused => ?_) fun hpaused => .ite (fun hrunning => ?_) fun hrunning => ?_
  · -- resumed, without the local user
    have hedit := h₀.editRest (c := c) (fun d => { d with inConference := true })
      (fun _ => rfl) fun _ => rfl
    have honly : OnlyCall c s.checkInit
        (s.checkInit.edit c fun d => { d with inConference := true }) := onlyCall_edit _
    have hstate : ((s.checkInit.edit c fun d => { d with inConference := true }).call c).vars.state
        = .paused := by rw [edit_self, hcall₀]; exact hpaused
    have hresume : (s.checkInit.edit c fun d => { d with inConference := true }).resumeCall a c =
        some ((s.checkInit.edit c fun d => { d with inConference := true }).sendResume a c) := by
      unfold resumeCall
      rw [if_neg (not_not_intro hstate), if_pos (by rw [edit_self])]
    rw [hresume]
    obtain ⟨hsent, hsentOnly⟩ := sendResume_spec (a := a) (c := c) hedit
    have hall := honly.trans hsentOnly
    refine .some ⟨hsent, hall.conf.trans hconf₀, ?_, sendResume_takesIn hstate, fun d hd => ?_⟩
    · have htakes : s.takesIn c = false := takesIn_of_state (by rw [hpaused]; decide)
      rw [htakes, Bool.or_false]
      exact hall.localParticipant.trans hlocal₀
    · rw [hall.others d hd, hcall₀]
  · -- the streams are made anew, and the local user follows the call
    have htakes : s.takesIn c = true := by simp [takesIn, hout, hrunning]
    refine (remake_spec h₀ _).bind fun s₁ ⟨h₁, honly₁, hvars₁⟩ => ?_
    obtain ⟨h₂, honly₂, hcall₂⟩ := clearCurrent_spec (c := c) h₁
    generalize (if s₁.currentCall = some c then { s₁ with currentCall := none } else s₁) = s₂
      at h₂ honly₂ hcall₂
    have hstate₂ : (s₂.call c).vars.state = .streamsRunning := by
      rw [hcall₂, hvars₁, hcall₀]
      exact hrunning
    obtain ⟨h₃, honly₃⟩ := updateCall_spec (a := a) (c := c) h₂ true
    have htakes₃ := updateCall_takesIn (a := a) hstate₂ true
    have hall := (honly₁.trans honly₂).trans honly₃
    refine (addLocalEndpoint_spec h₃ (hall.conf.trans hconf₀) ?_).bind
      fun s₄ ⟨h₄, hlocal₄, hcall₄, hconf₄⟩ => .some ⟨h₄, hconf₄, ?_, ?_, fun d hd => ?_⟩
    · rw [hall.localParticipant, hlocal₀]
      exact hlocal htakes
    · rw [hlocal₄, htakes, Bool.or_true]
    · show s₄.takesIn c = false
      unfold takesIn at htakes₃ ⊢
      rw [hcall₄]
      exact htakes₃
    · rw [hcall₄, hall.others d hd, hcall₀]
  · have htakes : s.takesIn c = false := by simp [takesIn, hrunning]
    refine .some ⟨h₀, hconf₀, by simp [hlocal₀, htakes], ?_, fun d _ => by rw [hcall₀]⟩
    simpa [takesIn, hcall₀] using htakes

theorem enterConference_spec (h : Settled s)
    (hconf : s.soundResourcesLocked ∨ s.conf.isSome) :
    Returns (s.enterConference a) fun r => Settled r.2 := by
  unfold enterConference
  refine .ite (fun _ => .some h) fun hlocked => ?_
  refine @Returns.bind _ _ _ (fun s' => Settled s' ∧ s'.conf.isSome) _ _ ?_ fun s₁ h₁ => ?_
  · have hsome := hconf.resolve_left hlocked
    cases s.currentCall with
    | none => exact .some ⟨h, hsome⟩
    | some cur => exact (pauseCall_spec h).map fun _ h' => ⟨h'.1, h'.2.conf.trans hsome⟩
  · have hadd : Returns (if !s₁.localParticipant then s₁.addLocalEndpoint else some s₁)
        Settled := by
      refine .ite (fun hl => ?_) fun _ => .some h₁.1
      exact (addLocalEndpoint_spec h₁.1 h₁.2 (by simpa using hl)).mono fun _ h' => h'.1
    exact hadd.bind fun _ h₂ => .some h₂

/-- What the loop of `add_all` still has to go through: one of the calls to come takes the local
user in at most, and somebody has created the mixer or will. -/
structure Joining (l : List CallId) (s : MixCore Mixer) : Prop where
  settled : Settled s
  once : (if s.localParticipant then 1 else 0) + l.countP s.takesIn ≤ 1
  mixer : s.conf.isSome ∨ (∃ c ∈ l, (s.call c).currentInConference = false) ∨
    s.soundResourcesLocked

theorem addCalls_spec (l : List CallId) (h : Joining l s) :
    Returns (s.addCalls a l) (Joining []) := by
  refine Returns.foldlM (fun c l s h => ?_) l s h
  have hcount := h.once
  rw [List.countP_cons] at hcount
  refine .ite (fun hin => .some ⟨h.settled, by omega, ?_⟩) fun hin => ?_
  · rcases h.mixer with hm | ⟨d, hd, hout⟩ | hlocked
    · exact .inl hm
    · refine .inr (.inl ⟨d, (List.mem_cons.mp hd).resolve_left ?_, hout⟩)
      rintro rfl
      simp [hin] at hout
    · exact .inr (.inr hlocked)
  · have hout : (s.call c).currentInConference = false := by simpa using hin
    refine (addToConference_spec h.settled hout fun htakes => ?_).map fun r hadded => ?_
    · by_contra hl
      rw [if_pos (Bool.not_eq_false _ ▸ hl), if_pos htakes] at hcount
      omega
    · refine ⟨hadded.settled, ?_, .inl hadded.conf⟩
      have hle : l.countP r.2.takesIn ≤ l.countP s.takesIn := by
        refine List.countP_mono_left fun d _ hd => ?_
        by_cases hdc : d = c
        · subst hdc
          simp [hadded.takesIn] at hd
        · simpa [MixCore.takesIn, hadded.others d hdc] using hd
      rw [hadded.localParticipant]
      cases hl : s.localParticipant with
      | true =>
        rw [if_pos hl] at hcount
        rw [Bool.true_or, if_pos rfl]
        omega
      | false =>
        rw [Bool.false_or]
        omega

theorem addAllToConference_spec (h : Joining s.calls s) :
    Returns (s.addAllToConference a) Settled := by
  unfold addAllToConference
  refine (addCalls_spec s.calls h).bind fun s' h' => ?_
  refine (enterConference_spec h'.settled ?_).map fun _ h'' => h''
  rcases h'.mixer with hm | ⟨d, hd, -⟩ | hlocked
  · exact .inr hm
  · exact absurd hd (List.not_mem_nil)
  · exact .inl hlocked

/-! ## Out of the conference -/

theorem removeFromConferenceInternal_spec (h : Settled s) (active : Bool) :
    Returns (s.removeFromConferenceInternal a c active) fun r =>
      Settled r.2 ∧ r.2.conf.isSome = s.conf.isSome := by
  unfold removeFromConferenceInternal
  refine .ite (fun _ => .some ⟨h, rfl⟩) fun _ => ?_
  have hedit := h.editRest (c := c) (fun d => { d with inConference := false })
    (fun _ => rfl) fun _ => rfl
  refine .ite (fun _ => ?_) fun _ => ?_
  · have hleave : Returns (if s.localParticipant then
          (s.edit c fun d => { d with inConference := false }).leaveConference
        else some (s.edit c fun d => { d with inConference := false }))
        fun s' => Settled s' ∧ s'.conf.isSome = s.conf.isSome :=
      .ite (fun _ => leaveConference_spec hedit) fun _ => .some ⟨hedit, rfl⟩
    refine hleave.bind fun s₁ ⟨h₁, hconf₁⟩ => .some ?_
    obtain ⟨h₂, honly₂⟩ := updateCall_spec (a := a) (c := c) h₁ false
    exact ⟨h₂, honly₂.conf.trans hconf₁⟩
  · exact (pauseCall_spec hedit).mono fun _ ⟨h', honly⟩ => ⟨h', honly.conf⟩

theorem convertConferenceToCall_spec (h : Settled s) :
    Returns (s.convertConferenceToCall a) fun r =>
      Settled r.2 ∧ r.2.conf.isSome = s.conf.isSome := by
  unfold convertConferenceToCall
  refine .ite (fun _ => .some ⟨h, rfl⟩) fun _ => ?_
  cases s.calls.find? fun c => (s.call c).inConference with
  | none => exact .some ⟨h, rfl⟩
  | some rc => exact removeFromConferenceInternal_spec h _

theorem removeFromConference_spec (h : Settled s) :
    Returns (s.removeFromConference a c) fun r => Settled r.2 := by
  unfold removeFromConference
  refine (removeFromConferenceInternal_spec h false).bind fun r ⟨h₁, _⟩ => ?_
  refine .ite (fun _ => .some h₁) fun _ => .ite (fun _ => ?_) fun _ => .some h₁
  exact (convertConferenceToCall_spec h₁).mono fun _ h' => h'.1

/-- A mixer without members is not missed. -/
theorem Settled.dropEmpty (h : Settled s) {conf : Mixer} (hconf : s.conf = some conf)
    (hsize : AudioConference.getSize conf = 0) :
    Settled ({ s with conf := none } : MixCore Mixer) where
  agree := by
    have hempty : s.members = 0 := by
      rw [AudioConference.getSize_eq conf, Multiset.card_eq_zero] at hsize
      simpa [MixCore.members, hconf] using hsize
    have hagree := h.agree
    rw [hempty] at hagree
    exact hagree
  localUser := h.localUser
  stream := h.stream

theorem conferenceCheckUninit_spec (h : Settled s) :
    Returns (s.conferenceCheckUninit a) Settled := by
  unfold conferenceCheckUninit
  refine .ite (fun _ => .some h) fun hnone => ?_
  have hconf : s.conf.isSome := by simpa [Option.isSome_iff_ne_none] using hnone
  have hconvert : Returns (if s.remoteParticipantsCount = 1 && !s.terminated then
        (s.convertConferenceToCall a).map (·.2) else some s)
      fun s' => Settled s' ∧ s'.conf.isSome := by
    refine .ite (fun _ => ?_) fun _ => .some ⟨h, hconf⟩
    exact (convertConferenceToCall_spec h).map fun _ ⟨h', hc⟩ => ⟨h', hc.trans hconf⟩
  refine hconvert.bind fun s₁ ⟨h₁, hconf₁⟩ => ?_
  have hempty : Returns (if s.remoteParticipantsCount = 0 then do
        let s ← (if s₁.localParticipant then s₁.removeLocalEndpoint else some s₁)
        s.removeRecordEndpoint
      else some s₁) fun s' => Settled s' ∧ s'.conf.isSome := by
    refine .ite (fun _ => ?_) fun _ => .some ⟨h₁, hconf₁⟩
    have hleave : Returns (if s₁.localParticipant then s₁.removeLocalEndpoint else some s₁)
        fun s' => Settled s' ∧ s'.conf.isSome := by
      refine .ite (fun _ => ?_) fun _ => .some ⟨h₁, hconf₁⟩
      exact (removeLocalEndpoint_spec h₁).mono fun _ h' => ⟨h'.1, h'.2.2.2.1.trans hconf₁⟩
    exact hleave.bind fun _ ⟨h₂, hconf₂⟩ =>
      (removeRecordEndpoint_spec h₂).mono fun _ ⟨h', hc⟩ => ⟨h', hc.trans hconf₂⟩
  refine hempty.bind fun s₂ ⟨h₂, hconf₂⟩ => ?_
  obtain ⟨conf, hsome⟩ := Option.isSome_iff_exists.mp hconf₂
  rw [hsome]
  by_cases hsize : AudioConference.getSize conf = 0
  · exact .some (by rw [if_pos hsize]; exact h₂.dropEmpty hsome hsize)
  · exact .some (by rw [if_neg hsize]; exact h₂)

theorem setTerminated_spec (h : Settled s) : Returns (s.setTerminated a c) Settled := by
  unfold setTerminated
  refine (stopMediaStreams_spec h).bind fun s₁ ⟨h₁, _⟩ => ?_
  obtain ⟨h₂, -⟩ := clearCurrent_spec (c := c) h₁
  exact conferenceCheckUninit_spec ⟨h₂.agree, h₂.localUser, h₂.stream⟩

theorem endCall_spec (h : Settled s) (state : CallState) :
    Returns (s.endCall a c state) Settled := by
  have hvars : ∀ vars : StateVars, Settled (s.edit c fun d => { d with vars := vars }) :=
    fun vars => h.editRest _ (fun _ => rfl) fun _ => rfl
  unfold endCall
  rcases (s.call c).vars.setState state with ⟨vars, outcome⟩
  cases outcome with
  | notified => exact setTerminated_spec (hvars vars)
  | same => exact .some (hvars vars)
  | spurious => exact .some (hvars vars)

theorem terminateCall_spec (h : Settled s) : Returns (s.terminateCall a c) Settled := by
  unfold terminateCall
  refine .ite (fun _ => .some h) fun _ => ?_
  exact (stopMediaStreams_spec h).bind fun s₁ ⟨h₁, _⟩ => endCall_spec h₁ .end

theorem terminateConference_spec (h : Settled s) : Returns (s.terminateConference a) Settled := by
  unfold terminateConference
  refine Returns.foldlM (I := fun _ => Settled) (fun c l s h => ?_) s.calls _
    ⟨h.agree, h.localUser, h.stream⟩
  exact .ite (fun _ => terminateCall_spec h) fun _ => .some h

theorem startConferenceRecording_spec (h : Settled s) :
    Returns s.startConferenceRecording Settled := by
  unfold startConferenceRecording
  cases hconf : s.conf with
  | none => exact .some h
  | some conf =>
    cases hr : s.recordEndpoint with
    | some ep => exact .some h
    | none =>
      have hagree := h.addMember hconf ⟨.recorder, s.made⟩ hr
      refine .some (settled_of_agree hagree rfl ?_ h.localUser h.stream)
      funext o
      cases o <;> rfl

/-! ## Runs -/

/-- What happens to a conference: what the application asks, what becomes of the streams of the
calls, and, of everything else, the states, parameters and lists it leaves behind. -/
inductive ConferenceOp
  | add (c : CallId)
  | addAll
  | remove (c : CallId)
  | enter
  | leave
  | terminate
  | startRecording
  | updateStreams (c : CallId)
  | stopStreams (c : CallId)
  | pause (c : CallId)
  | resume (c : CallId)
  | terminateCall (c : CallId)
  | callEnds (c : CallId) (state : CallState)
  | callChanges (c : CallId) (vars : StateVars) (inConference : Bool)
  | listChanges (calls : List CallId) (currentCall : Option CallId)

/-- An operation; `none` when it follows a mixer or an endpoint that is not there. -/
def step (a : MixAnswers) (s : MixCore Mixer) : ConferenceOp → Option (MixCore Mixer)
  | .add c => (s.addToConference a c).map (·.2)
  | .addAll => s.addAllToConference a
  | .remove c => (s.removeFromConference a c).map (·.2)
  | .enter => (s.enterConference a).map (·.2)
  | .leave => s.leaveConference
  | .terminate => s.terminateConference a
  | .startRecording => s.startConferenceRecording
  | .updateStreams c => s.updateStreams a c
  | .stopStreams c => s.stopMediaStreams c
  | .pause c => (s.pauseCall a c).map (·.2)
  | .resume c => (s.resumeCall a c).map (·.2)
  | .terminateCall c => s.terminateCall a c
  | .callEnds c state => s.endCall a c state
  | .callChanges c vars inConference =>
      some (s.edit c fun d => { d with vars := vars, inConference := inConference })
  | .listChanges calls currentCall => some { s with calls := calls, currentCall := currentCall }

/-- The states that runs reach, when each operation is one that is `allowed`. -/
inductive Reached (allowed : MixAnswers → MixCore Mixer → ConferenceOp → Prop) :
    MixCore Mixer → Prop
  | start : Reached allowed {}
  | step {s s' : MixCore Mixer} (a : MixAnswers) (op : ConferenceOp) :
      Reached allowed s → allowed a s op → s.step a op = some s' → Reached allowed s'

/-- The operations that find what they take for granted: a mixer to enter, a local user that is not
in yet, and a mixer, and no endpoint, where the stream of a call is connected. -/
def Careful (a : MixAnswers) (s : MixCore Mixer) : ConferenceOp → Prop
  | .add c => s.takesIn c → s.localParticipant = false
  | .addAll =>
      (if s.localParticipant then 1 else 0) + s.calls.countP s.takesIn ≤ 1 ∧
        (s.conf.isSome ∨ (∃ c ∈ s.calls, (s.call c).currentInConference = false) ∨
          s.soundResourcesLocked)
  | .enter => s.soundResourcesLocked ∨ s.conf.isSome
  | .updateStreams c =>
      s.joins a c → s.conf.isSome ∧ ((s.call c).endpoint = none ∨ s.running a c)
  | _ => True

instance (a : MixAnswers) (s : MixCore Mixer) (op : ConferenceOp) : Decidable (Careful a s op) :=
  match op with
  | .add c => inferInstanceAs (Decidable (s.takesIn c = true → s.localParticipant = false))
  | .addAll => inferInstanceAs (Decidable (_ ∧ _))
  | .enter => inferInstanceAs (Decidable (_ ∨ _))
  | .updateStreams c => inferInstanceAs (Decidable (s.joins a c = true → _ ∧ _))
  | .remove _ | .leave | .terminate | .startRecording | .stopStreams _ | .pause _ | .resume _
  | .terminateCall _ | .callEnds _ _ | .callChanges _ _ _ | .listChanges _ _ =>
      inferInstanceAs (Decidable True)

/-- The conference is what its data says it is. -/
structure Sound (s : MixCore Mixer) : Prop where
  /-- The mixer exists while the local user or a call is in it. -/
  mixer : s.localParticipant = true ∨ (∃ c, (s.call c).endpoint.isSome) → s.conf.isSome
  /-- The local user is in the mixer once when `local_participant` says so, and else not at all. -/
  localUser : Multiset.card (itemsOf Endpoint.owner s.members .localUser)
    = if s.localParticipant then 1 else 0
  localEndpoint : itemsOf Endpoint.owner s.members .localUser = single s.localEndpoint
  /-- The endpoints of a call in the mixer are the one it knows. -/
  calls : ∀ c, itemsOf Endpoint.owner s.members (.call c) = single (s.call c).endpoint

theorem Settled.sound (h : Settled s) : Sound s where
  mixer hin := by
    rcases hin with hl | ⟨c, hc⟩
    · exact h.conf_of_localParticipant hl
    · exact h.conf_of_held (o := .call c) (Option.isSome_iff_ne_none.mp hc)
  localUser := by
    rw [h.agree .localUser, h.localUser]
    show Multiset.card (single s.localEndpoint) = _
    cases s.localEndpoint with
    | none => rfl
    | some ep => rfl
  localEndpoint := h.agree .localUser
  calls c := h.agree (.call c)

theorem settled_start : Settled ({} : MixCore Mixer) where
  agree := by
    intro o
    cases o <;> rfl
  localUser := rfl
  stream c hc := absurd hc Bool.false_ne_true

theorem step_spec (h : Settled s) {op : ConferenceOp} (hop : Careful a s op) :
    Returns (s.step a op) Settled := by
  cases op with
  | add c =>
    by_cases hin : (s.call c).currentInConference
    · show Returns ((s.addToConference a c).map (·.2)) Settled
      unfold addToConference
      rw [if_pos hin]
      exact .some h
    · exact (addToConference_spec h (by simpa using hin) hop).map fun _ h' => h'.settled
  | addAll => exact addAllToConference_spec ⟨h, hop.1, hop.2⟩
  | remove c => exact (removeFromConference_spec h).map fun _ h' => h'
  | enter => exact (enterConference_spec h hop).map fun _ h' => h'
  | leave => exact (leaveConference_spec h).mono fun _ h' => h'.1
  | terminate => exact terminateConference_spec h
  | startRecording => exact startConferenceRecording_spec h
  | updateStreams c => exact updateStreams_spec h hop
  | stopStreams c => exact (stopMediaStreams_spec h).mono fun _ h' => h'.1
  | pause c => exact (pauseCall_spec h).map fun _ h' => h'.1
  | resume c => exact (resumeCall_spec h).map fun _ h' => h'.1
  | terminateCall c => exact terminateCall_spec h
  | callEnds c state => exact endCall_spec h state
  | callChanges c vars inConference => exact .some (h.editRest _ (fun _ => rfl) fun _ => rfl)
  | listChanges calls currentCall => exact .some ⟨h.agree, h.localUser, h.stream⟩

theorem settled_of_reached (h : Reached Careful s) : Settled s := by
  induction h with
  | start => exact settled_start
  | step a op _ hop hstep ih => exact (step_spec ih hop).of_eq hstep

/-- **Careful runs.** In every state a run of careful operations reaches, the conference is what
its data says it is, and every careful operation returns. -/
theorem conference_sound_of_careful (h : Reached Careful s) :
    Sound s ∧ ∀ a op, Careful a s op → (s.step a op).isSome :=
  ⟨(settled_of_reached h).sound,
    fun _ _ hop => (step_spec (settled_of_reached h) hop).isSome⟩

/-- A paused call is added, its stream starts in the conference, and the local user enters. -/
theorem conference_sound_entered : ∃ s : MixCore (List Endpoint),
    Sound s ∧ (s.call 0).endpoint = some ⟨.call 0, 0⟩ ∧ s.localEndpoint = some ⟨.localUser, 1⟩ := by
  have h₁ : Reached Careful (_ : MixCore (List Endpoint)) :=
    .step {} (.callChanges 0 ⟨.paused, .pausing⟩ false) .start trivial rfl
  have h₂ : Reached Careful (_ : MixCore (List Endpoint)) :=
    .step {} (.listChanges [0] none) h₁ trivial rfl
  have h₃ : Reached Careful (_ : MixCore (List Endpoint)) := .step {} (.add 0) h₂ (by decide) rfl
  have h₄ : Reached Careful (_ : MixCore (List Endpoint)) :=
    .step {} (.updateStreams 0) h₃ (by decide) rfl
  have h₅ : Reached Careful (_ : MixCore (List Endpoint)) := .step {} .enter h₄ (by decide) rfl
  exact ⟨_, (conference_sound_of_careful h₅).1, rfl, rfl⟩

/-- Without that care: there is no mixer to enter, two running calls bring the local user in twice,
and a mixer found empty at the end of one call is missed by another that was added before. -/
theorem conference_unsound :
    (¬ ∀ s : MixCore (List Endpoint), Reached (fun _ _ _ => True) s →
      Sound s ∧ ∀ a op, (s.step a op).isSome) ∧
    (({} : MixCore (List Endpoint)).step {} .enter = none) ∧
    (∃ s : MixCore (List Endpoint), Reached (fun _ _ _ => True) s ∧ ¬ Sound s) ∧
    ∃ s : MixCore (List Endpoint), Reached (fun _ _ _ => True) s ∧
      (s.call 0).inConference ∧ s.step {} (.updateStreams 0) = none := by
  have henter : ({} : MixCore (List Endpoint)).step {} .enter = none := rfl
  refine ⟨fun h => ?_, henter, ?_, ?_⟩
  · have hsome := (h {} .start).2 {} .enter
    rw [henter] at hsome
    exact Bool.false_ne_true hsome
  · have h₁ : Reached (fun _ _ _ => True) (_ : MixCore (List Endpoint)) :=
      .step {} (.callChanges 0 ⟨.streamsRunning, .connected⟩ false) .start trivial rfl
    have h₂ : Reached (fun _ _ _ => True) (_ : MixCore (List Endpoint)) :=
      .step {} (.callChanges 1 ⟨.streamsRunning, .pausedByRemote⟩ false) h₁ trivial rfl
    have h₃ : Reached (fun _ _ _ => True) (_ : MixCore (List Endpoint)) :=
      .step {} (.add 0) h₂ trivial rfl
    exact ⟨_, .step {} (.add 1) h₃ trivial rfl, fun h => absurd h.localUser (by decide)⟩
  · have h₁ : Reached (fun _ _ _ => True) (_ : MixCore (List Endpoint)) :=
      .step {} (.callChanges 0 ⟨.paused, .pausing⟩ false) .start trivial rfl
    have h₂ : Reached (fun _ _ _ => True) (_ : MixCore (List Endpoint)) :=
      .step {} (.callChanges 1 ⟨.paused, .pausing⟩ false) h₁ trivial rfl
    have h₃ : Reached (fun _ _ _ => True) (_ : MixCore (List Endpoint)) :=
      .step {} (.listChanges [0, 1] none) h₂ trivial rfl
    have h₄ : Reached (fun _ _ _ => True) (_ : MixCore (List Endpoint)) :=
      .step {} (.add 0) h₃ trivial rfl
    exact ⟨_, .step {} (.terminateCall 1) h₄ trivial rfl, rfl, rfl⟩

end Linphone.MixCore
