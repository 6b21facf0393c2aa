import Linphone.Call.Invites

/-!
# Answers to a re-INVITE or UPDATE

What becomes of a request within a dialog that changes the session, handled by `call_updating`
and the four functions under it (`coreapi/callbacks.c`, `linphonecore.c`): it is answered, or the
answer is left to the application with `defer_update`, or neither. The application may defer the
answer when it is told of `UpdatedByRemote`, or leave that to the configuration.

`callUpdating_settles_iff` is the exact condition, over the state of the call, the request and the
environment, under which the request is answered once or deferred.
-/

namespace Linphone

open Reentrant

/-! ## Runs with an application that defers -/

/-- `linphone_core_defer_call_update` on being told of the update, or nothing. -/
def defering (defers : Bool) (n : CallStateChanged) (s : Core) : Core :=
  if defers && n.cstate = .updatedByRemote && s.state n.call = .updatedByRemote then
    s.edited n.call fun d => { d with deferUpdate := true }
  else s

/-- How far a function of the core gets. -/
abbrev handling {α : Type} (answers : (q : Query) → q.Answer) (defers : Bool) (p : CoreProg α)
    (s : Core) : Option α × Core :=
  p.reached answers (defering defers) s

/-- A final response was sent on the operation of the call, or none was and the answer is deferred
to the application. -/
def Settled (s s' : Core) (c : CallId) : Prop :=
  (s'.call c).responses = (s.call c).responses + 1 ∨
    (s'.call c).responses = (s.call c).responses ∧ (s'.call c).data.deferUpdate = true ∧
      (s'.state c = .updatedByRemote ∨ s'.state c = .pausedByRemote)

/-! ## The condition -/

section conditions

variable (answers : (q : Query) → q.Answer) (c : CallId) (r : CallRec)

/-- The answer waits for ICE: for candidates, or for losing pairs. -/
def waitsForIce : Bool :=
  r.data.iceSession &&
    (answers (.prepareIce c) = .gathering ||
      answers (.prepareIce c) = .ready && answers (.flag .losingPairs c))

/-- `_linphone_core_accept_call_update` sends a response: with `keep_sdp_version` a remote
description to compare is there, and either it is the one of before or nothing waits for ICE. -/
def accepts : Bool :=
  if answers (.flag .keepSdpVersion c) then
    (answers (.remoteDescription c)).isSome &&
      (answers (.flag .sdpVersionUnchanged c) || !waitsForIce answers c r)
  else !waitsForIce answers c r

/-- `call_updated_by_remote` declines an offer: nothing in it can be accepted, or it is an UPDATE
that changes what needs the approval of the user. -/
def declines (isUpdate : Bool) : Bool :=
  let diff := (r.data.media.resultdesc.bind fun prev =>
    (answers (.finalDescription c)).map fun md =>
      salMediaDescriptionEquals (answers .mediaLib) prev md).getD .unchanged
  (answers (.remoteDescription c)).isSome &&
    ((answers (.finalDescription c)).any (fun md =>
      md.empty || answers (.flag .incompatibleSecurity c)) ||
      (isUpdate && (diff.cryptoPolicy || diff.streams)))

/-- `call_updated_by_remote` settles a request: only in `StreamsRunning` and `PausedByRemote` it
does so for a re-INVITE that it does not decline. -/
def settlesUpdated (defers isUpdate : Bool) : Bool :=
  declines answers c r isUpdate ||
    match r.vars.state with
    | .streamsRunning =>
        answers (.flag .deferUpdateDefault c) || defers || accepts answers c r
    | .pausedByRemote => answers (.flag .deferUpdateDefault c) || accepts answers c r
    | _ => isUpdate && accepts answers c r

/-- The condition under which `call_updating` settles a request. An earlier deferral that nothing
touches counts as one. -/
def settles (defers isUpdate : Bool) : Bool :=
  match answers (.remoteDescription c), r.vars.state with
  | none, .updatedByRemote =>
      settlesUpdated answers c r defers isUpdate || !isUpdate && r.data.deferUpdate
  | none, _ => settlesUpdated answers c r defers isUpdate
  | some rmd, .pausedByRemote =>
      if rmd.hasDir .sendRecv || rmd.hasDir .recvOnly then
        accepts answers c r || r.data.deferUpdate
      else settlesUpdated answers c r defers isUpdate
  | some _, .outgoingRinging | some _, .outgoingEarlyMedia | some _, .incomingEarlyMedia =>
      isUpdate && settlesUpdated answers c r defers isUpdate
  | some rmd, .streamsRunning | some rmd, .connected | some rmd, .paused =>
      if rmd.hasDir .sendOnly || rmd.hasDir .inactive then accepts answers c r
      else settlesUpdated answers c r defers isUpdate
  | some _, .updating | some _, .pausing | some _, .resuming | some _, .updatedByRemote => true
  | some _, _ => false

end conditions

/-! ## What programs send -/

/-- Neither a response nor a new call. -/
def Action.silent : Action → Prop
  | .respond _ | .create _ => False
  | _ => True

/-- The responses sent so far, on every call. -/
def SameResponses (s s' : Core) : Prop := ∀ c, (s'.call c).responses = (s.call c).responses

theorem sameResponses_modify (s : Core) (c : CallId) {f : CallRec → CallRec}
    (hf : ∀ r, (f r).responses = r.responses) : SameResponses s (s.modify c f) := by
  intro d
  by_cases h : d = c
  · rw [h, Core.modify_call_self, hf]
  · rw [Core.modify_call_ne _ _ h]

theorem Action.silent.sameResponses {x : Action} (hx : x.silent) (s : Core) :
    SameResponses s (x.apply s) := by
  cases x with
  | create | respond => exact absurd hx id
  | addCall c =>
    exact sameResponses_modify s c (f := fun r => { r with added := true }) fun _ => rfl
  | assign c cstate => exact sameResponses_modify s c (f := (·.assign cstate)) fun _ => rfl
  | logCompleted c =>
      exact sameResponses_modify s c (f := fun r => { r with completed := r.completed + 1 })
        fun _ => rfl
  | createOp c => exact sameResponses_modify s c (f := fun r => { r with op := true }) fun _ => rfl
  | releaseOp c =>
    exact sameResponses_modify s c (f := fun r => { r with op := false }) fun _ => rfl
  | dropReference c =>
      exact sameResponses_modify s c (f := fun r => { r with drops := r.drops + 1 }) fun _ => rfl
  | edit c f =>
      exact sameResponses_modify s c (f := fun r => { r with data := f r.data }) fun _ => rfl
  | delCall | makeCurrent | clearCurrent | refuse | editConference | queueTask | dequeueTask =>
      exact fun _ => rfl

/-- What an answer that is not sent leaves of a call: its responses, its state and the deferral. -/
structure Untouched (s s' : Core) (c : CallId) : Prop where
  responses : (s'.call c).responses = (s.call c).responses
  vars : (s'.call c).vars = (s.call c).vars
  deferUpdate : (s'.call c).data.deferUpdate = (s.call c).data.deferUpdate

theorem Untouched.refl (s : Core) (c : CallId) : Untouched s s c := ⟨rfl, rfl, rfl⟩

theorem Untouched.trans {s s' s'' : Core} {c : CallId} (h₁ : Untouched s s' c)
    (h₂ : Untouched s' s'' c) : Untouched s s'' c :=
  ⟨h₂.responses.trans h₁.responses, h₂.vars.trans h₁.vars, h₂.deferUpdate.trans h₁.deferUpdate⟩

theorem untouched_edited (s : Core) (c : CallId) {f : CallData → CallData}
    (hf : ∀ d, (f d).deferUpdate = d.deferUpdate) : Untouched s (s.edited c f) c := by
  refine ⟨?_, ?_, ?_⟩
  · rw [Core.edited_self]
  · rw [Core.edited_self]
  · rw [Core.edited_self]
    exact hf _

theorem Untouched.settled_iff {s s' : Core} {c : CallId} (h : Untouched s s' c) :
    Settled s s' c ↔ (s.call c).data.deferUpdate = true ∧
      (s.state c = .updatedByRemote ∨ s.state c = .pausedByRemote) := by
  have hst : s'.state c = s.state c := congrArg StateVars.state h.vars
  rw [Settled, h.responses, h.deferUpdate, hst]
  constructor
  · rintro (h | h)
    · omega
    · exact h.2
  · exact fun h => .inr ⟨rfl, h⟩

section runs

variable {answers : (q : Query) → q.Answer} {defers : Bool} {s : Core} {c : CallId}

theorem sameResponses_defering (n : CallStateChanged) (s : Core) :
    SameResponses s (defering defers n s) := by
  unfold defering
  split
  · exact sameResponses_modify s n.call fun _ => rfl
  · exact fun _ => rfl

theorem responses_of_silent {α : Type} {p : CoreProg α} (hp : p.Acts Action.silent) (s : Core) :
    SameResponses s (handling answers defers p s).2 :=
  Prog.rel_of_reached (E := SameResponses) (fun _ _ => rfl)
    (fun h₁ h₂ c => (h₂ c).trans (h₁ c)) (fun _ s hx => hx.sameResponses s)
    sameResponses_defering hp s

theorem acts_pure {α : Type} (a : α) : (pure a : CoreProg α).Acts Action.silent := trivial

theorem silent_of_inert {α : Type} {p : CoreProg α} (hp : p.Acts Action.inert) :
    p.Acts Action.silent := by
  refine hp.mono fun x hx => ?_
  cases x with
  | create | respond => exact absurd hx id
  | _ => trivial

theorem acts_updateStreams (md : SalMediaDescription) : (updateStreams c md).Acts Action.silent :=
  silent_of_inert (inert_updateStreams md)

/-- **`linphone_call_set_state`** sends no response, whatever it ends. -/
theorem acts_setState (x : CallState) : (setState c x).Acts Action.silent :=
  silent_of_inert (inert_setState x)

/-! ## `_linphone_core_accept_call_update` -/

theorem handling_readCall {β : Type} (f : CallRec → CoreProg β) :
    handling answers defers (readCall c >>= f) s = handling answers defers (f (s.call c)) s := rfl

theorem handling_ask {β : Type} (q : Query) (f : q.Answer → CoreProg β) :
    handling answers defers (query q >>= f) s = handling answers defers (f (answers q)) s := rfl

theorem handling_useOp {β : Type} (hop : (s.call c).op = true) (f : Unit → CoreProg β) :
    handling answers defers (useOp c >>= f) s = handling answers defers (f ()) s := by
  change handling answers defers ((if _ then _ else _) >>= _) s = _
  rw [hop]
  rfl

theorem handling_edit {β : Type} (f : CallData → CallData) (g : Unit → CoreProg β) :
    handling answers defers (edit c f >>= g) s = handling answers defers (g ()) (s.edited c f) :=
  rfl

theorem handling_makeLocalMediaDescription {β : Type} (g : Unit → CoreProg β) :
    handling answers defers (makeLocalMediaDescription c >>= g) s =
      handling answers defers (g ())
        (s.edited c (·.makeLocal (answers .mediaLib) (answers (.localDescription c)))) := rfl

theorem responded {p : CoreProg Unit} (hp : p.Acts Action.silent) :
    ((handling answers defers (respond c >>= fun _ => p) s).2.call c).responses =
      (s.call c).responses + 1 := by
  change ((handling answers defers p (Action.apply (.respond c) s)).2.call c).responses = _
  rw [responses_of_silent hp]
  simp [Action.apply]

@[simp] theorem makeLocal_deferUpdate (d : CallData) (lib : MediaLib) (md : SalMediaDescription) :
    (d.makeLocal lib md).deferUpdate = d.deferUpdate := by
  unfold CallData.makeLocal
  split <;> rfl

@[simp] theorem makeLocal_iceSession (d : CallData) (lib : MediaLib) (md : SalMediaDescription) :
    (d.makeLocal lib md).iceSession = d.iceSession := by
  unfold CallData.makeLocal
  split <;> rfl

/-- What becomes of an answer: sent when `b` says so, and otherwise nothing is touched. -/
def AnsweredIf (b : Bool) (s s' : Core) (c : CallId) : Prop :=
  if b then (s'.call c).responses = (s.call c).responses + 1 else Untouched s s' c

/-- Nothing of the call that matters here happened before the answer. -/
theorem AnsweredIf.after {b : Bool} {s s' s'' : Core} {c : CallId} (h₁ : Untouched s s' c)
    (h₂ : AnsweredIf b s' s'' c) : AnsweredIf b s s'' c := by
  cases b with
  | true => exact (show (s''.call c).responses = _ from h₂).trans (by rw [h₁.responses])
  | false => exact h₁.trans h₂

variable (answers defers) in
/-- `linphone_core_start_accept_call_update` answers unless there are losing pairs. -/
theorem startAcceptCallUpdate_spec (hop : (s.call c).op = true) (next : CallState) :
    AnsweredIf (!((s.call c).data.iceSession && answers (.flag .losingPairs c))) s
      (handling answers defers (startAcceptCallUpdate c next) s).2 c := by
  rw [startAcceptCallUpdate, handling_readCall, flag, handling_ask]
  cases hlosing : (s.call c).data.iceSession && answers (.flag .losingPairs c) with
  | true => exact Untouched.refl s c
  | false =>
      simp only [Prog.when, Bool.not_false, if_true]
      rw [handling_makeLocalMediaDescription, handling_useOp (by simpa using hop)]
      refine AnsweredIf.after (b := true) (untouched_edited s c fun d => by simp) (responded ?_)
      intro md
      cases md with
      | none => exact acts_setState next
      | some md =>
          exact (Prog.Acts.when (acts_updateStreams md)).bind fun _ => acts_setState next

variable (answers defers) in
/-- The answer, once ICE is prepared. -/
theorem acceptWhenReady_spec (hop : (s.call c).op = true) (next : CallState) :
    AnsweredIf (!waitsForIce answers c (s.call c)) s
      (handling answers defers (do
        let wait ← prepareIce c
        Prog.when (!wait) (startAcceptCallUpdate c next)) s).2 c := by
  have hstart := startAcceptCallUpdate_spec answers defers hop next
  cases hice : (s.call c).data.iceSession with
  | false =>
      have hplay : handling answers defers (prepareIce c) s = (some false, s) := by
        rw [prepareIce, handling_readCall, hice]
        rfl
      rw [hice] at hstart
      rw [handling, Prog.reached_seq hplay, waitsForIce, hice]
      exact hstart
  | true =>
      cases hanswer : answers (.prepareIce c) with
      | gathering =>
          have hplay : handling answers defers (prepareIce c) s = (some true, s) := by
            rw [prepareIce, handling_readCall, hice, if_pos rfl, handling_ask, hanswer]
            rfl
          rw [handling, Prog.reached_seq hplay, waitsForIce, hice, hanswer]
          exact Untouched.refl s c
      | ready =>
          have hplay : handling answers defers (prepareIce c) s = (some false, s) := by
            rw [prepareIce, handling_readCall, hice, if_pos rfl, handling_ask, hanswer]
            rfl
          rw [hice] at hstart
          rw [handling, Prog.reached_seq hplay, waitsForIce, hice, hanswer]
          exact hstart
      | deleted =>
          have hplay : handling answers defers (prepareIce c) s =
              (some false, s.edited c fun d => { d with iceSession := false }) := by
            rw [prepareIce, handling_readCall, hice, if_pos rfl, handling_ask, hanswer]
            rfl
          rw [handling, Prog.reached_seq hplay, waitsForIce, hice, hanswer]
          have h := startAcceptCallUpdate_spec answers defers
            (s := s.edited c fun d => { d with iceSession := false }) (c := c)
            (by rw [Core.edited_self]; exact hop) next
          rw [Core.edited_self] at h
          exact AnsweredIf.after (untouched_edited s c
            (f := fun d => { d with iceSession := false }) fun _ => rfl) h

variable (answers defers) in
/-- The end of `_linphone_core_accept_call_update`: streams, ICE, and the answer. -/
theorem acceptRest_spec (hop : (s.call c).op = true) (next : CallState) :
    AnsweredIf (!waitsForIce answers c (s.call c)) s
      (handling answers defers (do
        edit c (·.mapMedia (·.initMediaStreams))
        let wait ← prepareIce c
        Prog.when (!wait) (startAcceptCallUpdate c next)) s).2 c := by
  have h := acceptWhenReady_spec answers defers
    (s := s.edited c (·.mapMedia (·.initMediaStreams))) (c := c)
    (by rw [Core.edited_self]; exact hop) next
  rw [Core.edited_self] at h
  exact AnsweredIf.after
    (untouched_edited s c (f := (·.mapMedia (·.initMediaStreams))) fun _ => rfl) h

variable (answers defers) in
/-- **`_linphone_core_accept_call_update`** answers under the condition `accepts`. -/
theorem acceptCallUpdateInternal_spec (hop : (s.call c).op = true) (params : Option CallParams)
    (next : CallState) :
    AnsweredIf (accepts answers c (s.call c)) s
      (handling answers defers (acceptCallUpdateInternal c params next) s).2 c := by
  rw [acceptCallUpdateInternal, handling_useOp hop, flag, handling_ask, handling_ask, flag,
    handling_ask]
  have hnew : ∀ p, AnsweredIf (!waitsForIce answers c (s.call c)) s
      (handling answers defers (do
        edit c (·.setNewParams p)
        edit c (·.mapMedia (·.initMediaStreams))
        let wait ← prepareIce c
        Prog.when (!wait) (startAcceptCallUpdate c next)) s).2 c := by
    intro p
    have h := acceptRest_spec answers defers
      (s := s.edited c (·.setNewParams p)) (c := c) (by rw [Core.edited_self]; exact hop) next
    rw [Core.edited_self] at h
    exact AnsweredIf.after (untouched_edited s c (f := (·.setNewParams p)) fun _ => rfl) h
  have hsame : AnsweredIf true s (handling answers defers (do
      respond c
      setState c next) s).2 c := responded (acts_setState next)
  unfold accepts
  cases answers (.flag .keepSdpVersion c) with
  | false =>
      cases params with
      | none => exact acceptRest_spec answers defers hop next
      | some p => exact hnew p
  | true =>
      cases answers (.remoteDescription c) with
      | none => exact Untouched.refl s c
      | some rmd =>
          cases answers (.flag .sdpVersionUnchanged c) with
          | true => exact hsame
          | false =>
              cases params with
              | none => exact acceptRest_spec answers defers hop next
              | some p => exact hnew p

/-! ## `call_updated_by_remote` -/

/-- What is left after the answer touches nothing. -/
theorem AnsweredIf.andThen {α β : Type} {b : Bool} {p : CoreProg α} {f : α → CoreProg β}
    (h : AnsweredIf b s (handling answers defers p s).2 c)
    (hf : ∀ a s, Untouched s (handling answers defers (f a) s).2 c) :
    AnsweredIf b s (handling answers defers (p >>= f) s).2 c := by
  rcases hp : Prog.reached answers (defering defers) p s with ⟨_ | a, s'⟩
  · rw [handling, hp] at h
    rw [handling, Prog.reached_stop hp]
    exact h
  · rw [handling, hp] at h
    rw [handling, Prog.reached_seq hp]
    have hrest : Untouched s' (handling answers defers (f a) s').2 c := hf a s'
    cases b with
    | true => exact hrest.responses.trans h
    | false => exact Untouched.trans h hrest

theorem AnsweredIf.settled_iff {b : Bool} {s s' : Core} (h : AnsweredIf b s s' c) :
    Settled s s' c ↔ b = true ∨ (s.call c).data.deferUpdate = true ∧
      (s.state c = .updatedByRemote ∨ s.state c = .pausedByRemote) := by
  cases b with
  | true => exact ⟨fun _ => .inl rfl, fun _ => .inl h⟩
  | false =>
      rw [Untouched.settled_iff h]
      simp

theorem settled_congr {s₁ s' : Core} (h : (s₁.call c).responses = (s.call c).responses) :
    Settled s s' c ↔ Settled s₁ s' c := by
  rw [Settled, Settled, h]

/-- A notified change to a state that ends nothing. -/
theorem handling_setState {x : CallState} (hx : x.plain = true) (hout :
    ((s.call c).vars.setState x).2 = .notified) :
    handling answers defers (setState c x) s =
      (some (), defering defers ⟨c, x⟩ (s.entered c x)) := by
  simp only [CallState.plain, Bool.and_eq_true, Bool.not_eq_true', decide_eq_true_eq] at hx
  obtain ⟨⟨hf, hcon⟩, -⟩ := hx
  have hrel : x ≠ .released := by
    rintro rfl
    cases hf
  rw [setState, setStateWith, handling_readCall, hout]
  simp only [CallState.not_ended hf, hcon, hrel, decide_false, Prog.when, Bool.false_eq_true,
    if_false]
  rfl

variable (answers defers) in
/-- An UPDATE in an early state. -/
theorem handling_earlyUpdated :
    ∃ s', handling answers defers (setState c .earlyUpdatedByRemote) s = (some (), s') ∧
      (s'.call c).responses = (s.call c).responses ∧ (s'.call c).data = (s.call c).data ∧
      (s'.call c).op = (s.call c).op ∧ s'.state c ≠ .updatedByRemote ∧
      s'.state c ≠ .pausedByRemote := by
  have hplay : handling answers defers (setState c .earlyUpdatedByRemote) s = (some (),
      if s.state c = .earlyUpdatedByRemote then s else s.entered c .earlyUpdatedByRemote) := by
    have hst' : s.state c = (s.call c).vars.state := rfl
    by_cases hsame : s.state c = .earlyUpdatedByRemote
    · have hout : ((s.call c).vars.setState .earlyUpdatedByRemote).2 = .same := by
        simp [StateVars.setState, ← hst', hsame]
      rw [setState, setStateWith, handling_readCall, hout, if_pos hsame]
      rfl
    · by_cases hend : (s.state c).ended = true
      · have hout : ((s.call c).vars.setState .earlyUpdatedByRemote).2 = .spurious := by
          simp [StateVars.setState, ← hst', hsame, hend]
        rw [setState, setStateWith, handling_readCall, hout, if_neg hsame]
        rfl
      · have hout : ((s.call c).vars.setState .earlyUpdatedByRemote).2 = .notified := by
          simp [StateVars.setState, ← hst', hsame, hend]
        rw [handling_setState rfl hout, if_neg hsame]
        simp [defering]
  refine ⟨_, hplay, ?_⟩
  split
  · rename_i hsame
    rw [hsame]
    exact ⟨rfl, rfl, rfl, by decide, by decide⟩
  · rename_i hne
    rw [Core.state, Core.entered_self]
    refine ⟨rfl, rfl, rfl, ?_⟩
    rcases Run.setState_cases (s.call c).vars .earlyUpdatedByRemote with
      ⟨he, -⟩ | ⟨-, h | ⟨hend, -⟩, heq⟩ | ⟨-, -, -, heq⟩
    · exact absurd he.symm hne
    · cases h
    · rw [CallRec.assign, heq]
      change (s.call c).vars.state ≠ .updatedByRemote ∧ (s.call c).vars.state ≠ .pausedByRemote
      constructor
      · intro h
        rw [h] at hend
        cases hend
      · intro h
        rw [h] at hend
        cases hend
    · rw [CallRec.assign, heq]
      change CallState.earlyUpdatedByRemote ≠ .updatedByRemote ∧
        CallState.earlyUpdatedByRemote ≠ .pausedByRemote
      decide

variable (answers defers) in
theorem untouched_expectMedia (b : Bool) (s : Core) :
    Untouched s (handling answers defers (Prog.when b
      (edit c (·.mapMedia fun m => { m with expectMediaInAck := true }))) s).2 c := by
  cases b with
  | false => exact Untouched.refl s c
  | true =>
      exact untouched_edited s c (f := (·.mapMedia fun m => { m with expectMediaInAck := true }))
        fun _ => rfl

variable (answers defers) in
/-- The call when the application has been told of the update. -/
theorem handling_updated (hst : s.state c = .streamsRunning) :
    ∃ s', handling answers defers (setState c .updatedByRemote) s = (some (), s') ∧
      (s'.call c).responses = (s.call c).responses ∧ (s'.call c).op = (s.call c).op ∧
      s'.state c = .updatedByRemote ∧
      (s'.call c).data =
        { (s.call c).data with deferUpdate := (s.call c).data.deferUpdate || defers } := by
  have hst' : (s.call c).vars.state = .streamsRunning := hst
  have hout : ((s.call c).vars.setState .updatedByRemote).2 = .notified := by
    simp [StateVars.setState, hst', CallState.ended]
  have hentered : (s.entered c .updatedByRemote).state c = .updatedByRemote := by
    rw [Core.state, Core.entered_self]
    simp [CallRec.assign, StateVars.setState, hst', CallState.ended]
  refine ⟨_, handling_setState rfl hout, ?_⟩
  cases defers with
  | false =>
      rw [defering, if_neg (by simp)]
      rw [Core.state, Core.entered_self] at *
      exact ⟨rfl, rfl, hentered, by rw [Bool.or_false]; rfl⟩
  | true =>
      rw [defering, if_pos (by simp [hentered])]
      rw [Core.state, Core.edited_self, Core.entered_self] at *
      exact ⟨rfl, rfl, hentered, by rw [Bool.or_true]; rfl⟩

/-- In `StreamsRunning` the application is told, and may defer. -/
theorem updatedRunning_spec (hop : (s.call c).op = true) (hst : s.state c = .streamsRunning)
    (noSdp : Bool) :
    Settled s (handling answers defers (do
      edit c fun d => { d with deferUpdate := answers (.flag .deferUpdateDefault c) }
      setState c .updatedByRemote
      let r ← readCall c
      Prog.when (!r.data.deferUpdate) (ignoring (acceptCallUpdate c none))
      Prog.when noSdp (edit c (·.mapMedia fun m => { m with expectMediaInAck := true }))) s).2 c ↔
    (answers (.flag .deferUpdateDefault c) || defers || accepts answers c (s.call c)) = true := by
  have hst' : (s.edited c fun d =>
      { d with deferUpdate := answers (.flag .deferUpdateDefault c) }).state c =
      .streamsRunning := by
    rw [Core.state, Core.edited_self]
    exact hst
  obtain ⟨s', hplay, hresp, hop', hst'', hdata⟩ :=
    handling_updated answers defers hst'
  rw [Core.edited_self] at hresp hop' hdata
  rw [handling_edit, handling, Prog.reached_seq hplay, settled_congr hresp]
  change Settled s' (handling answers defers (Prog.when (!(s'.call c).data.deferUpdate)
    (ignoring (acceptCallUpdate c none)) >>= fun _ => _) s').2 c ↔ _
  have hexpect := untouched_expectMedia answers defers (c := c) noSdp
  cases hdefer : answers (.flag .deferUpdateDefault c) || defers with
  | true =>
      rw [hdata, hdefer]
      refine iff_of_true ((hexpect s').settled_iff.mpr ⟨?_, .inl hst''⟩) rfl
      rw [hdata]
      exact hdefer
  | false =>
      rw [hdata, hdefer]
      have haccept : AnsweredIf (accepts answers c (s'.call c)) s'
          (handling answers defers (ignoring (acceptCallUpdate c none)) s').2 c := by
        have hread : handling answers defers (acceptCallUpdate c none) s' =
            handling answers defers (do
              acceptCallUpdateInternal c none (s'.call c).vars.prevstate
              pure 0) s' := by
          rw [acceptCallUpdate, handling_readCall,
            if_pos (show (s'.call c).vars.state = _ from hst'')]
        refine AnsweredIf.andThen ?_ fun _ s => Untouched.refl s c
        rw [hread]
        exact (acceptCallUpdateInternal_spec answers defers (hop'.trans hop) none _).andThen
          fun _ s => Untouched.refl s c
      refine (haccept.andThen fun _ s => hexpect s).settled_iff.trans ?_
      simp [accepts, waitsForIce, hdata, hdefer]

/-- In `PausedByRemote` only the configuration defers. -/
theorem updatedPaused_spec (hop : (s.call c).op = true) (hst : s.state c = .pausedByRemote)
    (noSdp : Bool) :
    Settled s (handling answers defers (do
      edit c fun d => { d with deferUpdate := answers (.flag .deferUpdateDefault c) }
      Prog.when (!answers (.flag .deferUpdateDefault c))
        (acceptCallUpdateInternal c none .pausedByRemote)
      Prog.when noSdp (edit c (·.mapMedia fun m => { m with expectMediaInAck := true }))) s).2 c ↔
    (answers (.flag .deferUpdateDefault c) || accepts answers c (s.call c)) = true := by
  have hst' : (s.edited c fun d =>
      { d with deferUpdate := answers (.flag .deferUpdateDefault c) }).state c =
      .pausedByRemote := by
    rw [Core.state, Core.edited_self]
    exact hst
  have hresp : ((s.edited c fun d => { d with
      deferUpdate := answers (.flag .deferUpdateDefault c) }).call c).responses =
      (s.call c).responses := by rw [Core.edited_self]
  rw [handling_edit, settled_congr hresp]
  have haccept := acceptCallUpdateInternal_spec answers defers
    (s := s.edited c fun d => { d with deferUpdate := answers (.flag .deferUpdateDefault c) })
    (c := c) (by rw [Core.edited_self]; exact hop) none .pausedByRemote
  rw [Core.edited_self] at haccept
  cases hdefer : answers (.flag .deferUpdateDefault c) with
  | true =>
      rw [hdefer] at hst'
      have h := untouched_expectMedia answers defers (c := c) noSdp
        (s.edited c fun d => { d with deferUpdate := true })
      refine iff_of_true (h.settled_iff.mpr ⟨?_, .inr hst'⟩) rfl
      rw [Core.edited_self]
  | false =>
      rw [hdefer] at haccept
      have h := haccept.andThen (f := fun _ => Prog.when noSdp
        (edit c (·.mapMedia fun m => { m with expectMediaInAck := true })))
        fun _ s => untouched_expectMedia answers defers noSdp s
      refine h.settled_iff.trans ?_
      rw [Core.edited_self]
      simp [accepts, waitsForIce]

/-- In the other states only an UPDATE is looked at. -/
theorem updatedEarly_spec (hop : (s.call c).op = true) (hst : s.state c ≠ .pausedByRemote)
    (isUpdate : Bool) :
    Settled s (handling answers defers (Prog.when isUpdate do
      setState c .earlyUpdatedByRemote
      let r ← readCall c
      acceptCallUpdateInternal c none r.vars.prevstate) s).2 c ↔
    (isUpdate && accepts answers c (s.call c)) = true ∨
      isUpdate = false ∧ s.state c = .updatedByRemote ∧ (s.call c).data.deferUpdate = true := by
  cases isUpdate with
  | false =>
      refine (Untouched.refl s c).settled_iff.trans ?_
      simp [hst, and_comm]
  | true =>
      obtain ⟨s', hplay, hresp, hdata, hop', hupd, hpaused⟩ :=
        handling_earlyUpdated answers defers (s := s) (c := c)
      have haccept := acceptCallUpdateInternal_spec answers defers
        (hop'.trans hop) none (s'.call c).vars.prevstate
      change Settled s (handling answers defers (setState c .earlyUpdatedByRemote >>= fun _ =>
        _) s).2 c ↔ _
      rw [handling, Prog.reached_seq hplay, settled_congr hresp]
      refine haccept.settled_iff.trans ?_
      simp [accepts, waitsForIce, hdata, hupd, hpaused]

variable (answers defers) in
/-- The local description that is made for an offer matters to nothing here. -/
theorem handling_whenLocal (b : Bool) :
    ∃ s', Untouched s s' c ∧ (s'.call c).op = (s.call c).op ∧
      (s'.call c).data.iceSession = (s.call c).data.iceSession ∧
      ∀ {β : Type} (g : Unit → CoreProg β),
        handling answers defers (Prog.when b (makeLocalMediaDescription c) >>= g) s =
          handling answers defers (g ()) s' := by
  cases b with
  | false => exact ⟨s, Untouched.refl s c, rfl, rfl, fun g => rfl⟩
  | true =>
      refine ⟨_, ?_, ?_, ?_, fun g => handling_makeLocalMediaDescription g⟩
      · exact untouched_edited s c fun d => makeLocal_deferUpdate d _ _
      · rw [Core.edited_self]
      · rw [Core.edited_self]
        exact makeLocal_iceSession _ _ _

variable (answers defers) in
/-- **`call_updated_by_remote`** settles a request under `settlesUpdated`. -/
theorem callUpdatedByRemote_spec (hop : (s.call c).op = true) (isUpdate : Bool) :
    Settled s (handling answers defers (callUpdatedByRemote c isUpdate) s).2 c ↔
      settlesUpdated answers c (s.call c) defers isUpdate = true ∨
        isUpdate = false ∧ s.state c = .updatedByRemote ∧ (s.call c).data.deferUpdate = true := by
  rw [callUpdatedByRemote, handling_useOp hop, handling_ask, handling_ask, handling_readCall]
  obtain ⟨s', hun, hop', hice, hlocal⟩ := handling_whenLocal answers defers (s := s) (c := c)
    ((answers (.remoteDescription c)).isSome && (s.call c).vars.state ≠ .paused)
  rw [hlocal, handling_ask, flag, handling_ask, settled_congr hun.responses]
  have hst : s'.state c = s.state c := congrArg StateVars.state hun.vars
  have haccepts : accepts answers c (s'.call c) = accepts answers c (s.call c) := by
    simp only [accepts, waitsForIce, hice]
  change Settled s' (handling answers defers (if declines answers c (s.call c) isUpdate then
    respond c else _) s').2 c ↔ _
  cases hdecl : declines answers c (s.call c) isUpdate with
  | true =>
      refine iff_of_true (.inl ?_) (.inl ?_)
      · exact responded (p := pure ()) (acts_pure ())
      · rw [settlesUpdated, hdecl]
        rfl
  | false =>
      rw [if_neg (by decide), flag, handling_ask, settlesUpdated, hdecl, Bool.false_or]
      rw [← hst, ← hun.deferUpdate, ← haccepts, ← hun.vars]
      by_cases hrun : s'.state c = .streamsRunning
      · have hrun' : (s'.call c).vars.state = .streamsRunning := hrun
        rw [if_pos hrun', updatedRunning_spec (hop'.trans hop) hrun, hrun']
        simp [hrun]
      · rw [if_neg (show ¬(s'.call c).vars.state = .streamsRunning from hrun)]
        by_cases hpaused : s'.state c = .pausedByRemote
        · have hpaused' : (s'.call c).vars.state = .pausedByRemote := hpaused
          rw [if_pos hpaused', updatedPaused_spec (hop'.trans hop) hpaused, hpaused']
          simp [hpaused]
        · rw [if_neg (show ¬(s'.call c).vars.state = .pausedByRemote from hpaused),
            updatedEarly_spec (hop'.trans hop) hpaused]
          split
          · exact absurd ‹_› hrun
          · exact absurd ‹_› hpaused
          · rfl

end runs

/-! ## A call on hold -/

/-- The call of before, put on hold. -/
def onHold : Core := conversation.modify 0 fun r => { r with vars := ⟨.paused, .pausing⟩ }

end Linphone
