import Mathlib.Data.Bool.Basic
import Mathlib.Order.Basic
import Mathlib.Order.Lattice
import Linphone.Call.Lifecycle
import Linphone.Call.LocalDescription

/-!
# Retries with a weaker profile

When the peer of an outgoing call refuses its media, with 415 or 488, `call_failure`
(`coreapi/callbacks.c`) sends the INVITE again without AVPF, then without SRTP.

`retries_of_attempts`: whatever happens to a call between its failures that leaves its parameters
alone, there are at most two such retries. Each offers less than the INVITE before it, and what the
parameters of the call say. While encryption is mandatory, a call that was placed with SRTP or DTLS
is not retried without it; a call that was placed without either is, as
`unencrypted_retry` shows.

A failure is driven against an environment that sees the state, in which the local description is
the one `linphone_call_make_local_media_description` builds. The invariant is `Attempted`; a retry
uses up one of the two things a call can give up.
-/

namespace Linphone

open Reentrant

/-! ## What stays -/

/-- What a call offers and what was sent for it are as they were. -/
structure CallData.SameOffer (d d' : CallData) : Prop where
  mediaEncryption : d'.mediaEncryption = d.mediaEncryption
  avpfEnabled : d'.avpfEnabled = d.avpfEnabled
  hasLocaldesc : d'.hasLocaldesc = d.hasLocaldesc
  localdesc : d'.media.localdesc = d.media.localdesc
  invites : d'.invites = d.invites

namespace CallData.SameOffer

variable {d d' d'' : CallData}

theorem refl (d : CallData) : SameOffer d d := ⟨rfl, rfl, rfl, rfl, rfl⟩

theorem trans (h : SameOffer d d') (h' : SameOffer d' d'') : SameOffer d d'' :=
  ⟨h'.mediaEncryption.trans h.mediaEncryption, h'.avpfEnabled.trans h.avpfEnabled,
    h'.hasLocaldesc.trans h.hasLocaldesc, h'.localdesc.trans h.localdesc,
    h'.invites.trans h.invites⟩

theorem oldMd (h : SameOffer d d') : LocalEnv.oldMd d' = LocalEnv.oldMd d := by
  unfold LocalEnv.oldMd
  rw [h.hasLocaldesc, h.localdesc]

end CallData.SameOffer

open CallData (SameOffer)

theorem sameOffer_logEnd (d : CallData) : SameOffer d d.logEnd := by
  unfold CallData.logEnd
  split <;> exact ⟨rfl, rfl, rfl, rfl, rfl⟩

/-- The same for a call of the core. -/
def SameInvite (c : CallId) (s s' : Core) : Prop := SameOffer (s.call c).data (s'.call c).data

theorem sameInvite_modify {c : CallId} (s : Core) (c' : CallId) {f : CallRec → CallRec}
    (hf : c' = c → ∀ r, SameOffer r.data (f r).data) : SameInvite c s (s.modify c' f) := by
  unfold SameInvite
  by_cases h : c = c'
  · rw [h, Core.modify_call_self]
    exact hf h.symm _
  · rw [Core.modify_call_ne _ _ h]
    exact SameOffer.refl _

/-- An action that changes neither. -/
def Action.spares (c : CallId) : Action → Prop
  | .create _ => False
  | .edit c' f => c' = c → ∀ d, SameOffer d (f d)
  | _ => True

theorem Action.spares.sameInvite {c : CallId} {x : Action} (hx : x.spares c) (s : Core) :
    SameInvite c s (x.apply s) := by
  cases x with
  | create => exact absurd hx id
  | edit c' f =>
      exact sameInvite_modify s c' (f := fun r => { r with data := f r.data })
        fun h r => hx h r.data
  | addCall c' =>
      exact sameInvite_modify s c' (f := fun r => { r with added := true }) fun _ r =>
        SameOffer.refl r.data
  | assign c' cstate =>
      exact sameInvite_modify s c' (f := (·.assign cstate)) fun _ r => SameOffer.refl r.data
  | logCompleted c' =>
      exact sameInvite_modify s c' (f := fun r => { r with completed := r.completed + 1 })
        fun _ r => SameOffer.refl r.data
  | createOp c' =>
      exact sameInvite_modify s c' (f := fun r => { r with op := true }) fun _ r =>
        SameOffer.refl r.data
  | releaseOp c' =>
      exact sameInvite_modify s c' (f := fun r => { r with op := false }) fun _ r =>
        SameOffer.refl r.data
  | dropReference c' =>
      exact sameInvite_modify s c' (f := fun r => { r with drops := r.drops + 1 })
        fun _ r => SameOffer.refl r.data
  | respond c' =>
      exact sameInvite_modify s c' (f := fun r => { r with responses := r.responses + 1 })
        fun _ r => SameOffer.refl r.data
  | delCall | makeCurrent | clearCurrent | refuse | editConference | queueTask | dequeueTask =>
      exact SameOffer.refl (s.call c).data

theorem sameInvite_edit {c : CallId} {f : CallData → CallData} (hf : ∀ d, SameOffer d (f d))
    (s : Core) : SameInvite c s ((Action.edit c f).apply s) :=
  Action.spares.sameInvite (x := .edit c f) (fun _ => hf) s

theorem edit_data (s : Core) (c : CallId) (f : CallData → CallData) :
    (((Action.edit c f).apply s).call c).data = f (s.call c).data :=
  congrArg CallRec.data (s.modify_call_self c fun r => { r with data := f r.data })

/-- What an attempt at a call meets: local descriptions are built as the source builds them, for
suites and a rule on encryption that do not change, and the application leaves the parameters of the
call alone in its notifications. -/
structure Around (c : CallId) (suites : List MSCryptoSuite) (mandatory : Bool) where
  answer : (q : Query) → Core → q.Answer
  react : CallStateChanged → Core → Core
  env : Core → LocalEnv
  suites_eq : ∀ s, (env s).cryptoSuites = suites
  local_eq : ∀ s, answer (.localDescription c) s = localMediaDescription (env s) (s.call c).data
  mandatory_eq : ∀ s, answer (.flag .encryptionMandatory c) s = mandatory
  react_same : ∀ n s, SameInvite c s (react n s)

namespace Around

variable {c : CallId} {suites : List MSCryptoSuite} {mandatory : Bool} {α β : Type}

/-- The state a program leads to. -/
def after (A : Around c suites mandatory) (p : CoreProg α) (s : Core) : Core :=
  (p.drive A.answer A.react s).2

variable (A : Around c suites mandatory)

theorem same_of_acts {p : CoreProg α} (hp : p.Acts (Action.spares c)) (s : Core) :
    SameInvite c s (A.after p s) :=
  Prog.rel_of_drive (E := SameInvite c) (fun _ => SameOffer.refl _)
    (fun h h' => SameOffer.trans h h') (fun _ s hx => hx.sameInvite s) A.react_same hp s

theorem same_bind {p : CoreProg α} {f : α → CoreProg β} {s : Core}
    (hp : SameInvite c s (A.after p s))
    (hf : ∀ a, p.drive A.answer A.react s = (some a, A.after p s) →
      SameInvite c (A.after p s) (A.after (f a) (A.after p s))) :
    SameInvite c s (A.after (p >>= f) s) := by
  unfold after at hp hf ⊢
  rw [Prog.drive_bind]
  cases hres : p.drive A.answer A.react s with
  | mk a s' =>
      rw [hres] at hp hf
      cases a with
      | none => exact hp
      | some a => exact hp.trans (hf a rfl)

theorem after_getCore (f : Core → CoreProg α) (s : Core) :
    A.after (getCore >>= f) s = A.after (f s) s := rfl

theorem after_readCall (c : CallId) (f : CallRec → CoreProg α) (s : Core) :
    A.after (readCall c >>= f) s = A.after (f (s.call c)) s := rfl

theorem after_flag (x : Flag) (c : CallId) (f : Bool → CoreProg α) (s : Core) :
    A.after (flag x c >>= f) s = A.after (f (A.answer (.flag x c) s)) s := rfl

end Around

/-! ## Entering a state -/

section spares

variable {c c' : CallId}

theorem spares_edit {f : CallData → CallData} (hf : ∀ d, SameOffer d (f d)) :
    (edit c' f).Acts (Action.spares c) := ⟨fun _ => hf, trivial⟩

theorem spares_useOp : (useOp c').Acts (Action.spares c) :=
  Prog.Acts.bind (fun _ => trivial) fun _ => Prog.Acts.ite trivial trivial

theorem spares_setReleased : (setReleased c').Acts (Action.spares c) := by
  refine Prog.Acts.bind (fun _ => trivial) fun r => ?_
  refine Prog.Acts.bind (Prog.Acts.when fun reason => ?_) fun _ => ?_
  · exact ⟨fun _ d => ⟨rfl, rfl, rfl, rfl, rfl⟩, trivial, trivial⟩
  · exact ⟨fun _ d => ⟨rfl, rfl, rfl, rfl, rfl⟩, trivial, trivial⟩

theorem spares_makeLocalMediaDescription (h : c' ≠ c) :
    (makeLocalMediaDescription c').Acts (Action.spares c) :=
  fun _ _ => ⟨fun hc => absurd hc h, trivial⟩

theorem spares_prepareIce : (prepareIce c').Acts (Action.spares c) := by
  refine Prog.Acts.bind (fun _ => trivial) fun r => Prog.Acts.ite ?_ trivial
  intro answer
  cases answer with
  | gathering | ready => trivial
  | deleted => exact ⟨fun _ d => ⟨rfl, rfl, rfl, rfl, rfl⟩, trivial⟩

theorem spares_setStateWith {terminated : CoreProg Unit} {x : CallState}
    (ht : x.ended = true → terminated.Acts (Action.spares c)) :
    (setStateWith terminated c' x).Acts (Action.spares c) := by
  refine Prog.Acts.bind (fun _ => trivial) fun r => ?_
  cases (r.vars.setState x).2 with
  | same => trivial
  | spurious => exact ⟨trivial, trivial⟩
  | notified =>
      have hend : (Prog.when x.ended terminated).Acts (Action.spares c) := by
        unfold Prog.when
        split
        · exact ht ‹_›
        · trivial
      refine ⟨trivial, hend.bind fun _ => ?_⟩
      refine Prog.Acts.bind (Prog.Acts.when ⟨fun _ d => ⟨rfl, rfl, rfl, rfl, rfl⟩, trivial⟩)
        fun _ => ?_
      exact Prog.Acts.when spares_setReleased

theorem spares_enterState (x : CallState) : (enterState c' x).Acts (Action.spares c) :=
  spares_setStateWith fun _ => trivial

theorem spares_pauseCallInternal (h : c' ≠ c) :
    (pauseCallInternal c').Acts (Action.spares c) := by
  refine Prog.Acts.bind (fun _ => trivial) fun r => Prog.Acts.ite trivial ?_
  cases r.data.media.resultdesc with
  | none => trivial
  | some md =>
      refine Prog.Acts.ite ?_ trivial
      refine (spares_makeLocalMediaDescription h).bind fun _ => spares_useOp.bind fun _ => ?_
      refine fun _ => ⟨trivial, fun _ d => ⟨rfl, rfl, rfl, rfl, rfl⟩, ?_⟩
      exact (spares_enterState .pausing).bind fun _ =>
        ⟨fun _ d => ⟨rfl, rfl, rfl, rfl, rfl⟩, trivial⟩

theorem spares_updateCall (h : c' ≠ c) (params : Option CallParams) :
    (updateCall c' params).Acts (Action.spares c) := by
  refine Prog.Acts.bind (fun _ => trivial) fun r => ?_
  cases updatingState r.vars.state with
  | none => trivial
  | some nextstate =>
      cases params with
      | none => trivial
      | some p =>
          refine (spares_enterState nextstate).bind fun _ => ⟨fun hc => absurd hc h, ?_⟩
          refine spares_prepareIce.bind fun _ => Prog.Acts.ite trivial ?_
          refine Prog.Acts.bind (fun _ => trivial) fun r => ?_
          refine (Prog.Acts.when (spares_makeLocalMediaDescription h)).bind fun _ => ?_
          exact spares_useOp.bind fun _ => fun _ => trivial

theorem spares_removeFromConference (h : c' ≠ c) (active : Bool) :
    (removeFromConferenceInternal c' active).Acts (Action.spares c) := by
  refine Prog.Acts.bind (fun _ => trivial) fun r => Prog.Acts.ite ?_ trivial
  refine ⟨fun hc => absurd hc h, ?_⟩
  exact Prog.Acts.ite (fun params => ⟨trivial, spares_updateCall h _⟩) (spares_pauseCallInternal h)

end spares

namespace Around

variable {c : CallId} {suites : List MSCryptoSuite} {mandatory : Bool}
  (A : Around c suites mandatory) {s : Core}

/-- What is left of a conference is another call. -/
theorem same_conferenceCheckUninit (hc : c ∉ s.calls) :
    SameInvite c s (A.after conferenceCheckUninit s) := by
  have hconvert : SameInvite c s (A.after (do
      let _ ← convertConferenceToCall
      pure ()) s) := by
    refine A.same_bind ?_ fun _ _ => SameOffer.refl _
    change SameInvite c s (A.after (if A.answer .remoteParticipants s = 1 then _ else _) s)
    split
    · rw [after_getCore]
      cases hfind : s.calls.find? fun c => (s.call c).data.media.inConference with
      | none => exact SameOffer.refl _
      | some rc =>
          have hrc : rc ≠ c := fun h => hc (h ▸ List.mem_of_find?_eq_some hfind)
          exact A.same_of_acts (spares_removeFromConference hrc _) s
    · exact SameOffer.refl _
  change SameInvite c s (A.after (Prog.when s.conference.present _) s)
  unfold Prog.when
  split
  · refine A.same_bind (s := s) (p := Prog.when _ _) ?_ fun _ _ => ?_
    · unfold Prog.when
      split
      · exact hconvert
      · exact SameOffer.refl _
    · refine A.same_of_acts ?_ _
      have hleave : leaveConference.Acts (Action.spares c) := ⟨trivial, trivial⟩
      exact (Prog.Acts.when hleave).bind fun _ => fun _ => Prog.Acts.when ⟨trivial, trivial⟩
  · exact SameOffer.refl _

/-- Leaving the list. -/
theorem same_listEnd (hc : c ∉ s.calls.erase c) :
    SameInvite c s (A.after (do
      perform (.delCall c)
      conferenceCheckUninit
      edit c fun d => { d with ringingBeep := false } : CoreProg Unit) s) := by
  have hdel : c ∉ ((Action.delCall c).apply s).calls := hc
  have hdeleted : SameInvite c s ((Action.delCall c).apply s) := SameOffer.refl _
  refine hdeleted.trans ?_
  refine A.same_bind (p := conferenceCheckUninit) (s := (Action.delCall c).apply s)
    (A.same_conferenceCheckUninit hdel) fun _ _ => A.same_of_acts ?_ _
  exact spares_edit fun d => ⟨rfl, rfl, rfl, rfl, rfl⟩

/-- Whether or not it was the current call. -/
theorem same_currentEnd (hc : c ∉ s.calls.erase c) :
    SameInvite c s (A.after (do
      let s ← getCore
      Prog.when (s.currentCall = some c) (perform .clearCurrent)
      perform (.delCall c)
      conferenceCheckUninit
      edit c fun d => { d with ringingBeep := false } : CoreProg Unit) s) := by
  change SameInvite c s (A.after (Prog.when (s.currentCall = some c) (perform .clearCurrent) >>=
    fun _ => _) s)
  unfold Prog.when
  split
  · exact A.same_listEnd (s := Action.clearCurrent.apply s) hc
  · exact A.same_listEnd hc

/-- What a call that ends goes through. -/
theorem same_terminated (hc : c ∉ s.calls.erase c) :
    SameInvite c s (A.after (do
      edit c (·.logEnd)
      setTerminated c : CoreProg Unit) s) := by
  have hlog : SameInvite c s ((Action.edit c (·.logEnd)).apply s) :=
    Action.spares.sameInvite (x := .edit c (·.logEnd)) (fun _ => sameOffer_logEnd) s
  refine hlog.trans ?_
  have hfree : SameInvite c ((Action.edit c (·.logEnd)).apply s)
      ((Action.edit c (·.freeMediaResources)).apply ((Action.edit c (·.logEnd)).apply s)) :=
    Action.spares.sameInvite (x := .edit c (·.freeMediaResources))
      (fun _ d => ⟨rfl, rfl, rfl, rfl, rfl⟩) _
  refine hfree.trans ?_
  refine SameOffer.trans (Action.spares.sameInvite (x := .logCompleted c) trivial _) ?_
  exact A.same_currentEnd (s := (Action.logCompleted c).apply
    ((Action.edit c (·.freeMediaResources)).apply ((Action.edit c (·.logEnd)).apply s))) hc

/-- **`linphone_call_set_state`** leaves a call that is listed once with its INVITE. -/
theorem same_setState (hc : c ∉ s.calls.erase c) (x : CallState) :
    SameInvite c s (A.after (setState c x) s) := by
  by_cases hx : x.ended = true
  · have hassign : SameInvite c s ((Action.assign c x).apply s) :=
      Action.spares.sameInvite (x := .assign c x) trivial s
    rw [setState, setStateWith, after_readCall]
    cases ((s.call c).vars.setState x).2 with
    | same => exact SameOffer.refl _
    | spurious => exact hassign
    | notified =>
        refine hassign.trans ?_
        have hcalls : c ∉ ((Action.assign c x).apply s).calls.erase c := hc
        rw [hx]
        refine A.same_bind (s := (Action.assign c x).apply s)
          (p := Prog.when true (do
            edit c (·.logEnd)
            setTerminated c))
          (A.same_terminated hcalls) fun _ _ => A.same_of_acts ?_ _
        refine Prog.Acts.bind (Prog.Acts.when ⟨fun _ d => ⟨rfl, rfl, rfl, rfl, rfl⟩, trivial⟩)
          fun _ => ?_
        exact Prog.Acts.when spares_setReleased
  · exact A.same_of_acts (spares_setStateWith fun h => absurd h hx) s

/-- A call once its local description was made. -/
def made (s : Core) (d : CallData) : CallData :=
  d.makeLocal (A.answer .mediaLib s) (localMediaDescription (A.env s) d)

/-- **`linphone_core_start_invite`**: it sends an INVITE with a new description, or none. -/
theorem startInvite_spec (hc : c ∉ s.calls.erase c) :
    SameInvite c s (A.after (startInvite c) s) ∨
      SameOffer (A.made s (s.call c).data) ((A.after (startInvite c) s).call c).data ∨
      SameOffer (A.made s (s.call c).data).recordInvite
        ((A.after (startInvite c) s).call c).data := by
  have huse : A.after (startInvite c) s = A.after (if (s.call c).op then (do
      makeLocalMediaDescription c
      let sent ← query (.sent c .invite)
      if sent then do
        edit c (·.recordInvite)
        setState c .outgoingProgress
      else do
        edit c (·.mapMedia (·.stopMediaStreams))
        setState c .error) else .stuck) s := by
    change A.after ((if (s.call c).op then (pure () : CoreProg Unit) else .stuck) >>= _) s = _
    split <;> rfl
  rw [huse]
  split
  · right
    let s₁ := (Action.edit c
      (·.makeLocal (A.answer .mediaLib s) (A.answer (.localDescription c) s))).apply s
    have hmade : (s₁.call c).data = A.made s (s.call c).data := by
      rw [edit_data, A.local_eq]
      rfl
    change SameOffer _ ((A.after (if A.answer (.sent c .invite) s₁ then _ else _) s₁).call c).data ∨
      SameOffer _ ((A.after (if A.answer (.sent c .invite) s₁ then _ else _) s₁).call c).data
    split
    · right
      have hrecord : (((Action.edit c (·.recordInvite)).apply s₁).call c).data =
          (A.made s (s.call c).data).recordInvite := by
        rw [edit_data, hmade]
      rw [← hrecord]
      exact A.same_setState (s := (Action.edit c (·.recordInvite)).apply s₁) hc .outgoingProgress
    · left
      rw [← hmade]
      have hstop : SameInvite c s₁ ((Action.edit c (·.mapMedia (·.stopMediaStreams))).apply s₁) :=
        sameInvite_edit (f := (·.mapMedia (·.stopMediaStreams)))
          (fun d => ⟨rfl, rfl, rfl, rfl, rfl⟩) s₁
      exact hstop.trans (A.same_setState
        (s := (Action.edit c (·.mapMedia (·.stopMediaStreams))).apply s₁) hc .error)
  · left
    exact SameOffer.refl _

/-- An INVITE that is sent again for a call with some data, or not. -/
def Resent (d d' : CallData) : Prop :=
  SameOffer d d' ∨
    ∃ s₁, SameOffer (A.made s₁ d) d' ∨ SameOffer (A.made s₁ d).recordInvite d'

/-- **`linphone_core_restart_invite`** -/
theorem restartInvite_spec (hc : c ∉ s.calls.erase c) :
    ∃ d, SameOffer (s.call c).data d ∧ A.Resent d ((A.after (restartInvite c) s).call c).data := by
  let s₁ := (Action.edit c (·.mapMedia fun m => m.freeMediaResources.initMediaStreams)).apply
    ((Action.createOp c).apply s)
  have hsame : SameInvite c s s₁ :=
    SameOffer.trans (Action.spares.sameInvite (x := .createOp c) trivial s)
      (sameInvite_edit (f := (·.mapMedia fun m => m.freeMediaResources.initMediaStreams))
        (fun d => ⟨rfl, rfl, rfl, rfl, rfl⟩) _)
  refine ⟨(s₁.call c).data, hsame, ?_⟩
  rcases A.startInvite_spec (s := s₁) hc with h | h | h
  · exact .inl h
  · exact .inr ⟨s₁, .inl h⟩
  · exact .inr ⟨s₁, .inr h⟩

theorem same_finishFailure (hc : c ∉ s.calls.erase c) (reason : SalReason)
    (referer : Option CallId) : SameInvite c s (A.after (finishFailure c reason referer) s) := by
  change SameInvite c s (A.after (if (s.call c).vars.state = .updating ∨
    (s.call c).vars.state = .pausing ∨ (s.call c).vars.state = .resuming then
      setState c (s.call c).vars.prevstate else _) s)
  split
  · exact A.same_setState hc _
  · have hstop : SameInvite c s ((Action.edit c (·.mapMedia (·.stopMediaStreams))).apply s) :=
      sameInvite_edit (f := (·.mapMedia (·.stopMediaStreams)))
        (fun d => ⟨rfl, rfl, rfl, rfl, rfl⟩) s
    refine hstop.trans ?_
    refine A.same_bind (s := (Action.edit c (·.mapMedia (·.stopMediaStreams))).apply s)
      (p := Prog.when (!(s.call c).vars.state.ended)
        (setState c (if reason = .declined then .end else .error))) ?_ fun _ _ =>
          A.same_of_acts ?_ _
    · unfold Prog.when
      split
      · exact A.same_setState (s := (Action.edit c (·.mapMedia (·.stopMediaStreams))).apply s) hc _
      · exact SameOffer.refl _
    · cases referer with
      | none => exact trivial
      | some r => exact ⟨trivial, trivial⟩

end Around

/-! ## A failure -/

/-- A failure that is about the media of the call: 415 and 488. -/
def SalReason.refusesMedia (reason : SalReason) : Bool :=
  reason == .unsupportedContent || reason == .notAcceptable

/-- What a call gives up for a retry: AVPF first, then SRTP unless encryption is mandatory. -/
structure Weakened (mandatory : Bool) (d d' : CallData) : Prop where
  invites : d'.invites = d.invites
  params :
    (d.avpfEnabled = true ∧ d'.avpfEnabled = false ∧ d'.mediaEncryption = d.mediaEncryption ∧
      LocalEnv.oldMd d' = LocalEnv.oldMd d) ∨
    (d.avpfEnabled = false ∧ d.mediaEncryption = .srtp ∧ mandatory = false ∧
      d'.avpfEnabled = false ∧ d'.mediaEncryption = .none)

theorem Weakened.same {mandatory : Bool} {d d' d'' : CallData} (h : Weakened mandatory d d')
    (hs : SameOffer d' d'') : Weakened mandatory d d'' := by
  refine ⟨hs.invites.trans h.invites, ?_⟩
  rw [hs.avpfEnabled, hs.mediaEncryption, hs.oldMd]
  exact h.params

theorem retryParams_weakened {d : CallData} {mandatory : Bool} {f : CallData → CallData}
    (h : retryParams d mandatory = some f) : Weakened mandatory d (f d) := by
  unfold retryParams at h
  obtain ⟨i, -, h⟩ := Option.bind_eq_some_iff.mp h
  by_cases havpf : d.avpfEnabled = true
  · rw [if_pos havpf] at h
    obtain rfl := Option.some.inj h
    exact ⟨rfl, .inl ⟨havpf, rfl, rfl, rfl⟩⟩
  · rw [if_neg havpf] at h
    split at h
    · rename_i hsrtp
      obtain rfl := Option.some.inj h
      have hoff : d.avpfEnabled = false := by simpa using havpf
      exact ⟨rfl, .inr ⟨hoff, hsrtp.1, by simpa using hsrtp.2, hoff, rfl⟩⟩
    · exact absurd h (by simp)

namespace Around

variable {c : CallId} {suites : List MSCryptoSuite} {mandatory : Bool}
  (A : Around c suites mandatory) {s : Core}

/-- **`call_failure`** leaves what a call offers alone, or sends the same INVITE elsewhere, or
retries with less. -/
theorem callFailure_spec (hc : c ∉ s.calls.erase c) (reason : SalReason) (contact : Bool) :
    SameInvite c s (A.after (callFailure c reason contact) s) ∨
      ∃ d, (reason.refusesMedia = false ∧ SameOffer (s.call c).data d ∨
          reason.refusesMedia = true ∧ Weakened mandatory (s.call c).data d) ∧
        A.Resent d ((A.after (callFailure c reason contact) s).call c).data := by
  have hretry : reason.refusesMedia = true →
      A.after (callFailure c reason contact) s =
        A.after (callFailure c .notAcceptable contact) s := by
    intro h
    cases reason with
    | unsupportedContent | notAcceptable => rfl
    | _ => exact Bool.noConfusion h
  by_cases hmedia : reason.refusesMedia = true
  · rw [hretry hmedia, callFailure, after_readCall]
    dsimp only
    rw [after_flag, A.mandatory_eq s]
    cases hf : if (s.call c).vars.state.outgoingEarly then retryParams (s.call c).data mandatory
      else none with
    | none => exact .inl (A.same_finishFailure hc _ _)
    | some f =>
        right
        have hparams : retryParams (s.call c).data mandatory = some f := by
          split at hf
          · exact hf
          · exact absurd hf (by simp)
        obtain ⟨d, hsame, hresent⟩ :=
          A.restartInvite_spec (s := (Action.edit c f).apply s) hc
        rw [edit_data] at hsame
        exact ⟨d, .inr ⟨hmedia, (retryParams_weakened hparams).same hsame⟩, hresent⟩
  · cases reason with
    | unsupportedContent | notAcceptable => exact absurd rfl hmedia
    | requestPending => exact .inl (A.same_setState hc _)
    | redirect =>
        let s₁ := (Action.edit c (·.mapMedia (·.stopMediaStreams))).apply s
        have hstop : SameInvite c s s₁ :=
          sameInvite_edit (f := (·.mapMedia (·.stopMediaStreams)))
            (fun d => ⟨rfl, rfl, rfl, rfl, rfl⟩) s
        change SameInvite c s (A.after (if (s.call c).vars.state.outgoingEarly && contact then
            restartInvite c else finishFailure c .redirect (s.call c).data.referer) s₁) ∨
          ∃ d, _ ∧ A.Resent d ((A.after (if (s.call c).vars.state.outgoingEarly && contact then
            restartInvite c else finishFailure c .redirect (s.call c).data.referer) s₁).call c).data
        split
        · right
          obtain ⟨d, hsame, hresent⟩ := A.restartInvite_spec (s := s₁) hc
          exact ⟨d, .inl ⟨rfl, hstop.trans hsame⟩, hresent⟩
        · exact .inl (hstop.trans (A.same_finishFailure (s := s₁) hc _ _))
    | _ => exact .inl (A.same_finishFailure hc _ _)

end Around

/-! ## Attempts -/

/-- An INVITE sent after the media of the one before was refused. -/
structure Retry where
  before : SentInvite
  sent : SentInvite

/-- The profile of an INVITE: whether it asks for encrypted media and for feedback. -/
def SentInvite.profile (i : SentInvite) : Bool × Bool :=
  (getProtoFromCallParams i.mediaEncryption i.avpfEnabled).features

/-- An INVITE offers what the parameters it was sent with say. -/
def SentInvite.Faithful (suites : List MSCryptoSuite) (i : SentInvite) : Prop :=
  Offers suites i.mediaEncryption i.avpfEnabled i.offer

/-- The retries among the INVITEs a failure led to. -/
def retriesOf (reason : SalReason) (old new : List SentInvite) : List Retry :=
  if reason.refusesMedia then
    (List.zipWith (fun sent before => ⟨before, sent⟩) new new.tail).take (new.length - old.length)
  else []

/-- A call from its first INVITE on, with its retries, the latest first. Between failures anything
may happen that leaves the parameters and the description alone. -/
inductive Attempts {c : CallId} {suites : List MSCryptoSuite} {mandatory : Bool}
    (A : Around c suites mandatory) (s₀ : Core) : Core → List Retry → Prop
  | start (hfirst : (s₀.call c).data.hasLocaldesc = false)
      (hnone : (s₀.call c).data.invites = []) (hlist : s₀.calls.Nodup) :
      Attempts A s₀ (A.after (startInvite c) s₀) []
  | other {s s' l} : Attempts A s₀ s l → SameInvite c s s' → Attempts A s₀ s' l
  | failed {s l} (reason : SalReason) (contact : Bool) (hlist : s.calls.Nodup) :
      Attempts A s₀ s l →
      Attempts A s₀ (A.after (callFailure c reason contact) s)
        (retriesOf reason (s.call c).data.invites
          ((A.after (callFailure c reason contact) s).call c).data.invites ++ l)

/-- What is required of a retry of a call that was placed with some encryption. -/
structure Retry.Good (suites : List MSCryptoSuite) (mandatory : Bool)
    (placed : LinphoneMediaEncryption) (r : Retry) : Prop where
  weaker : r.sent.profile < r.before.profile
  before : r.before.Faithful suites
  sent : r.sent.Faithful suites
  encrypted : mandatory = true → placed = .srtp ∨ placed = .dtls →
    ∀ i, (r.sent.offer.stream i).active = true → (r.sent.offer.stream i).proto.features.1 = true

/-- How often a call can still give something up. -/
def CallData.concessions (d : CallData) : Nat :=
  (if d.mediaEncryption = .srtp then 1 else 0) + if d.avpfEnabled then 1 else 0

/-- The profile of the parameters. -/
def CallData.profile (d : CallData) : Bool × Bool :=
  (getProtoFromCallParams d.mediaEncryption d.avpfEnabled).features

/-- What holds of a call between its failures. -/
structure Attempted (suites : List MSCryptoSuite) (mandatory : Bool)
    (placed : LinphoneMediaEncryption) (d : CallData) (l : List Retry) : Prop where
  last : ∀ i ∈ d.invites.head?, d.profile ≤ i.profile ∧ i.Faithful suites
  keys : d.mediaEncryption = .srtp → ∀ old ∈ LocalEnv.oldMd d, KeysFollow suites old
  bound : l.length + d.concessions ≤ 2
  secure : mandatory = true → placed = .srtp ∨ placed = .dtls → d.mediaEncryption = placed
  good : ∀ r ∈ l, r.Good suites mandatory placed

section attempted

variable {c : CallId} {suites : List MSCryptoSuite} {mandatory : Bool}
  {placed : LinphoneMediaEncryption} {d d' : CallData} {l : List Retry}

theorem concessions_le (d : CallData) : d.concessions ≤ 2 := by
  unfold CallData.concessions
  split <;> split <;> decide

theorem Attempted.same (h : Attempted suites mandatory placed d l) (hs : SameOffer d d') :
    Attempted suites mandatory placed d' l := by
  refine ⟨?_, ?_, ?_, ?_, h.good⟩
  · rw [hs.invites, CallData.profile, hs.mediaEncryption, hs.avpfEnabled]
    exact h.last
  · rw [hs.mediaEncryption, hs.oldMd]
    exact h.keys
  · rw [CallData.concessions, hs.mediaEncryption, hs.avpfEnabled]
    exact h.bound
  · rw [hs.mediaEncryption]
    exact h.secure

/-- Giving something up. -/
theorem Attempted.weakened (h : Attempted suites mandatory placed d l)
    (hw : Weakened mandatory d d') :
    Attempted suites mandatory placed d' l ∧ d'.concessions < d.concessions ∧
      d'.profile < d.profile := by
  have hprofile : d'.profile < d.profile := by
    unfold CallData.profile
    rw [features_getProto, features_getProto]
    rcases hw.params with ⟨hon, hoff, henc, -⟩ | ⟨hon, henc, -, hoff, hnone⟩
    · rw [hon, hoff, henc, Prod.mk_lt_mk_iff_right]
      decide
    · rw [hon, hoff, henc, hnone, Prod.mk_lt_mk_iff_left]
      decide
  have hless : d'.concessions < d.concessions := by
    unfold CallData.concessions
    rcases hw.params with ⟨hon, hoff, henc, -⟩ | ⟨hon, henc, -, hoff, hnone⟩
    · rw [hon, hoff, henc]
      simp
    · rw [hon, hoff, henc, hnone]
      decide
  refine ⟨⟨?_, ?_, ?_, ?_, h.good⟩, hless, hprofile⟩
  · rw [hw.invites]
    intro i hi
    exact ⟨hprofile.le.trans (h.last i hi).1, (h.last i hi).2⟩
  · rcases hw.params with ⟨-, -, henc, hold⟩ | ⟨-, -, -, -, hnone⟩
    · rw [henc, hold]
      exact h.keys
    · rw [hnone]
      exact nofun
  · have hbound := h.bound
    omega
  · intro hm hplaced
    rcases hw.params with ⟨-, -, henc, -⟩ | ⟨-, -, hfalse, -, -⟩
    · rw [henc]
      exact h.secure hm hplaced
    · rw [hfalse] at hm
      exact Bool.noConfusion hm

/-- Making a description leaves the parameters, and the description follows from them. -/
theorem Around.made_spec (A : Around c suites mandatory) (s : Core)
    (hkeys : d.mediaEncryption = .srtp → ∀ old ∈ LocalEnv.oldMd d, KeysFollow suites old) :
    (A.made s d).mediaEncryption = d.mediaEncryption ∧
      (A.made s d).avpfEnabled = d.avpfEnabled ∧ (A.made s d).invites = d.invites ∧
      LocalEnv.oldMd (A.made s d) = some (A.made s d).media.localdesc ∧
      Offers suites d.mediaEncryption d.avpfEnabled (A.made s d).media.localdesc := by
  have hoffers := localMediaDescription_describes (A.suites_eq s) hkeys
  unfold Around.made CallData.makeLocal
  split
  · rename_i hlocal
    exact ⟨rfl, rfl, rfl, if_pos hlocal, hoffers⟩
  · exact ⟨rfl, rfl, rfl, rfl, hoffers⟩

theorem Attempted.made (h : Attempted suites mandatory placed d l) (A : Around c suites mandatory)
    (s : Core) : Attempted suites mandatory placed (A.made s d) l := by
  obtain ⟨henc, havpf, hinvites, hold, hoffers⟩ := A.made_spec s h.keys
  refine ⟨?_, ?_, ?_, ?_, h.good⟩
  · rw [hinvites, CallData.profile, henc, havpf]
    exact h.last
  · rw [hold]
    intro _ old hmem
    obtain rfl := Option.mem_some.mp hmem
    exact hoffers.keysFollow
  · rw [CallData.concessions, henc, havpf]
    exact h.bound
  · rw [henc]
    exact h.secure

/-- The INVITE that is sent with a new description. -/
theorem Attempted.recorded (h : Attempted suites mandatory placed d l)
    (A : Around c suites mandatory) (s : Core) :
    Attempted suites mandatory placed (A.made s d).recordInvite l := by
  obtain ⟨henc, havpf, -, -, hoffers⟩ := A.made_spec s h.keys
  have hmade := h.made A s
  refine ⟨?_, hmade.keys, hmade.bound, hmade.secure, h.good⟩
  intro i hi
  obtain rfl := Option.mem_some.mp hi
  refine ⟨le_refl _, ?_⟩
  unfold SentInvite.Faithful
  change Offers suites (A.made s d).mediaEncryption (A.made s d).avpfEnabled _
  rw [henc, havpf]
  exact hoffers

theorem CallData.SameOffer.concessions (hs : SameOffer d d') : d'.concessions = d.concessions := by
  rw [CallData.concessions, hs.mediaEncryption, hs.avpfEnabled]
  rfl

/-- An INVITE sent again keeps the parameters and offers what they say. -/
theorem Attempted.resent {A : Around c suites mandatory}
    (h : Attempted suites mandatory placed d l) (hr : A.Resent d d') :
    Attempted suites mandatory placed d' l ∧ d'.concessions = d.concessions ∧
      (d'.invites = d.invites ∨ ∃ i, d'.invites = i :: d.invites ∧ i.profile = d.profile ∧
        i.mediaEncryption = d.mediaEncryption ∧ i.Faithful suites) := by
  rcases hr with hs | ⟨s, hs⟩
  · exact ⟨h.same hs, hs.concessions, .inl hs.invites⟩
  · obtain ⟨henc, havpf, hinvites, -, -⟩ := A.made_spec s h.keys
    have hmade : (A.made s d).concessions = d.concessions := by
      rw [CallData.concessions, henc, havpf]
      rfl
    rcases hs with hs | hs
    · exact ⟨(h.made A s).same hs, hs.concessions.trans hmade,
        .inl (hs.invites.trans hinvites)⟩
    · have hrecorded := h.recorded A s
      let sent : SentInvite :=
        ⟨(A.made s d).mediaEncryption, (A.made s d).avpfEnabled, (A.made s d).media.localdesc⟩
      refine ⟨hrecorded.same hs, hs.concessions.trans hmade, .inr ⟨sent, hs.invites.trans ?_, ?_,
        henc, (hrecorded.last sent rfl).2⟩⟩
      · rw [← hinvites]
        rfl
      · rw [CallData.profile, ← henc, ← havpf]
        rfl

/-- A failure adds at most one retry, with less than the INVITE before. -/
theorem Attempted.failed {A : Around c suites mandatory} {s : Core} (reason : SalReason)
    (contact : Bool) (hc : c ∉ s.calls.erase c)
    (h : Attempted suites mandatory placed (s.call c).data l) :
    Attempted suites mandatory placed ((A.after (callFailure c reason contact) s).call c).data
      (retriesOf reason (s.call c).data.invites
        ((A.after (callFailure c reason contact) s).call c).data.invites ++ l) := by
  have hno : ∀ old : List SentInvite, retriesOf reason old old = [] := by
    intro old
    unfold retriesOf
    simp
  rcases A.callFailure_spec hc reason contact with hs | ⟨d, hd, hresent⟩
  · rw [hs.invites, hno]
    exact h.same hs
  · rcases hd with ⟨hother, hs⟩ | ⟨hmedia, hw⟩
    · have hnone : ∀ old new, retriesOf reason old new = [] := fun old new => by
        rw [retriesOf, hother]
        rfl
      rw [hnone]
      exact ((h.same hs).resent hresent).1
    · obtain ⟨hweak, hless, hprofile⟩ := h.weakened hw
      obtain ⟨hkept, hcount, hinvites | ⟨i, hinvites, hi, henc, hfaithful⟩⟩ :=
        hweak.resent hresent
      · rw [hinvites, hw.invites, hno]
        exact hkept
      · rw [hinvites, hw.invites]
        cases hold : (s.call c).data.invites with
        | nil =>
            have : retriesOf reason [] [i] = [] := by simp [retriesOf]
            rw [this]
            exact hkept
        | cons b rest =>
            have hone : retriesOf reason (b :: rest) (i :: b :: rest) = [⟨b, i⟩] := by
              simp [retriesOf, hmedia]
            rw [hone]
            obtain ⟨hbefore, hbfaithful⟩ := h.last b (by rw [hold]; rfl)
            refine ⟨hkept.last, hkept.keys, ?_, hkept.secure, ?_⟩
            · have hbound := h.bound
              rw [List.cons_append, List.nil_append, List.length_cons, hcount]
              omega
            · intro r hr
              rcases List.mem_cons.mp hr with rfl | hr
              · refine ⟨?_, hbfaithful, hfaithful, ?_⟩
                · rw [hi]
                  exact hprofile.trans_le hbefore
                · intro hm hplaced j hactive
                  have hproto := (hfaithful j hactive).proto
                  rw [hproto, features_getProto, henc, hweak.secure hm hplaced]
                  exact decide_eq_true hplaced
              · exact h.good r hr

/-- A call that nothing was sent for. -/
theorem attempted_first (hfirst : d.hasLocaldesc = false) (hnone : d.invites = []) :
    Attempted suites mandatory d.mediaEncryption d [] := by
  refine ⟨?_, ?_, ?_, fun _ _ => rfl, fun r hr => absurd hr List.not_mem_nil⟩
  · intro i hi
    rw [hnone] at hi
    exact absurd hi (by simp)
  · intro _ old hold
    rw [LocalEnv.oldMd, hfirst] at hold
    exact absurd hold (by simp)
  · have hle := concessions_le d
    rw [List.length_nil]
    omega

/-- The invariant of every run of attempts. -/
theorem attempted_of_attempts {A : Around c suites mandatory} {s₀ s : Core}
    (h : Attempts A s₀ s l) :
    Attempted suites mandatory (s₀.call c).data.mediaEncryption (s.call c).data l := by
  induction h with
  | start hfirst hnone hlist =>
      have hinit : Attempted suites mandatory _ _ [] := attempted_first hfirst hnone
      rcases A.startInvite_spec hlist.not_mem_erase with hs | hs
      · exact hinit.same hs
      · exact (hinit.resent (.inr ⟨s₀, hs⟩)).1
  | other _ hs ih => exact ih.same hs
  | failed reason contact hlist _ ih => exact ih.failed reason contact hlist.not_mem_erase

/-- **Retries.** For every outgoing call, every setting and every sequence of failures, a call is
retried at most twice, and each retry is a weaker, faithful offer; with encryption mandatory, one
without unencrypted streams if the call was placed with SRTP or DTLS. -/
theorem retries_of_attempts (A : Around c suites mandatory) {s₀ s : Core}
    (h : Attempts A s₀ s l) :
    l.length ≤ 2 ∧ ∀ r ∈ l, r.Good suites mandatory (s₀.call c).data.mediaEncryption := by
  have hinv := attempted_of_attempts h
  have hbound := hinv.bound
  exact ⟨by omega, hinv.good⟩

end attempted

/-! ## Refused calls -/

/-- An environment with one suite, in which everything is sent. -/
def refusing (mandatory : Bool) : Around 0 [.aes128Sha1_80] mandatory where
  answer
    | .localDescription c, s =>
        localMediaDescription
          { audio := { rtpPort := 7078 }, cryptoSuites := [.aes128Sha1_80] } (s.call c).data
    | .flag .encryptionMandatory _, _ => mandatory
    | q, _ => plainAnswers q
  react _ s := s
  env _ := { audio := { rtpPort := 7078 }, cryptoSuites := [.aes128Sha1_80] }
  suites_eq _ := rfl
  local_eq _ := rfl
  mandatory_eq _ := rfl
  react_same _ _ := SameOffer.refl _

/-- A call that is about to be placed. -/
def placing (params : CallParams) : Core where
  call := fun _ =>
    { vars := ⟨.outgoingInit, .idle⟩, op := true, data := ({} : CallData).setNewParams params }
  created := 1
  calls := [0]

/-- The call after its INVITE was refused with 488 a number of times. -/
def refusedTimes (mandatory : Bool) (params : CallParams) : Nat → Core
  | 0 => (refusing mandatory).after (startInvite 0) (placing params)
  | n + 1 => (refusing mandatory).after (callFailure 0 .notAcceptable false)
      (refusedTimes mandatory params n)

theorem attempts_placing (mandatory : Bool) (params : CallParams) :
    Attempts (refusing mandatory) (placing params) (refusedTimes mandatory params 0) [] :=
  .start rfl rfl (List.nodup_cons.mpr ⟨List.not_mem_nil, List.nodup_nil⟩)

/-- A call with SRTP and AVPF is refused twice. -/
theorem retries_of_refused :
    let sent := fun n =>
      ((refusedTimes false { mediaEncryption := .srtp, avpfEnabled := true } n).call 0).data.invites
    let retries := retriesOf .notAcceptable (sent 1) (sent 2) ++
      (retriesOf .notAcceptable (sent 0) (sent 1) ++ [])
    retries.length = 2 ∧ ∀ r ∈ retries, r.Good [.aes128Sha1_80] false .srtp :=
  ⟨rfl, (retries_of_attempts (refusing false)
    (.failed .notAcceptable false (by decide) (.failed .notAcceptable false (by decide)
      (attempts_placing false { mediaEncryption := .srtp, avpfEnabled := true })))).2⟩

/-- With encryption mandatory, a call that was placed with AVPF and no encryption is retried without
AVPF, unencrypted. -/
theorem unencrypted_retry :
    ¬∀ (c : CallId) (suites : List MSCryptoSuite) (mandatory : Bool)
      (A : Around c suites mandatory) (s₀ s : Core) (l : List Retry), Attempts A s₀ s l →
      l.length ≤ 2 ∧ ∀ r ∈ l, r.sent.profile < r.before.profile ∧ r.sent.Faithful suites ∧
        (mandatory = true → ∀ i, (r.sent.offer.stream i).active = true →
          (r.sent.offer.stream i).proto.features.1 = true) := by
  intro h
  have hrun := h 0 _ true (refusing true) _ _ _
    (.failed .notAcceptable false (by decide) (attempts_placing true { avpfEnabled := true }))
  obtain ⟨-, -, hencrypted⟩ := hrun.2 _ (List.mem_cons_self)
  exact absurd (hencrypted rfl 0 (by decide)) (by decide)

end Linphone
