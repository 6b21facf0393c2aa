import Linphone.Call.Books

/-!
# The life of a call

Every operation of `Linphone.Call.Api` and every event of `Linphone.Call.Upcalls` keeps the books of
the core, whatever the application does inside the notifications they send; so the books are right
in every state that can be looked at (`lifecycle_of_reachable`). There is one lemma for each
program, in the order of these modules.
-/

namespace Linphone

open Reentrant Contract

/-! ## Placing and ending calls -/

section ops

variable {P : Core → Prop} (c : CallId)

theorem keeps_preemptSoundResources :
    lifecycle.Keeps (fun _ => True) preemptSoundResources := by
  refine keeps_getCore fun s => Keeps.ite (fun _ => keeps_of_quiet quiet_leaveConference)
    fun _ => ?_
  split
  · exact keeps_then stable_true (keeps_pauseCallInternal _) fun _ => trivial
  · exact keeps_pure _

theorem keeps_startInvite : lifecycle.Keeps (Alive c) (startInvite c) := by
  refine keeps_seq (stable_alive c) (quiet_useOp c) fun _ => ?_
  refine keeps_seq (stable_alive c) (quiet_makeLocalMediaDescription c) fun _ => ?_
  refine keeps_seq (stable_alive c) (quiet_query _) fun sent => ?_
  refine Keeps.ite (fun _ => ?_) fun _ => ?_
  · exact keeps_seq (stable_alive c) (quiet_edit c _) fun _ => keeps_setState (by decide)
  · exact keeps_seq (stable_alive c) (quiet_edit c _) fun _ => keeps_setState (by decide)

theorem keeps_proceedWithInviteIfReady :
    lifecycle.Keeps (Alive c) (proceedWithInviteIfReady c) := by
  refine keeps_readCall' fun r => keeps_seq (stable_alive c) (quiet_query _) fun _ => ?_
  exact Keeps.when fun _ => keeps_startInvite c

/-- What `linphone_core_invite_address_with_params` does once its call is listed and current. -/
theorem keeps_inviteRest : lifecycle.Keeps (Alive c) (do
    setState c .outgoingInit
    edit c (·.mapMedia (·.initMediaStreams))
    let wait ← prepareIce c
    let ping ← flag .pingWithOptions c
    let noProxy ← flag .noDestProxy c
    Prog.when (noProxy && ping) (edit c fun d => { d with pingOp := true, pingReplied := false })
    Prog.when (!wait && !(noProxy && ping)) (startInvite c)
    pure (some c)) := by
  refine (keeps_setState (by decide)).bind (stable_alive c) fun _ => ?_
  refine keeps_seq (stable_alive c) (quiet_edit c _) fun _ => ?_
  refine keeps_seq (stable_alive c) (quiet_prepareIce c) fun wait => ?_
  refine keeps_seq (stable_alive c) (quiet_query _) fun ping => ?_
  refine keeps_seq (stable_alive c) (quiet_query _) fun noProxy => ?_
  refine keeps_seq (stable_alive c) (quiet_edit c _).when fun _ => ?_
  exact keeps_then (stable_alive c) (Keeps.when fun _ => keeps_startInvite c) fun _ => trivial

theorem keeps_inviteAddressWithParams (referer : Option CallId) :
    lifecycle.Keeps (fun _ => True) (inviteAddressWithParams referer) := by
  refine keeps_preemptSoundResources.bind stable_true fun _ => ?_
  refine keeps_getCore fun s => Keeps.ite (fun _ => ?_) fun _ => keeps_pure _
  intro s hs _
  -- a new call, listed and made the current one with no notification in between
  rw [newOutgoing, wp_bind, wp_getCore]
  intro params ice _
  have hcreate := Core.Inv.create hs
    ({ ({} : CallData).setNewParams params with referer := referer, iceSession := ice })
  change lifecycle.wp (addCall s.created >>= _) _ ((Action.create _).apply s)
  rw [wp_bind, addCall, wp_getCore]
  split
  · intro _
    have hadd := hcreate.1.addCall (c := s.created) (Nat.lt_succ_self _) (by simp [Action.apply])
      (by simp [Action.apply, Core.state]; rfl)
    have hcur := hadd.1.makeCurrent hadd.2.2 .invited
    intro _
    refine wp_mono (fun _ s' h => ⟨h.1, ?_⟩)
      (keeps_inviteRest s.created _ hcur.1 (hcur.1.alive hadd.2.2))
    exact hcreate.2.trans (hadd.2.1.trans (hcur.2.trans h.2))
  · exact hcreate

theorem keeps_startReferedCall :
    lifecycle.Keeps (fun _ => True) (startReferedCall c) := by
  refine keeps_readCall' fun r => ?_
  refine Keeps.bind (Keeps.when fun _ => ?_) stable_true fun _ => ?_
  · exact keeps_then stable_true (keeps_pauseCallInternal c) fun _ => quiet_edit c _
  refine keeps_seq stable_true (quiet_edit c _) fun _ => ?_
  refine Keeps.bind (Keeps.when fun _ => keeps_stuck) stable_true fun _ => ?_
  refine keeps_seq stable_true (quiet_query _) fun _ => Keeps.ite (fun _ => ?_) fun _ =>
    keeps_pure _
  refine keeps_then stable_true (keeps_inviteAddressWithParams _) fun n => ?_
  cases n with
  | some n => exact (quiet_edit c _).bind fun _ => trivial
  | none => trivial

theorem keeps_abortCall : lifecycle.Keeps (Alive c) (abortCall c) := by
  refine keeps_seq (stable_alive c) (quiet_useOp c) fun _ => ?_
  exact keeps_seq (stable_alive c) (quiet_edit c _) fun _ => keeps_setState (by decide)

theorem keeps_terminateCallInternal : lifecycle.Keeps (Alive c) (terminateCallInternal c) := by
  refine keeps_readCall' fun r => keeps_seq (stable_alive c) (quiet_edit c _).when fun _ => ?_
  exact keeps_seq (stable_alive c) (quiet_edit c _) fun _ => keeps_setState (by decide)

theorem keeps_declineCall : lifecycle.Keeps P (declineCall c) := by
  refine keeps_readCall fun r => Keeps.ite (fun hst => ?_) fun _ => keeps_pure _
  refine keeps_of_alive ?_ (by rcases hst with h | h <;> simp [h])
  refine keeps_seq (stable_alive c) (quiet_useOp c) fun _ => ?_
  refine keeps_seq (stable_alive c) (quiet_respond c) fun _ => ?_
  exact keeps_then (stable_alive c) (keeps_terminateCallInternal c) fun _ => trivial

theorem keeps_terminateCall : lifecycle.Keeps P (terminateCall c) := by
  refine keeps_readCall fun r => ?_
  split
  · exact keeps_pure _
  · exact keeps_pure _
  · exact keeps_declineCall c
  · exact keeps_declineCall c
  · rename_i hst
    refine keeps_of_alive ?_ (by simp [hst])
    refine keeps_seq (stable_alive c) (quiet_useOp c) fun _ => ?_
    refine keeps_releaseOp.bind (stable_alive c) fun _ => ?_
    exact keeps_then (stable_alive c) (keeps_terminateCallInternal c) fun _ => trivial
  · rename_i hr _ _ _ _
    refine keeps_of_alive ?_ hr
    refine keeps_seq (stable_alive c) (quiet_useOp c) fun _ => ?_
    exact keeps_then (stable_alive c) (keeps_terminateCallInternal c) fun _ => trivial

theorem keeps_terminateUniqueCall : lifecycle.Keeps P terminateUniqueCall := by
  refine keeps_getCore fun s => ?_
  split
  · exact keeps_terminateCall _
  · exact keeps_pure _

theorem keeps_redirectCall : lifecycle.Keeps P (redirectCall c) := by
  refine keeps_readCall fun r => Keeps.ite (fun hst => ?_) fun _ => keeps_pure _
  refine keeps_of_alive ?_ (by simp [hst])
  refine keeps_seq (stable_alive c) (quiet_useOp c) fun _ => ?_
  refine keeps_seq (stable_alive c) (quiet_respond c) fun _ => ?_
  refine keeps_seq (stable_alive c) (quiet_edit c _) fun _ => ?_
  exact keeps_then (stable_alive c) (keeps_terminateCallInternal c) fun _ => trivial

/-! ## Loops -/

theorem keeps_walk {visit : CallId → CoreProg Unit}
    (hv : ∀ c, lifecycle.Keeps (fun _ => True) (visit c)) (n : Nat) (start : Option CallId) :
    lifecycle.Keeps (fun _ => True) (walk visit n start) := by
  induction n generalizing start with
  | zero => exact keeps_pure _
  | succ n ih =>
      cases start with
      | none => exact keeps_pure _
      | some c =>
          refine keeps_getCore fun s => Keeps.ite (fun _ => ?_) fun _ => keeps_stuck
          exact (hv c).bind stable_true fun _ => ih _

theorem keeps_walkAfter {visit : CallId → CoreProg Unit}
    (hv : ∀ c, lifecycle.Keeps (fun _ => True) (visit c)) (n : Nat) (start : Option CallId) :
    lifecycle.Keeps (fun _ => True) (walkAfter visit n start) := by
  induction n generalizing start with
  | zero => exact keeps_pure _
  | succ n ih =>
      cases start with
      | none => exact keeps_pure _
      | some c =>
          refine (hv c).bind stable_true fun _ => keeps_getCore fun s => ?_
          exact Keeps.ite (fun _ => ih _) fun _ => keeps_stuck

theorem keeps_terminateAllCalls (n : Nat) :
    lifecycle.Keeps (fun _ => True) (terminateAllCalls n) :=
  keeps_getCore fun _ => keeps_walk
    (fun c => keeps_then stable_true (keeps_terminateCall c) fun _ => quiet_pure ()) n _

theorem keeps_pauseAllCalls (n : Nat) : lifecycle.Keeps (fun _ => True) (pauseAllCalls n) :=
  keeps_getCore fun _ => keeps_walkAfter
    (fun c => keeps_readCall' fun _ => Keeps.when fun _ =>
      keeps_then stable_true (keeps_pauseCallInternal c) fun _ => quiet_pure ()) n _

/-! ## Hold and answers -/

theorem keeps_pauseCall : lifecycle.Keeps (fun _ => True) (pauseCall c) :=
  keeps_then stable_true (keeps_pauseCallInternal c) fun _ =>
    (quiet_edit c _).when.bind fun _ => trivial

theorem keeps_sendResume : lifecycle.Keeps (Alive c) (sendResume c) := by
  refine keeps_seq (stable_alive c) (quiet_edit c _) fun _ => ?_
  refine keeps_seq (stable_alive c) (quiet_makeLocalMediaDescription c) fun _ => ?_
  refine keeps_seq (stable_alive c) (quiet_useOp c) fun _ => ?_
  refine keeps_seq (stable_alive c) (quiet_edit c _) fun _ => ?_
  refine keeps_seq (stable_alive c) (quiet_query _) fun sent => Keeps.ite (fun _ => ?_) fun _ =>
    keeps_pure _
  refine (keeps_setState (by decide)).bind (stable_alive c) fun _ => keeps_readCall' fun r => ?_
  exact keeps_then (stable_alive c) (Keeps.when fun _ => keeps_makeCurrent fun _ h => h)
    fun _ => trivial

theorem keeps_resumeCall : lifecycle.Keeps (fun _ => True) (resumeCall c) := by
  refine keeps_getCore fun s => keeps_readCall fun r => ?_
  refine Keeps.ite (fun _ => keeps_pure _) fun hst => ?_
  refine keeps_of_alive ?_ (by simp [not_not.mp hst])
  refine Keeps.ite (fun _ => keeps_sendResume c) fun _ => ?_
  refine Keeps.ite (fun _ => keeps_pure _) fun _ => ?_
  exact (keeps_any keeps_preemptSoundResources).bind (stable_alive c) fun _ => keeps_sendResume c

theorem keeps_acceptEarlyMediaWithParams (params : Option CallParams) :
    lifecycle.Keeps P (acceptEarlyMediaWithParams c params) := by
  refine keeps_readCall fun r => Keeps.ite (fun hst => ?_) fun _ => keeps_pure _
  refine keeps_of_alive ?_ (by simp [hst])
  have hA := stable_alive c
  refine keeps_seq hA (quiet_useOp c) fun _ => ?_
  cases params
  case' some p =>
    refine keeps_seq hA (quiet_edit c _) fun _ => ?_
    refine keeps_seq hA (quiet_makeLocalMediaDescription c) fun _ => ?_
  all_goals
    refine (keeps_setState (by decide)).bind hA fun _ => ?_
    refine keeps_seq hA (quiet_useOp c) fun _ => keeps_seq hA (quiet_query _) fun md => ?_
    cases md with
    | some md => exact keeps_of_quiet ((quiet_updateStreams c md).bind fun _ => trivial)
    | none => exact keeps_pure _

theorem keeps_startAcceptCallUpdate {nextState : CallState} (hn : nextState ≠ .released) :
    lifecycle.Keeps (Alive c) (startAcceptCallUpdate c nextState) := by
  have hA := stable_alive c
  refine keeps_readCall' fun r => keeps_seq hA (quiet_query _) fun losing => Keeps.when fun _ => ?_
  refine keeps_seq hA (quiet_makeLocalMediaDescription c) fun _ => ?_
  refine keeps_seq hA (quiet_useOp c) fun _ => keeps_seq hA (quiet_respond c) fun _ => ?_
  refine keeps_seq hA (quiet_query _) fun md => ?_
  cases md with
  | some md => exact keeps_seq hA (quiet_updateStreams c md).when fun _ => keeps_setState hn
  | none => exact keeps_setState hn

theorem keeps_acceptCallUpdateInternal (params : Option CallParams) {nextState : CallState}
    (hn : nextState ≠ .released) :
    lifecycle.Keeps (Alive c) (acceptCallUpdateInternal c params nextState) := by
  have hA := stable_alive c
  refine keeps_seq hA (quiet_useOp c) fun _ => keeps_seq hA (quiet_query _) fun keep => ?_
  refine keeps_seq hA (quiet_query _) fun rmd => keeps_seq hA (quiet_query _) fun unchanged => ?_
  refine Keeps.ite (fun _ => keeps_stuck) fun _ => Keeps.ite (fun _ => ?_) fun _ => ?_
  · exact keeps_seq hA (quiet_respond c) fun _ => keeps_setState hn
  have hrest : lifecycle.Keeps (Alive c) (do
      edit c (·.mapMedia (·.initMediaStreams))
      let wait ← prepareIce c
      Prog.when (!wait) (startAcceptCallUpdate c nextState)) := by
    refine keeps_seq hA (quiet_edit c _) fun _ => keeps_seq hA (quiet_prepareIce c) fun wait => ?_
    exact Keeps.when fun _ => keeps_startAcceptCallUpdate c hn
  cases params with
  | some p => exact keeps_seq hA (quiet_edit c _) fun _ => hrest
  | none => exact hrest

theorem keeps_acceptCallUpdate (params : Option CallParams) :
    lifecycle.Keeps P (acceptCallUpdate c params) := by
  refine keeps_readCallOk fun r hr => Keeps.ite (fun hst => ?_) fun _ => keeps_pure _
  refine keeps_of_alive ?_ (by simp [hst])
  exact keeps_then (stable_alive c) (keeps_acceptCallUpdateInternal c params hr.prev) fun _ =>
    trivial

theorem quiet_deferCallUpdate : Quiet (deferCallUpdate c) :=
  (quiet_readCall c).bind fun _ => Prog.Only.ite ((quiet_edit c _).bind fun _ => trivial) trivial

theorem keeps_cancelOutgoing (calls : List CallId) :
    lifecycle.Keeps (fun _ => True) (cancelOutgoing c calls) := by
  induction calls with
  | nil => exact keeps_pure _
  | cons a as ih =>
      refine keeps_readCall' fun r => Keeps.bind (Keeps.when fun _ => ?_) stable_true fun _ => ih
      exact keeps_then stable_true (keeps_terminateCall a) fun _ => trivial

/-- What `linphone_core_accept_call_with_params` does with the final local description. -/
theorem keeps_answerRest (ringing : Bool) : lifecycle.Keeps (Alive c) (do
    let r ← readCall c
    if !ringing && r.data.media.audio.stream = .absent then Prog.stuck
    else do
      respond c
      perform (.makeCurrent .accepted c)
      setState c .connected
      useOp c
      let md ← query (.finalDescription c)
      match md with
      | some md => do
          updateStreams c md
          setState c .streamsRunning
      | none => edit c (·.mapMedia fun m => { m with expectMediaInAck := true })) := by
  have hA := stable_alive c
  refine keeps_readCall' fun r => Keeps.ite (fun _ => keeps_stuck) fun _ => ?_
  refine keeps_seq hA (quiet_respond c) fun _ => ?_
  refine (keeps_makeCurrent fun _ h => h).bind hA fun _ => ?_
  refine (keeps_setState (by decide)).bind hA fun _ => ?_
  refine keeps_seq hA (quiet_useOp c) fun _ => keeps_seq hA (quiet_query _) fun md => ?_
  cases md with
  | some md => exact keeps_seq hA (quiet_updateStreams c md) fun _ => keeps_setState (by decide)
  | none => exact keeps_of_quiet (quiet_edit c _)

theorem keeps_answerCall (params : Option CallParams) :
    lifecycle.Keeps (Alive c) (answerCall c params) := by
  have hA := stable_alive c
  refine keeps_seq hA (quiet_query _) fun ringing => keeps_seq hA (quiet_edit c _) fun _ => ?_
  refine keeps_seq hA (quiet_useOp c) fun _ => ?_
  cases params with
  | some p =>
      refine keeps_seq hA (quiet_edit c _) fun _ => keeps_seq hA (quiet_prepareIce c) fun _ => ?_
      exact keeps_seq hA (quiet_makeLocalMediaDescription c) fun _ => keeps_answerRest c ringing
  | none => exact keeps_answerRest c ringing

theorem keeps_acceptCallWithParams (params : Option CallParams) :
    lifecycle.Keeps P (acceptCallWithParams c params) := by
  have hA := stable_alive c
  refine keeps_getCore fun s => keeps_readCall fun r => ?_
  refine Keeps.ite (fun hst => ?_) fun _ => keeps_pure _
  refine keeps_of_alive ?_ (by rcases hst with h | h <;> simp [h])
  refine (keeps_any (keeps_cancelOutgoing c _)).bind hA fun _ => ?_
  refine keeps_seq hA (quiet_useOp c) fun _ => keeps_seq hA (quiet_query _) fun replaced => ?_
  have hrest : lifecycle.Keeps (Alive c) (do
      let s ← getCore
      Prog.when (s.currentCall ≠ some c) preemptSoundResources
      answerCall c params
      pure (0 : Int)) := by
    refine keeps_getCore fun s => ?_
    refine Keeps.bind (Keeps.when fun _ => keeps_any keeps_preemptSoundResources) hA fun _ => ?_
    exact keeps_then hA (keeps_answerCall c params) fun _ => trivial
  cases replaced with
  | some rc => exact (keeps_terminateCall rc).bind hA fun _ => hrest
  | none => exact hrest

theorem keeps_acceptOnlyCall (params : Option CallParams) :
    lifecycle.Keeps P (acceptOnlyCall params) := by
  refine keeps_getCore fun s => ?_
  split
  · exact keeps_acceptCallWithParams _ params
  · exact keeps_pure _

/-! ## Conference -/

theorem quiet_addLocalEndpoint : Quiet addLocalEndpoint :=
  Prog.Only.bind (fun _ => trivial) fun _ => Prog.Only.ite ⟨trivial, trivial⟩ trivial

theorem keeps_addToConference : lifecycle.Keeps (fun _ => True) (addToConference c) := by
  refine keeps_readCall' fun r => Keeps.ite (fun _ => keeps_pure _) fun _ => ?_
  refine keeps_seq stable_true ⟨trivial, trivial⟩ fun _ => Keeps.ite (fun _ => ?_) fun _ => ?_
  · refine keeps_seq stable_true (quiet_edit c _) fun _ => ?_
    exact keeps_then stable_true (keeps_resumeCall c) fun _ => trivial
  refine Keeps.ite (fun _ => ?_) fun _ => keeps_pure _
  refine keeps_seq stable_true (quiet_query _) fun params => ?_
  refine keeps_seq stable_true (quiet_edit c _).when fun _ => keeps_getCore fun s => ?_
  refine Keeps.bind (Keeps.when fun _ => keeps_clearCurrent) stable_true fun _ => ?_
  exact keeps_then stable_true (keeps_updateCall c _) fun _ =>
    quiet_addLocalEndpoint.bind fun _ => trivial

theorem keeps_removeFromConference :
    lifecycle.Keeps (fun _ => True) (removeFromConference c) := by
  refine (keeps_removeFromConferenceInternal c false).bind stable_true fun err => ?_
  refine Keeps.ite (fun _ => ?_) fun _ => keeps_pure _
  refine keeps_seq stable_true (quiet_query _) fun _ => ?_
  exact Keeps.ite (fun _ => keeps_convertConferenceToCall) fun _ => keeps_pure _

theorem keeps_enterConference : lifecycle.Keeps (fun _ => True) enterConference := by
  refine keeps_getCore fun s => Keeps.ite (fun _ => keeps_pure _) fun _ => ?_
  have hrest : lifecycle.Keeps (fun _ => True) (do
      let s ← getCore
      Prog.when (!s.conference.localParticipant) addLocalEndpoint
      pure (0 : Int)) :=
    keeps_getCore fun s => keeps_of_quiet (quiet_addLocalEndpoint.when.bind fun _ => trivial)
  split
  · exact (keeps_pauseCallInternal _).bind stable_true fun _ => hrest
  · exact hrest

theorem keeps_addAllToConference (n : Nat) :
    lifecycle.Keeps (fun _ => True) (addAllToConference n) := by
  refine keeps_getCore fun s => Keeps.bind (keeps_walk (fun c => ?_) n _) stable_true fun _ => ?_
  · exact keeps_readCall' fun r => Keeps.when fun _ =>
      keeps_then stable_true (keeps_addToConference c) fun _ => trivial
  · exact keeps_then stable_true keeps_enterConference fun _ => trivial

theorem keeps_terminateConference (n : Nat) :
    lifecycle.Keeps (fun _ => True) (terminateConference n) := by
  refine keeps_getCore fun s => keeps_seq stable_true ⟨trivial, trivial⟩ fun _ => ?_
  exact keeps_walk (fun c => keeps_readCall' fun r => Keeps.when fun _ =>
    keeps_then stable_true (keeps_terminateCall c) fun _ => quiet_pure ()) n _

/-- **Every operation keeps the books.** -/
theorem keeps_apiCall (a : ApiCall) : lifecycle.Keeps (fun _ => True) a.program := by
  have hT := stable_true
  cases a with
  | invite => exact keeps_ignoring hT (keeps_inviteAddressWithParams none)
  | startReferedCall c => exact keeps_ignoring hT (keeps_startReferedCall c)
  | accept c params => exact keeps_ignoring hT (keeps_acceptCallWithParams c params)
  | acceptOnly params => exact keeps_ignoring hT (keeps_acceptOnlyCall params)
  | acceptEarlyMedia c params => exact keeps_ignoring hT (keeps_acceptEarlyMediaWithParams c params)
  | terminate c => exact keeps_ignoring hT (keeps_terminateCall c)
  | terminateUnique => exact keeps_ignoring hT keeps_terminateUniqueCall
  | terminateAll n => exact keeps_terminateAllCalls n
  | decline c => exact keeps_ignoring hT (keeps_declineCall c)
  | redirect c => exact keeps_ignoring hT (keeps_redirectCall c)
  | pause c => exact keeps_ignoring hT (keeps_pauseCall c)
  | pauseAll n => exact keeps_pauseAllCalls n
  | resume c => exact keeps_ignoring hT (keeps_resumeCall c)
  | update c params => exact keeps_ignoring hT (keeps_updateCall c params)
  | deferUpdate c => exact keeps_ignoring hT (keeps_of_quiet (quiet_deferCallUpdate c))
  | acceptUpdate c params => exact keeps_ignoring hT (keeps_acceptCallUpdate c params)
  | addToConference c => exact keeps_ignoring hT (keeps_addToConference c)
  | addAllToConference n => exact keeps_addAllToConference n
  | removeFromConference c => exact keeps_ignoring hT (keeps_removeFromConference c)
  | enterConference => exact keeps_ignoring hT keeps_enterConference
  | leaveConference => exact keeps_of_quiet quiet_leaveConference
  | terminateConference n => exact keeps_terminateConference n

end ops

/-! ## Incoming calls -/

section events

variable (c : CallId)

/-- What `linphone_core_notify_incoming_call` does once it has chosen the ring. -/
theorem keeps_notifyRest (earlyMedia : Bool) : lifecycle.Keeps (Alive c) (do
    setState c .incomingReceived
    let r ← readCall c
    Prog.when (r.vars.state = .incomingReceived) do
      useOp c
      Prog.when earlyMedia do
        let _ ← acceptEarlyMediaWithParams c none
        pure ()
      useOp c
      let replaced ← query (.replaces c)
      let auto ← flag .autoAnswerReplacingCalls c
      Prog.when (replaced.isSome && auto) do
        let _ ← acceptCallWithParams c none
        pure ()) := by
  have hA := stable_alive c
  refine (keeps_setState (by decide)).bind hA fun _ => keeps_readCall' fun r => ?_
  refine Keeps.when fun _ => keeps_seq hA (quiet_useOp c) fun _ => ?_
  refine Keeps.bind (Keeps.when fun _ => ?_) hA fun _ => ?_
  · exact keeps_then hA (keeps_acceptEarlyMediaWithParams c none) fun _ => quiet_pure ()
  refine keeps_seq hA (quiet_useOp c) fun _ => keeps_seq hA (quiet_query _) fun replaced => ?_
  refine keeps_seq hA (quiet_query _) fun auto => Keeps.when fun _ => ?_
  exact keeps_then hA (keeps_acceptCallWithParams c none) fun _ => quiet_pure ()

theorem keeps_notifyIncomingCall :
    lifecycle.Keeps (fun s => c ∈ s.calls) (notifyIncomingCall c) := by
  intro s hs hc
  refine wp_seq (quiet_useOp c) fun _ s₁ h₁ => wp_seq (quiet_query _) fun earlyMedia s₂ h₂ => ?_
  have hb := h₁.trans h₂
  have hc₂ : c ∈ s₂.calls := by
    rw [hb.calls]
    exact hc
  have hi₂ := hb.inv hs
  rw [wp_getCore]
  have hrest : ∀ s₃ : Core, s₃.Inv ∧ s₂.Rel s₃ → lifecycle.wp (do
      setState c .incomingReceived
      let r ← readCall c
      Prog.when (r.vars.state = .incomingReceived) do
        useOp c
        Prog.when earlyMedia do
          let _ ← acceptEarlyMediaWithParams c none
          pure ()
        useOp c
        let replaced ← query (.replaces c)
        let auto ← flag .autoAnswerReplacingCalls c
        Prog.when (replaced.isSome && auto) do
          let _ ← acceptCallWithParams c none
          pure ()) (fun _ s' => s'.Inv ∧ s.Rel s') s₃ := by
    intro s₃ h₃
    have ha := stable_alive c _ _ h₃.2 (hi₂.alive hc₂)
    exact wp_mono (fun _ _ h => ⟨h.1, hb.rel.trans (h₃.2.trans h.2)⟩)
      (keeps_notifyRest c earlyMedia s₃ h₃.1 ha)
  split
  · exact fun _ => hrest _ (hi₂.makeCurrent hc₂ .incoming)
  · intro _
    have hq := Core.SameBooks.of_quiet (x := .edit c fun d => { d with ringingBeep := true })
      trivial s₂
    exact hrest _ ⟨hq.inv hi₂, hq.rel⟩

theorem wp_newIncoming {s : Core} {post : CallId → Core → Prop}
    (h : ∀ data s', ((Action.create data).apply s).SameBooks s' → post s.created s') :
    lifecycle.wp newIncoming post s := by
  rw [newIncoming, wp_getCore]
  intro params md ice _
  change lifecycle.wp (edit s.created _ >>= _) post ((Action.create _).apply s)
  refine wp_seq (quiet_edit _ _) fun _ s₁ h₁ => ?_
  exact wp_seq (quiet_prepareIce _) fun _ s₂ h₂ => h _ _ (h₁.trans h₂)

/-- The call that `call_received` goes on with is listed. -/
theorem wp_receiveCall {s : Core} (hs : s.Inv) :
    lifecycle.wp receiveCall
      (fun r s' => s'.Inv ∧ s.Rel s' ∧ ∀ c, r = some c → c ∈ s'.calls) s := by
  have hstay : s.Inv ∧ s.Rel s ∧ ∀ c, (none : Option CallId) = some c → c ∈ s.calls :=
    ⟨hs, .refl s, nofun⟩
  have hrefuse := Core.SameBooks.of_quiet (x := .refuse) trivial s
  rw [receiveCall, wp_getCore]
  intro presence same
  change lifecycle.wp (if _ then _ else _) _ _
  split
  · refine wp_seq (p := Prog.when (presenceDeclines presence) (perform .refuse))
      (Prog.Only.when ⟨trivial, trivial⟩) fun _ s₁ h₁ => ?_
    exact ⟨h₁.inv hs, h₁.rel, nofun⟩
  split
  · rename_i hroom
    rw [wp_bind]
    refine wp_newIncoming fun data s₁ h₁ => ?_
    have hcreate := hs.create data
    refine wp_seq (quiet_makeLocalMediaDescription _) fun _ s₂ h₂ => ?_
    refine wp_seq (quiet_query _) fun md s₃ h₃ => wp_seq (quiet_query _) fun bad s₄ h₄ => ?_
    have hb := h₁.trans (h₂.trans (h₃.trans h₄))
    have hi := hb.inv hcreate.1
    have hr := hcreate.2.trans hb.rel
    split
    · refine wp_seq (quiet_respond _) fun _ s₅ h₅ => ?_
      exact ⟨h₅.inv hi, hr.trans h₅.rel, nofun⟩
    rw [wp_bind, addCall, wp_getCore]
    split
    · intro _
      have hadd := hi.addCall (c := s.created) (by rw [hb.created]; exact Nat.lt_succ_self _)
        (by rw [hb.added]; simp [Action.apply])
        (by rw [hb.state]; simp [Action.apply, Core.state]; rfl)
      refine ⟨hadd.1, hr.trans hadd.2.1, fun c hc => ?_⟩
      cases hc
      exact hadd.2.2
    · rename_i hfull
      rw [hb.calls, hb.maxCalls] at hfull
      exact absurd hroom.1 hfull
  · exact fun _ => ⟨hrefuse.inv hs, hrefuse.rel, nofun⟩

theorem keeps_callReceived : lifecycle.Keeps (fun _ => True) callReceived := by
  intro s hs _
  rw [callReceived, wp_bind]
  refine wp_mono (fun received s₁ h₁ => ?_) (wp_receiveCall hs)
  obtain ⟨hi, hr, hl⟩ := h₁
  cases received with
  | none => exact ⟨hi, hr⟩
  | some c =>
      change lifecycle.wp (readCall c >>= _) _ s₁
      rw [wp_readCall, wp_when]
      split
      · exact wp_mono (fun _ _ h => ⟨h.1, hr.trans h.2⟩)
          (keeps_notifyIncomingCall c s₁ hi (hl c rfl))
      · exact ⟨hi, hr⟩

/-! ## Answers and changes of the peer -/

theorem keeps_callRinging : lifecycle.Keeps (Alive c) (callRinging c) := by
  have hA := stable_alive c
  refine keeps_seq hA (quiet_query _) fun md => keeps_readCall' fun r => ?_
  refine keeps_seq hA (quiet_query _) fun ringing => ?_
  cases md with
  | none => exact Keeps.when fun _ => keeps_setState (by decide)
  | some md =>
      refine Keeps.when fun _ => ?_
      exact keeps_then hA (keeps_setState (by decide)) fun _ => quiet_updateStreams c md

theorem keeps_acceptedMedia (md : Option SalMediaDescription) (updateState : Bool) :
    lifecycle.Keeps (Alive c) (acceptedMedia c md updateState) := by
  have hA := stable_alive c
  refine keeps_seq hA (quiet_query _) fun incompatible => keeps_readCallOk fun r hr => ?_
  refine Keeps.weaken (Q := Alive c) ?_ fun _ h => h.1
  split
  · rename_i md _
    refine Keeps.ite (fun _ => ?_) fun _ => Keeps.ite (fun _ => ?_) fun _ => ?_
    · refine keeps_seq hA (quiet_updateStreams c md) fun _ => ?_
      refine Keeps.bind (Keeps.when fun _ => keeps_setState (by decide)) hA fun _ => ?_
      refine keeps_readCall' fun r => Keeps.when fun _ => keeps_any ?_
      exact keeps_ignoring stable_true (keeps_startReferedCall c)
    · refine keeps_seq hA (quiet_updateStreams c md) fun _ => ?_
      exact Keeps.when fun _ => keeps_setState (by decide)
    · refine keeps_seq hA (quiet_updateStreams c md) fun _ => keeps_readCall' fun r => ?_
      refine Keeps.bind (Keeps.when fun _ => keeps_makeCurrent fun _ h => h) hA fun _ => ?_
      exact Keeps.when fun _ => keeps_setState (by decide)
  · exact Keeps.ite (fun _ => keeps_abortCall c) fun _ => keeps_setState hr.prev

theorem keeps_callAccepted : lifecycle.Keeps (Alive c) (callAccepted c) := by
  have hA := stable_alive c
  refine keeps_seq hA (quiet_query _) fun md => keeps_readCallOk fun r hr => ?_
  refine Keeps.weaken (Q := Alive c) ?_ fun _ h => h.1
  have hconnect : lifecycle.Keeps (Alive c) (do
      setState c .connected
      let r ← readCall c
      acceptedMedia c (acceptedDescription r md) true) :=
    (keeps_setState (by decide)).bind hA fun _ => keeps_readCall' fun r =>
      keeps_acceptedMedia c _ true
  split
  · exact hconnect
  · exact hconnect
  · exact hconnect
  · exact (keeps_setState hr.prev).bind hA fun _ => keeps_readCall' fun r =>
      keeps_acceptedMedia c _ false
  · exact keeps_acceptedMedia c _ true

theorem keeps_callAck : lifecycle.Keeps (Alive c) (callAck c) := by
  have hA := stable_alive c
  refine keeps_readCall' fun r => Keeps.when fun _ => keeps_seq hA (quiet_query _) fun md => ?_
  split
  · exact keeps_seq hA (quiet_updateStreams c _) fun _ => keeps_setState (by decide)
  · exact keeps_abortCall c

theorem keeps_callUpdatedByRemote (isUpdate : Bool) :
    lifecycle.Keeps (Alive c) (callUpdatedByRemote c isUpdate) := by
  have hA := stable_alive c
  refine keeps_seq hA (quiet_useOp c) fun _ => keeps_seq hA (quiet_query _) fun lib => ?_
  refine keeps_seq hA (quiet_query _) fun rmd => keeps_readCall' fun r => ?_
  refine keeps_seq hA (quiet_makeLocalMediaDescription c).when fun _ => ?_
  refine keeps_seq hA (quiet_query _) fun md => keeps_seq hA (quiet_query _) fun incompatible => ?_
  refine Keeps.ite (fun _ => keeps_of_quiet (quiet_respond c)) fun _ => ?_
  refine keeps_seq hA (quiet_query _) fun defer => ?_
  refine Keeps.ite (fun _ => ?_) fun _ => Keeps.ite (fun _ => ?_) fun _ => ?_
  · refine keeps_seq hA (quiet_edit c _) fun _ => ?_
    refine (keeps_setState (by decide)).bind hA fun _ => keeps_readCall' fun r => ?_
    refine keeps_then hA (Keeps.when fun _ => ?_) fun _ => (quiet_edit c _).when
    exact keeps_ignoring hA (keeps_acceptCallUpdate c none)
  · refine keeps_seq hA (quiet_edit c _) fun _ => ?_
    refine keeps_then hA (Keeps.when fun _ => ?_) fun _ => (quiet_edit c _).when
    exact keeps_acceptCallUpdateInternal c none (by decide)
  · refine Keeps.when fun _ => (keeps_setState (by decide)).bind hA fun _ => ?_
    refine keeps_readCallOk fun r hr => Keeps.weaken (Q := Alive c) ?_ fun _ h => h.1
    exact keeps_acceptCallUpdateInternal c none hr.prev

theorem keeps_callUpdating (isUpdate : Bool) :
    lifecycle.Keeps (Alive c) (callUpdating c isUpdate) := by
  have hA := stable_alive c
  have hupdated := keeps_callUpdatedByRemote c isUpdate
  have hpaused : lifecycle.Keeps (Alive c) (callPausedByRemote c) :=
    keeps_seq hA (quiet_query _) fun _ => keeps_acceptCallUpdateInternal c _ (by decide)
  refine keeps_seq hA (quiet_query _) fun rmd => keeps_readCall' fun r => ?_
  cases rmd with
  | none => exact hupdated
  | some rmd =>
      dsimp only
      split
      · exact Keeps.ite (fun _ => keeps_acceptCallUpdateInternal c none (by decide))
          fun _ => hupdated
      · exact Keeps.when fun _ => hupdated
      · exact Keeps.when fun _ => hupdated
      · exact Keeps.when fun _ => hupdated
      · exact Keeps.ite (fun _ => hpaused) fun _ => hupdated
      · exact Keeps.ite (fun _ => hpaused) fun _ => hupdated
      · exact Keeps.ite (fun _ => hpaused) fun _ => hupdated
      · exact keeps_of_quiet (quiet_respond c)
      · exact keeps_of_quiet (quiet_respond c)
      · exact keeps_of_quiet (quiet_respond c)
      · exact keeps_of_quiet (quiet_respond c)
      · exact keeps_pure _

/-! ## Ends of calls -/

theorem keeps_callTerminated : lifecycle.Keeps (Alive c) (callTerminated c) := by
  have hA := stable_alive c
  refine keeps_readCall' fun r => Keeps.when fun _ => keeps_seq hA (quiet_edit c _).when fun _ => ?_
  refine Keeps.bind (Keeps.when fun _ => keeps_any ?_) hA fun _ => ?_
  · exact keeps_ignoring stable_true (keeps_startReferedCall c)
  · exact keeps_seq hA (quiet_edit c _) fun _ => keeps_setState (by decide)

theorem keeps_restartInvite : lifecycle.Keeps (Alive c) (restartInvite c) := by
  refine keeps_createOp.bind (stable_alive c) fun _ => ?_
  exact keeps_seq (stable_alive c) (quiet_edit c _) fun _ => keeps_startInvite c

theorem keeps_finishFailure (reason : SalReason) (referer : Option CallId) :
    lifecycle.Keeps (Alive c) (finishFailure c reason referer) := by
  have hA := stable_alive c
  refine keeps_readCallOk fun r hr => Keeps.weaken (Q := Alive c) ?_ fun _ h => h.1
  refine Keeps.ite (fun _ => keeps_setState hr.prev) fun _ => ?_
  refine keeps_seq hA (quiet_edit c _) fun _ => ?_
  refine keeps_then hA (Keeps.when fun _ => ?_) fun _ => ?_
  · exact keeps_setState (by split <;> decide)
  · cases referer <;> trivial

theorem keeps_callFailure (reason : SalReason) (contact : Bool) :
    lifecycle.Keeps (Alive c) (callFailure c reason contact) := by
  have hA := stable_alive c
  refine keeps_readCallOk fun r hr => Keeps.weaken (Q := Alive c) ?_ fun _ h => h.1
  cases reason with
  | redirect =>
      refine keeps_seq hA (quiet_edit c _) fun _ => ?_
      exact Keeps.ite (fun _ => keeps_restartInvite c) fun _ => keeps_finishFailure c _ _
  | unsupportedContent | notAcceptable =>
      refine keeps_seq hA (quiet_query _) fun mandatory => ?_
      split
      · exact keeps_seq hA (quiet_edit c _) fun _ => keeps_restartInvite c
      · exact keeps_finishFailure c _ _
  | requestPending => exact keeps_setState hr.prev
  | _ => exact keeps_finishFailure c _ _

/-- The books after the reference of a released call is dropped. -/
theorem Core.Inv.dropped {s s' : Core} {c : CallId} (hs : s.Inv) (hst : s.state c = .released)
    (hrest : ∀ i, i ≠ c → s.state i = .released → (s.call i).op = false ∧ (s.call i).drops = 1)
    (hcreated : s'.created = s.created) (hcalls : s'.calls = s.calls)
    (hcur : s'.currentCall = s.currentCall)
    (hself : s'.call c = { s.call c with op := false, drops := 1, data := (s'.call c).data })
    (hother : ∀ i, i ≠ c → s'.call i = s.call i) : s'.Idle := by
  have hstate : ∀ i, s'.state i = s.state i := by
    intro i
    by_cases hic : i = c
    · rw [hic, Core.state, hself, Core.state]
    · rw [Core.state, hother i hic, Core.state]
  have hadded : ∀ i, (s'.call i).added = (s.call i).added := by
    intro i
    by_cases hic : i = c
    · rw [hic, hself]
    · rw [hother i hic]
  refine ⟨⟨fun i => ?_, by rw [hcalls]; exact hs.nodup, fun i => ?_, fun i => ?_, fun i hi => ?_⟩,
    fun i hi => ?_, fun i hi => ?_⟩
  · by_cases hic : i = c
    · have hok := hs.calls c
      rw [hic, hself]
      refine ⟨hok.life, hok.head, hok.prev, hok.completed, ?_⟩
      -- the state it is in is one of its history
      have hmem : CallState.released ∈ (s.call c).history := by
        rw [← hst]
        exact List.mem_of_mem_head? hok.head
      exact List.count_pos_iff.mpr hmem
    · rw [hother i hic]
      exact hs.calls i
  · rw [hcalls, hadded, hstate]
    exact hs.listed i
  · rw [hcur, hcalls]
    exact hs.current i
  · rw [hcreated] at hi
    rw [hadded, hstate]
    exact hs.fresh i hi
  · by_cases hic : i = c
    · rw [hic, hself]
    · rw [hstate] at hi
      rw [hother i hic]
      exact (hrest i hic hi).1
  · by_cases hic : i = c
    · rw [hic, hself]
    · rw [hstate] at hi
      rw [hother i hic]
      exact (hrest i hic hi).2

theorem Core.Inv.assign_released {s : Core} {c : CallId} (hs : s.Inv) (hc : c < s.created)
    (hend : (s.state c).ended = true) : (s.modify c (·.assign .released)).Inv := by
  have hst : (s.call c).vars.state ≠ .released := by
    intro h
    rw [Core.state, h] at hend
    cases hend
  have heq := CallRec.assign_moves hst (by decide) fun _ => rfl
  refine ⟨fun i => ?_, hs.nodup, fun i => ?_, hs.current, fun i hi => ?_⟩ <;>
    by_cases hic : i = c
  · subst hic
    simpa using (hs.calls i).assign_released hend
  · simpa [hic] using hs.calls i
  · subst hic
    have hl := hs.listed i
    rw [CallState.ended_final hend] at hl
    simpa [Core.state, heq, CallState.final] using hl
  · simpa [Core.state, hic] using hs.listed i
  · subst hic
    exact absurd hc (Nat.not_lt.mpr hi)
  · simpa [Core.state, hic] using hs.fresh i hi

/-- **`call_released`.** The reference of the core is dropped after the notification, with the call
off the books for good. -/
theorem wp_callReleased {s : Core} (hs : s.Idle) (hc : c < s.created) :
    lifecycle.wp (callReleased c) (fun _ s' => s'.Idle) s := by
  rw [callReleased, setState, setStateWith, wp_readCall]
  by_cases hst : (s.call c).vars.state = .released
  · have hout : ((s.call c).vars.setState .released).2 = .same := by
      simp [StateVars.setState, hst]
    rw [hout]
    exact hs
  have hout : ((s.call c).vars.setState .released).2 = .notified := by
    simp [StateVars.setState, hst]
  rw [hout]
  intro (hend : (s.state c).ended = true)
  have hinv := hs.inv.assign_released hc hend
  have heq := CallRec.assign_moves hst (by decide) fun _ => rfl
  refine ⟨hinv, fun s₁ hi₁ (hr₁ : (s.modify c (·.assign .released)).Rel s₁) => ?_⟩
  -- the notification leaves the call released and its reference alone
  have hst₁ : s₁.state c = .released := by
    rw [hr₁.released]
    simp [Core.state, heq]
  have hd₁ : (s₁.call c).drops = 0 := by
    rw [hr₁.drops c (by simp [Core.state, heq])]
    simpa [heq] using (hs.inv.calls c).drops_eq_zero hst
  have hrest : ∀ i, i ≠ c → s₁.state i = .released →
      (s₁.call i).op = false ∧ (s₁.call i).drops = 1 := by
    intro i hic hi
    rw [hr₁.released] at hi
    rw [hr₁.op i hi, hr₁.drops i hi]
    simp only [Core.state, Core.modify_call_ne _ _ hic] at hi ⊢
    exact ⟨hs.op i hi, hs.drops i hi⟩
  change lifecycle.wp (setReleased c) _ s₁
  rw [setReleased, wp_readCall, wp_bind, wp_when]
  split
  · intro _ _ _ _ _
    refine hi₁.dropped hst₁ hrest rfl rfl rfl ?_ ?_
    · simp [Action.apply, hd₁]
    · simp +contextual [Action.apply]
  · rename_i hop
    intro _ _
    refine hi₁.dropped hst₁ hrest rfl rfl rfl ?_ ?_
    · simp [Action.apply, hd₁, show (s₁.call c).op = false by simpa using hop]
    · simp +contextual [Action.apply]

/-! ## Transfers, ICE and timers -/

theorem keeps_referReceived (referTo : String) :
    lifecycle.Keeps (Alive c) (referReceived c referTo) := by
  have hA := stable_alive c
  refine keeps_seq hA (quiet_edit c _) fun _ => (keeps_setState (by decide)).bind hA fun _ => ?_
  refine keeps_readCall' fun r => Keeps.when fun _ => keeps_any ?_
  exact keeps_ignoring stable_true (keeps_startReferedCall c)

theorem keeps_resumeCallAfterFailedTransfer :
    lifecycle.Keeps (fun _ => True) (resumeCallAfterFailedTransfer c) := by
  refine keeps_readCall' fun r => keeps_seq stable_true (quiet_query _) fun idle => ?_
  refine Keeps.ite (fun _ => keeps_pure _) fun _ => ?_
  refine keeps_then stable_true (Keeps.when fun _ => ?_) fun _ => ⟨trivial, trivial⟩
  exact keeps_ignoring stable_true (keeps_resumeCall c)

theorem keeps_pingReply : lifecycle.Keeps (fun _ => True) (pingReply c) := by
  refine keeps_readCall fun r => Keeps.when fun hst => ?_
  refine keeps_of_alive ?_ (by simp [of_decide_eq_true hst])
  exact keeps_seq (stable_alive c) (quiet_edit c _) fun _ => keeps_proceedWithInviteIfReady c

theorem keeps_iceUpdate : lifecycle.Keeps (fun _ => True) (iceUpdate c) :=
  keeps_seq stable_true (quiet_query _) fun _ => keeps_ignoring stable_true (keeps_updateCall c _)

theorem keeps_iceGatheringFinished (successful : Bool) :
    lifecycle.Keeps (fun s => c ∈ s.calls) (iceGatheringFinished c successful) := by
  intro s hs hc
  refine wp_seq (quiet_edit c _).when fun _ s₁ h₁ => ?_
  have hc₁ : c ∈ s₁.calls := by
    rw [h₁.calls]
    exact hc
  refine wp_mono (fun _ _ h => ⟨h.1, h₁.rel.trans h.2⟩)
    (keeps_readCallOk (P := fun s => c ∈ s.calls) (fun r hr => ?_) s₁ (h₁.inv hs) hc₁)
  have halive : ∀ {p : CoreProg Unit}, lifecycle.Keeps (Alive c) p →
      lifecycle.Keeps (fun s => c ∈ s.calls ∧ s.call c = r) p :=
    fun hp s hi h => hp s hi (Core.Inv.alive hi h.1)
  split
  · exact halive (keeps_of_quiet ((quiet_startUpdateCall c).bind fun _ => trivial))
  · exact halive (keeps_startAcceptCallUpdate c hr.prev)
  · exact halive (keeps_proceedWithInviteIfReady c)
  · intro s₂ hi₂ h₂
    refine wp_seq (quiet_useOp c) fun _ s₃ h₃ => ?_
    have hc₃ : c ∈ s₃.calls := by
      rw [h₃.calls]
      exact h₂.1
    exact wp_mono (fun _ _ h => ⟨h.1, h₃.rel.trans h.2⟩)
      (keeps_notifyIncomingCall c s₃ (h₃.inv hi₂) hc₃)
  · exact keeps_pure _

theorem keeps_iceLosingPairsCompleted :
    lifecycle.Keeps (fun _ => True) (iceLosingPairsCompleted c) := by
  refine keeps_readCallOk fun r hr => Keeps.when fun hst => ?_
  exact keeps_of_alive (keeps_startAcceptCallUpdate c hr.prev) (by simp [of_decide_eq_true hst])

theorem keeps_delayedTimeout : lifecycle.Keeps (fun _ => True) (delayedTimeout c) := by
  refine keeps_readCall fun r => Keeps.when fun hst => ?_
  refine keeps_of_alive ?_ (by simp [of_decide_eq_true hst])
  exact keeps_seq (stable_alive c) (quiet_edit c _) fun _ => keeps_startInvite c

theorem keeps_incTimeout : lifecycle.Keeps (fun _ => True) (incTimeout c) := by
  refine keeps_readCall' fun r => Keeps.when fun _ => ?_
  refine keeps_seq stable_true (quiet_edit c _) fun _ => ?_
  exact keeps_ignoring stable_true (keeps_declineCall c)

end events

/-- **Every event keeps the books.** An upcall comes on an operation, which released calls have
given up. -/
theorem wp_coreEvent (e : CoreEvent) {s : Core} (hs : s.Idle) (he : e.Enabled s) :
    lifecycle.wp e.program (fun _ s' => s'.Idle) s := by
  have hT := stable_true
  have halive : ∀ c, (s.call c).op = true → Alive c s := by
    intro c hop hr
    rw [hs.op c hr] at hop
    cases hop
  cases e with
  | received => exact keeps_callReceived.idle hs trivial
  | ringing c => exact (keeps_callRinging c).idle hs (halive c he.2)
  | accepted c => exact (keeps_callAccepted c).idle hs (halive c he.2)
  | ack c => exact (keeps_callAck c).idle hs (halive c he.2)
  | updating c isUpdate => exact (keeps_callUpdating c isUpdate).idle hs (halive c he.2)
  | terminated c => exact (keeps_callTerminated c).idle hs (halive c he.2)
  | failure c reason contact => exact (keeps_callFailure c reason contact).idle hs (halive c he.2)
  | released c => exact wp_callReleased c hs he.1
  | refer c referTo => exact (keeps_referReceived c referTo).idle hs (halive c he.2)
  | notifyRefer c succeeded =>
      exact (Keeps.when fun _ => keeps_ignoring hT (keeps_terminateCall c)).idle hs trivial
  | pingReply c => exact (keeps_pingReply c).idle hs trivial
  | iceUpdate c => exact (keeps_iceUpdate c).idle hs trivial
  | iceGatheringFinished c successful =>
      exact (keeps_iceGatheringFinished c successful).idle hs he
  | iceLosingPairsCompleted c => exact (keeps_iceLosingPairsCompleted c).idle hs trivial
  | delayedTimeout c => exact (keeps_delayedTimeout c).idle hs trivial
  | incTimeout c => exact (keeps_incTimeout c).idle hs trivial
  | inCallTimeout c => exact (keeps_ignoring hT (keeps_terminateCall c)).idle hs trivial
  | resumeAfterFailedTransfer c =>
      exact (keeps_resumeCallAfterFailedTransfer c).idle hs trivial

/-! ## Runs of a core -/

/-- A core to which the application and the network do what they like, but for the actions that
are not admitted. -/
def coreSystem (ok : Action → Core → Prop) : System coreSig where
  api _ p := ∃ a : ApiCall, p = a.program
  event s p := ∃ e : CoreEvent, e.Enabled s ∧ p = e.program
  ok := ok
  init s := s.call = (fun _ => {}) ∧ s.created = 0 ∧ s.calls = [] ∧ s.currentCall = none

theorem meets_lifecycle : Meets lifecycle (coreSystem Guard) where
  init := by
    rintro s ⟨hcall, hcreated, hcalls, hcur⟩
    refine ⟨⟨fun c => ?_, ?_, fun c => ?_, fun c hc => ?_, fun c _ => ?_⟩, fun c hc => ?_,
      fun c hc => ?_⟩
    · rw [hcall]
      exact CallRec.ok_new
    · rw [hcalls]
      exact List.nodup_nil
    · rw [hcalls, hcall]
      simp
    · rw [hcur] at hc
      cases hc
    · rw [Core.state, hcall]
      exact ⟨rfl, fun h => CallState.noConfusion h⟩
    · rw [Core.state, hcall] at hc
      cases hc
    · rw [Core.state, hcall] at hc
      cases hc
  ok _ _ h := h
  api := by
    rintro s _ ⟨a, rfl⟩ hs
    exact keeps_apiCall a s hs trivial
  event := by
    rintro s _ ⟨e, he, rfl⟩ hs
    exact wp_coreEvent e hs he

/-- The life of the calls of a core, as it looks from outside. -/
structure Core.Lifecycle (s : Core) : Prop where
  /-- The history of a call leads to the state it is in. -/
  state : ∀ c, (s.call c).history.head? = some (s.state c)
  listed : ∀ c, (s.call c).added = true →
    (c ∈ s.calls ↔ s.state c ≠ .end ∧ s.state c ≠ .error ∧ s.state c ≠ .released)
  current : s.currentCall = none ∨ ∃ c ∈ s.calls, s.currentCall = some c
  /-- A call ends once, and then is released or stays. -/
  life : ∀ c, Life (s.call c).history
  /-- It is completed in the call log when it ends. -/
  completed : ∀ c, (s.call c).completed = (s.call c).history.countP CallState.ended
  dropsOnce : ∀ c, (s.call c).drops ≤ 1
  dropsLast : ∀ c, 0 < (s.call c).drops → c ∉ s.calls ∧ s.state c = .released

theorem Life.count_released_le {l : List CallState} (hl : Life l) : l.count .released ≤ 1 := by
  cases hl with
  | live hl => rw [count_released_of_live hl]; decide
  | closed he hl =>
      rw [List.count_cons, count_released_of_live hl]
      split <;> decide
  | gone he hl =>
      rename_i e _
      have hne : e ≠ .released := by
        rintro rfl
        cases he
      simp [count_released_of_live hl, hne]

theorem Core.Inv.lifecycle {s : Core} (hs : s.Inv) : s.Lifecycle where
  state c := (hs.calls c).head
  listed c ha := by
    rw [hs.listed, ha]
    simp [CallState.final, CallState.ended, and_assoc]
  current := by
    cases hc : s.currentCall with
    | none => exact .inl rfl
    | some c => exact .inr ⟨c, hs.current c hc, rfl⟩
  life c := (hs.calls c).life
  completed c := (hs.calls c).completed
  dropsOnce c := Nat.le_trans (hs.calls c).drops (hs.calls c).life.count_released_le
  dropsLast c hd := by
    have hst : s.state c = .released := by
      by_contra hst
      have := (hs.calls c).drops_eq_zero hst
      omega
    refine ⟨fun hc => ?_, hst⟩
    have hf := ((hs.listed c).mp hc).2
    rw [hst] at hf
    cases hf

/-- **The life of a call.** In every run in which calls are made current while they are listed and
released after they have ended, the books are right whenever the application or the network gets to
look; and when nothing runs, the reference of every released call is dropped. -/
theorem lifecycle_of_reachable {cfg : Config coreSig}
    (hr : Reachable (coreSystem Guard) cfg) (ho : cfg.Observed) :
    Core.Lifecycle cfg.state ∧
      (cfg.stack = [] → ∀ c, Core.state cfg.state c = .released →
        (Core.call cfg.state c).drops = 1) :=
  ⟨(meets_lifecycle.inv_of_reachable hr ho).lifecycle,
    fun hst => (meets_lifecycle.idle_of_reachable hr hst).drops⟩

/-! ## Runs on concrete calls -/

/-- An environment in which every request is sent and nothing is configured. -/
def plainAnswers : (q : Query) → q.Answer
  | .mediaLib => plainLib
  | .presenceModel => some { services := [{ status := .open }] }
  | .flag _ _ => false
  | .newParams => {}
  | .currentParams _ => {}
  | .localDescription _ => .new
  | .finalDescription _ => none
  | .remoteDescription _ => none
  | .updateEnv _ => { state := .idle }
  | .sent _ _ => true
  | .prepareIce _ => .ready
  | .replaces _ => none
  | .opReason _ => .none
  | .remoteParticipants => 0

/-- The state after an operation or event, with a quiet application. -/
def coreAfter (ok : Action → Core → Bool) (p : CoreProg Unit) (s : Core) : Core :=
  ((p.play ok plainAnswers s).map Prod.snd).getD s

theorem reachable_start (ok : Action → Core → Prop) : Reachable (coreSystem ok) ⟨[], {}⟩ :=
  .init ⟨rfl, rfl, rfl, rfl⟩

theorem reachable_coreAfter {ok : Action → Core → Prop} {b : Action → Core → Bool}
    (hok : ∀ x s, b x s = true → ok x s) {p : CoreProg Unit} {s : Core}
    (hr : Reachable (coreSystem ok) ⟨[p], s⟩) (hp : (p.play b plainAnswers s).isSome = true) :
    Reachable (coreSystem ok) ⟨[], coreAfter b p s⟩ := by
  obtain ⟨r, h⟩ := Option.isSome_iff_exists.mp hp
  have hreach : Reachable (coreSystem ok) ⟨[], r.2⟩ := reachable_of_play hok hr h
  rwa [coreAfter, h]

/-- Every action but the ones that break the books. -/
def bookish : Action → Core → Bool
  | .makeCurrent .invited _, _ => true
  | .makeCurrent _ _, _ => false
  | .assign c .released, s => (s.state c).ended
  | _, _ => true

theorem guard_of_bookish (x : Action) (s : Core) (h : bookish x s = true) : Guard x s := by
  unfold Guard
  split
  · cases h
  · cases h
  · cases h
  · exact h
  · trivial

/-- A call that is placed, ended by the application, and released. -/
def placed : Core := coreAfter bookish ApiCall.invite.program {}

def hungUp : Core := coreAfter bookish (ApiCall.terminate 0).program placed

def letGo : Core := coreAfter bookish (CoreEvent.released 0).program hungUp

theorem reachable_placed : Reachable (coreSystem Guard) ⟨[], placed⟩ :=
  reachable_coreAfter guard_of_bookish
    ((reachable_start _).step (.api ⟨.invite, rfl⟩)) rfl

theorem reachable_letGo : Reachable (coreSystem Guard) ⟨[], letGo⟩ := by
  have hended : Reachable (coreSystem Guard) ⟨[], hungUp⟩ :=
    reachable_coreAfter guard_of_bookish
      (reachable_placed.step (.api ⟨.terminate 0, rfl⟩)) rfl
  exact reachable_coreAfter guard_of_bookish
    (hended.step (.event ⟨.released 0, ⟨by decide, rfl⟩, rfl⟩)) rfl

theorem lifecycle_of_letGo : letGo.state 0 = .released ∧ letGo.Lifecycle ∧
    (letGo.call 0).drops = 1 := by
  have h := lifecycle_of_reachable reachable_letGo (.inl rfl)
  exact ⟨rfl, h.1, h.2 rfl 0 rfl⟩

/-- The first INVITE is answered 491, which puts the call back to `OutgoingInit`; the SAL releases
an operation whose call is still listed. -/
def pendingRefused : Core :=
  coreAfter (fun _ _ => true) (CoreEvent.failure 0 .requestPending false).program placed

def releasedListed : Core := coreAfter (fun _ _ => true)
    (CoreEvent.released 0).program pendingRefused

theorem released_while_listed : ¬∀ cfg : Config coreSig,
    Reachable (coreSystem fun _ _ => True) cfg → cfg.Observed → Core.Lifecycle cfg.state := by
  intro h
  have hplaced : Reachable (coreSystem fun _ _ => True) ⟨[], placed⟩ :=
    reachable_coreAfter (b := bookish) (fun _ _ _ => trivial)
      ((reachable_start _).step (.api ⟨.invite, rfl⟩)) rfl
  have hrefused : Reachable (coreSystem fun _ _ => True) ⟨[], pendingRefused⟩ :=
    reachable_coreAfter (fun _ _ _ => trivial)
      (hplaced.step (.event ⟨.failure 0 .requestPending false, ⟨by decide, rfl⟩, rfl⟩)) rfl
  have hreleased : Reachable (coreSystem fun _ _ => True) ⟨[], releasedListed⟩ :=
    reachable_coreAfter (fun _ _ _ => trivial)
      (hrefused.step (.event ⟨.released 0, ⟨by decide, rfl⟩, rfl⟩)) rfl
  -- the call is in the list, with its reference dropped
  have hdropped := (h _ hreleased (.inl rfl)).dropsLast 0 (by decide)
  exact hdropped.1 (by decide)

end Linphone
