import Linphone.Sal.CallHandlers

/-!
# The end of a call operation

What an operation sends and reports from `sal_call_terminate` on. A termination before any
provisional response is only remembered in the state of the operation, and carried out by the
response that comes next; the release is reported when the stack is through with the dialog.

`tornDown_of_reachable`: in a run that keeps to `EndsOnce` there is at most one CANCEL and one BYE,
every accepted INVITE is acknowledged, `call_accepted` is not reported after the termination, and
`call_released` is the last thing that happens.
-/

namespace Linphone

open Reentrant SalOpCall

/-! ## The condition -/

/-- The state of the dialog a response belongs to. -/
def SalResponse.dialogState (r : SalResponse) : DialogState := (r.dialog.map Prod.snd).getD .null

/-- The runs without the crossings that are handled wrongly. An accepted INVITE comes in while the
operation is not being terminated, in a confirmed dialog that an ACK can be made for; a terminating
operation that has sent its BYE gets no response in a confirmed dialog; no UPDATE is accepted in an
early dialog of one that is terminating; and the call layer ends no operation in `call_accepted` for
an INVITE. -/
def EndsOnce : OpAction → CallOp → Prop
  | .arrive r, s => r.inviteOk = true →
      s.closed = false ∧ r.dialogState = .confirmed ∧ r.ackCreated = true
  | .process r, s =>
      ¬(s.state = .terminating ∧ r.dialogState = .confirmed ∧ .request .bye ∈ s.trace) ∧
      ¬(s.closed = true ∧ (r.method = .update ∧ 200 ≤ r.code ∧ r.code < 300) ∧
        (r.dialogState = .null ∨ r.dialogState = .early))
  | .activate, s => s.closed = false
  | _, _ => True

instance (x : OpAction) (s : CallOp) : Decidable (EndsOnce x s) := by
  apply @OpAction.casesOn (fun x => Decidable (EndsOnce x s)) x <;> intros <;> unfold EndsOnce <;>
    infer_instance

/-- An operation that is ended at most once, from its trace, the latest first. -/
structure TornDown (l : List Trace) : Prop where
  cancelOnce : l.count (.request .cancel) ≤ 1
  byeOnce : l.count (.request .bye) ≤ 1
  acknowledged : l.count .inviteOk = l.count .ack
  accepted : l.Pairwise fun later earlier => later = .told .callAccepted → earlier ≠ .terminate
  releasedLast : l.Pairwise fun _ earlier => earlier ≠ .told .callReleased

theorem TornDown.append {l : List Trace} (new : List Trace) (h : TornDown l)
    (hlive : .told .callReleased ∉ l)
    (hcancel : new.count (.request .cancel) + l.count (.request .cancel) ≤ 1)
    (hbye : new.count (.request .bye) + l.count (.request .bye) ≤ 1)
    (hack : new.count .inviteOk = new.count .ack)
    (haccepted : new.Pairwise fun later earlier =>
      later = .told .callAccepted → earlier ≠ .terminate)
    (hopen : .told .callAccepted ∈ new → .terminate ∉ l)
    (hreleased : new.Pairwise fun _ earlier => earlier ≠ .told .callReleased) :
    TornDown (new ++ l) where
  cancelOnce := by rwa [List.count_append]
  byeOnce := by rwa [List.count_append]
  acknowledged := by rw [List.count_append, List.count_append, hack, h.acknowledged]
  accepted := by
    rw [List.pairwise_append]
    refine ⟨haccepted, h.accepted, fun later hl earlier he hacc => ?_⟩
    rw [hacc] at hl
    intro hterm
    rw [hterm] at he
    exact hopen hl he
  releasedLast := by
    rw [List.pairwise_append]
    refine ⟨hreleased, h.releasedLast, fun _ _ earlier he hrel => ?_⟩
    rw [hrel] at he
    exact hlive he

/-- One entry more. -/
theorem TornDown.cons {l : List Trace} {e : Trace} (h : TornDown l)
    (hlive : .told .callReleased ∉ l) (hcancel : e = .request .cancel → .request .cancel ∉ l)
    (hbye : e = .request .bye → .request .bye ∉ l) (hack : e ∉ [Trace.ack, .inviteOk])
    (hopen : e = .told .callAccepted → .terminate ∉ l) : TornDown (e :: l) := by
  have honce : ∀ x, (e = x → x ∉ l) → l.count x ≤ 1 → [e].count x + l.count x ≤ 1 := by
    intro x hx hle
    by_cases hex : e = x
    · rw [List.count_eq_zero.mpr (hx hex), Nat.add_zero]
      exact List.count_le_length
    · rwa [List.count_eq_zero.mpr (by simpa using Ne.symm hex), Nat.zero_add]
  rw [List.mem_cons, List.mem_singleton, not_or] at hack
  refine h.append [e] hlive (honce _ hcancel h.cancelOnce) (honce _ hbye h.byeOnce) ?_
    (List.pairwise_singleton ..) (fun hmem => ?_) (List.pairwise_singleton ..)
  · rw [List.count_eq_zero.mpr (by simpa using Ne.symm hack.2),
      List.count_eq_zero.mpr (by simpa using Ne.symm hack.1)]
  · exact hopen (List.mem_singleton.mp hmem).symm

/-- Entries that are about no end: other requests, responses and reports. -/
def Trace.quiet (e : Trace) : Bool :=
  e ∉ [Trace.request .cancel, .request .bye, .ack, .inviteOk, .terminate, .told .callAccepted,
    .told .callReleased]

namespace CallOp

/-! ## The invariant -/

/-- What sends or reports the end of an operation leaves it closed. -/
structure Torn (s : CallOp) : Prop where
  down : TornDown s.trace
  /-- A CANCEL is made for an INVITE, and is not one. -/
  cancel : .request .cancel ∈ s.trace → s.closed = true ∧ s.pendingClientTrans ≠ some .invite
  bye : .request .bye ∈ s.trace → s.closed = true
  terminate : .terminate ∈ s.trace → s.closed = true
  release : .told .callReleased ∈ s.trace → s.state = .terminated

/-- What the call layer can do: it opens no operation again, and touches none that was released. -/
structure Tears (s s' : CallOp) : Prop where
  closed : s.closed = true → s'.closed = true
  released : .told .callReleased ∈ s'.trace ↔ .told .callReleased ∈ s.trace
  freed : .told .callReleased ∈ s.trace →
    s'.dialog = s.dialog ∧ s'.callReleased = s.callReleased

/-- The release was not reported yet. -/
def Live (s : CallOp) : Prop := .told .callReleased ∉ s.trace

variable {s s' : CallOp}

theorem live_iff (s : CallOp) : s.released = false ↔ s.Live := by
  rw [released, Live, List.contains_eq_mem, decide_eq_false_iff_not]

theorem Tears.refl (s : CallOp) : Tears s s := ⟨id, Iff.rfl, fun _ => ⟨rfl, rfl⟩⟩

theorem Tears.trans {s'' : CallOp} (h₁ : Tears s s') (h₂ : Tears s' s'') : Tears s s'' where
  closed h := h₂.closed (h₁.closed h)
  released := h₂.released.trans h₁.released
  freed h := by
    obtain ⟨hd₁, hr₁⟩ := h₁.freed h
    obtain ⟨hd₂, hr₂⟩ := h₂.freed (h₁.released.mpr h)
    exact ⟨hd₂.trans hd₁, hr₂.trans hr₁⟩

theorem Torn.fresh (hs : s.Torn) (hopen : s.closed = false) :
    .request .cancel ∉ s.trace ∧ .request .bye ∉ s.trace ∧ .terminate ∉ s.trace ∧ s.Live := by
  have hne : s.closed ≠ true := by
    rw [hopen]
    decide
  refine ⟨fun h => hne (hs.cancel h).1, fun h => hne (hs.bye h), fun h => hne (hs.terminate h),
    fun h => hne ?_⟩
  rw [CallOp.closed, hs.release h]
  rfl

/-- New entries in the trace of an operation that was not released. -/
theorem Torn.extend (hs : s.Torn) (new : List Trace) (htrace : s'.trace = new ++ s.trace)
    (hdown : TornDown (new ++ s.trace)) (hclosed : s.closed = true → s'.closed = true)
    (hpending : .request .cancel ∈ new ++ s.trace → s'.pendingClientTrans ≠ some .invite)
    (hend : ∀ e ∈ new, e ∈ [Trace.request .cancel, .request .bye, .terminate] → s'.closed = true)
    (hreleased : .told .callReleased ∈ new ++ s.trace → s'.state = .terminated) : s'.Torn := by
  rw [← htrace] at hdown hpending hreleased
  have hmem : ∀ e ∈ s'.trace, e ∈ [Trace.request .cancel, .request .bye, .terminate] →
      (e ∈ s.trace → s.closed = true) → s'.closed = true := by
    intro e he hkind hold
    rw [htrace, List.mem_append] at he
    rcases he with he | he
    · exact hend e he hkind
    · exact hclosed (hold he)
  refine ⟨hdown, fun h => ⟨hmem _ h (by simp) fun h => (hs.cancel h).1, hpending h⟩,
    fun h => hmem _ h (by simp) hs.bye, fun h => hmem _ h (by simp) hs.terminate, hreleased⟩

/-- Changes to fields that no trace is about. -/
theorem Torn.same (hs : s.Torn) (htrace : s'.trace = s.trace)
    (hclosed : s.closed = true → s'.closed = true)
    (hreleased : .told .callReleased ∈ s.trace → s'.state = .terminated)
    (hpending : s'.pendingClientTrans = s.pendingClientTrans ∨
      s'.pendingClientTrans ≠ some .invite) : s'.Torn where
  down := by
    rw [htrace]
    exact hs.down
  cancel h := by
    rw [htrace] at h
    refine ⟨hclosed (hs.cancel h).1, ?_⟩
    rcases hpending with hp | hp
    · rw [hp]
      exact (hs.cancel h).2
    · exact hp
  bye h := hclosed (hs.bye (htrace ▸ h))
  terminate h := hclosed (hs.terminate (htrace ▸ h))
  release h := hreleased (htrace ▸ h)

/-- One entry that is about no end. -/
theorem Torn.quiet (hs : s.Torn) (hlive : s.Live) {e : Trace} (he : e.quiet = true)
    (htrace : s'.trace = e :: s.trace) (hclosed : s.closed = true → s'.closed = true)
    (hpending : .request .cancel ∈ s.trace → s'.pendingClientTrans ≠ some .invite) :
    s'.Torn ∧ Tears s s' := by
  have hne : ∀ x, x.quiet = false → e ≠ x := by
    rintro x hx rfl
    rw [he] at hx
    cases hx
  have hdown : TornDown (e :: s.trace) := by
    refine hs.down.cons hlive (fun h => absurd h (hne _ rfl)) (fun h => absurd h (hne _ rfl)) ?_
      fun h => absurd h (hne _ rfl)
    simp [hne .ack rfl, hne .inviteOk rfl]
  have hold : ∀ x, x.quiet = false → x ∈ e :: s.trace → x ∈ s.trace := by
    intro x hx hmem
    rcases List.mem_cons.mp hmem with h | h
    · exact absurd h.symm (hne x hx)
    · exact h
  refine ⟨hs.extend [e] htrace hdown hclosed (fun h => hpending (hold _ rfl h)) ?_
    fun h => absurd (hold _ rfl h) hlive, hclosed, ?_, fun h => absurd h hlive⟩
  · intro x hx hkind
    refine absurd (List.mem_singleton.mp hx).symm (hne x ?_)
    simp only [List.mem_cons, List.not_mem_nil, or_false] at hkind
    rcases hkind with rfl | rfl | rfl <;> rfl
  · rw [htrace]
    refine ⟨fun h => hold _ rfl h, fun h => List.mem_cons_of_mem _ h⟩

/-- The teardown of an operation that is not closed. -/
theorem Torn.close (hs : s.Torn) (hopen : s.closed = false) (new : List Trace)
    (htrace : s'.trace = new ++ s.trace) (hclosed : s'.closed = true)
    (hcancel : new.count (.request .cancel) ≤ 1) (hbye : new.count (.request .bye) ≤ 1)
    (hpending : .request .cancel ∈ new → s'.pendingClientTrans ≠ some .invite)
    (hno : ∀ e ∈ new, e ∉ [Trace.ack, .inviteOk, .told .callAccepted, .told .callReleased]) :
    s'.Torn ∧ Tears s s' := by
  obtain ⟨hc, hb, -, hlive⟩ := hs.fresh hopen
  have hzero : ∀ x ∈ [Trace.ack, .inviteOk, .told .callAccepted, .told .callReleased], x ∉ new :=
    fun x hx hmem => hno x hmem hx
  have hdown : TornDown (new ++ s.trace) := by
    refine hs.down.append new hlive ?_ ?_ ?_ ?_ ?_ ?_
    · rw [List.count_eq_zero.mpr hc]
      exact hcancel
    · rw [List.count_eq_zero.mpr hb]
      exact hbye
    · rw [List.count_eq_zero.mpr (hzero _ (by simp)), List.count_eq_zero.mpr (hzero _ (by simp))]
    · refine List.pairwise_of_forall_mem_list fun a ha b _ hacc => ?_
      rw [hacc] at ha
      exact absurd ha (hzero _ (by simp))
    · exact fun h => absurd h (hzero _ (by simp))
    · refine List.pairwise_of_forall_mem_list fun a _ b hb hrel => ?_
      rw [hrel] at hb
      exact hzero _ (by simp) hb
  have hfree : .told .callReleased ∉ new ++ s.trace := by
    rw [List.mem_append]
    exact not_or_intro (hzero _ (by simp)) hlive
  refine ⟨hs.extend new htrace hdown (fun _ => hclosed) (fun h => ?_) (fun _ _ _ => hclosed)
    fun h => absurd h hfree, fun _ => hclosed, ?_, fun h => absurd h hlive⟩
  · rcases List.mem_append.mp h with h | h
    · exact hpending h
    · exact absurd h hc
  · rw [htrace]
    exact ⟨fun h => absurd h hfree, fun h => absurd h hlive⟩

theorem Torn.unmoved (hs : s.Torn) (hlive : s.Live) (htrace : s'.trace = s.trace)
    (hclosed : s.closed = true → s'.closed = true)
    (hpending : s'.pendingClientTrans = s.pendingClientTrans ∨
      s'.pendingClientTrans ≠ some .invite) : s'.Torn ∧ Tears s s' :=
  ⟨hs.same htrace hclosed (fun h => absurd h hlive) hpending, hclosed, by rw [htrace],
    fun h => absurd h hlive⟩

end CallOp

/-! ## Actions -/

/-- The contract of the functions of the call layer. When nothing runs, an operation whose release
was reported has no dialog. -/
def tearing : Contract opSig where
  Inv := CallOp.Torn
  Rel := CallOp.Tears
  Idle s := s.Torn ∧ (.told .callReleased ∈ s.trace → s.callReleased = true ∧ s.dialog = none)
  Ok := EndsOnce
  refl := CallOp.Tears.refl
  trans := CallOp.Tears.trans
  inv_of_idle h := h.1
  idle_of_rel := by
    rintro s s' ⟨-, hidle⟩ hs' hrel
    refine ⟨hs', fun h => ?_⟩
    have hreleased := hrel.released.mp h
    obtain ⟨hd, hr⟩ := hrel.freed hreleased
    rw [hd, hr]
    exact hidle hreleased

theorem stable_live : tearing.Stable CallOp.Live :=
  fun _ _ hrel hlive h => hlive (hrel.released.mp h)

/-- Actions that end nothing, and the closing of the state. -/
def OpAction.quiet : OpAction → Prop
  | .send m => m ∉ [SipMethod.invite, .cancel, .bye]
  | .tell u => u ∉ [Upcall.callAccepted, .callReleased]
  | .setState x => x = .terminating ∨ x = .terminated
  | .arrive r => r.inviteOk = false
  | .resend _ | .ack | .terminate | .markReleased => False
  | _ => True

theorem respects_quiet : tearing.Respects CallOp.Live OpAction.quiet := by
  intro x s hx hs hlive hok
  have hpending : .request .cancel ∈ s.trace → s.pendingClientTrans ≠ some .invite :=
    fun h => (hs.cancel h).2
  cases x with
  | resend m => exact absurd hx id
  | ack => exact absurd hx id
  | terminate => exact absurd hx id
  | markReleased => exact absurd hx id
  | arrive r =>
      rw [OpAction.apply_arrive, show r.inviteOk = false from hx]
      exact hs.unmoved hlive rfl id (.inl rfl)
  | setState x =>
      refine hs.unmoved hlive rfl (fun _ => ?_) (.inl rfl)
      rcases hx with rfl | rfl <;> rfl
  | activate =>
      refine hs.unmoved hlive rfl (fun h => ?_) (.inl rfl)
      rw [show s.closed = false from hok] at h
      cases h
  | send m =>
      have hm : m ∉ [SipMethod.invite, .cancel, .bye] := hx
      refine hs.quiet hlive (e := .request m) ?_ rfl id fun _ h => ?_
      · cases m <;> first | rfl | exact absurd hm (by decide)
      · cases h
        exact absurd hm (by decide)
  | tell u =>
      have hu : u ∉ [Upcall.callAccepted, .callReleased] := hx
      refine hs.quiet hlive (e := .told u) ?_ rfl id hpending
      cases u <;> first | rfl | exact absurd hu (by decide)
  | provisional t => exact hs.quiet hlive (e := .provisional t) rfl rfl id hpending
  | final t => exact hs.quiet hlive (e := .final t) rfl rfl id hpending
  | respond t => exact hs.quiet hlive (e := .final t) rfl rfl id hpending
  | process r => exact hs.unmoved hlive rfl id (.inl rfl)
  | setDialog d => exact hs.unmoved hlive rfl id (.inl rfl)
  | moveDialog d x => exact hs.unmoved hlive rfl id (.inl rfl)
  | keepEarlyResponse d code => exact hs.unmoved hlive rfl id (.inl rfl)
  | countAuth n => exact hs.unmoved hlive rfl id (.inl rfl)
  | media f => exact hs.unmoved hlive rfl id (.inl rfl)
  | attach m sdp => exact hs.unmoved hlive rfl id (.inl rfl)
  | read => exact hs.unmoved hlive rfl id (.inl rfl)
  | receive m => exact hs.unmoved hlive rfl id (.inl rfl)
  | clearUpdateTrans => exact hs.unmoved hlive rfl id (.inl rfl)
  | endTrans t => exact hs.unmoved hlive rfl id (.inl rfl)
  | scheduleRelease b => exact hs.unmoved hlive rfl id (.inl rfl)
  | detach => exact hs.unmoved hlive rfl id (.inl rfl)
  | addTimer => exact hs.unmoved hlive rfl id (.inl rfl)
  | dropTimer => exact hs.unmoved hlive rfl id (.inl rfl)

theorem keeps_ending {α : Type} {p : OpProg α} (hp : p.Acts OpAction.quiet) :
    tearing.Keeps CallOp.Live p :=
  respects_quiet.keeps stable_live hp

/-! ## Programs that end nothing -/

section quiet

theorem quiet_of_answers {α : Type} {p : OpProg α} (hp : p.Acts OpAction.answers) :
    p.Acts OpAction.quiet := by
  refine hp.mono fun x hx => ?_
  cases x <;> first | exact hx | exact absurd hx id

theorem quiet_upcall {u : Upcall} (hu : u ∉ [Upcall.callAccepted, .callReleased]) :
    (upcall u).Acts OpAction.quiet := ⟨hu, trivial⟩

theorem quiet_send {m : SipMethod} (hm : m ∉ [SipMethod.invite, .cancel, .bye]) : (do
    let _ ← sendRequest m
    pure () : OpProg Unit).Acts OpAction.quiet := by
  have hsend : (SalOpCall.perform (.send m)).Acts OpAction.quiet := ⟨hm, trivial⟩
  have hrequest : (sendRequest m).Acts OpAction.quiet :=
    Prog.Acts.bind (fun _ => trivial) fun created => (Prog.Acts.when hsend).bind fun _ => trivial
  exact hrequest.bind fun _ => trivial

theorem quiet_accept : accept.Acts OpAction.quiet := by
  refine Prog.Acts.bind (fun _ => trivial) fun s => ?_
  cases s.pendingUpdateServerTrans <|> s.pendingServerTrans with
  | none => trivial
  | some t => exact (quiet_of_answers (acts_attach _)).bind fun _ => ⟨trivial, trivial, trivial⟩

variable (q : SalRequest) (t : TransId)

theorem quiet_requestEarly : (requestEarly q t).Acts OpAction.quiet := by
  have hfinal : (SalOpCall.perform (.final t)).Acts OpAction.quiet := ⟨trivial, trivial⟩
  unfold requestEarly
  cases q.method with
  | cancel =>
      refine Prog.Acts.bind (fun _ => trivial) fun s => Prog.Acts.ite ?_ hfinal
      cases s.pendingServerTrans with
      | none => trivial
      | some invite =>
          refine ⟨trivial, (quiet_upcall (by decide)).bind fun _ => ?_⟩
          exact ⟨trivial, trivial⟩
  | update => exact quiet_of_answers (acts_requestUpdating q)
  | ack => trivial
  | _ => exact hfinal

theorem quiet_requestConfirmed : (requestConfirmed q t).Acts OpAction.quiet := by
  have hother : (upcall .other).Acts OpAction.quiet := quiet_upcall (by decide)
  unfold requestConfirmed
  cases q.method with
  | ack => exact quiet_of_answers (acts_requestAck q)
  | bye =>
      refine ⟨trivial, (quiet_upcall (by decide)).bind fun _ => ?_⟩
      exact ⟨.inl rfl, trivial⟩
  | invite => exact quiet_of_answers (acts_requestUpdating q)
  | update =>
      cases q.body with
      | empty => exact ⟨trivial, trivial, trivial⟩
      | _ => exact quiet_of_answers (acts_requestUpdating q)
  | info => exact hother.bind fun _ => ⟨trivial, trivial⟩
  | refer => exact ⟨trivial, hother⟩
  | notify => exact ⟨trivial, hother⟩
  | message => exact hother
  | _ => exact ⟨trivial, trivial⟩

/-- **Requests** end no operation by themselves. -/
theorem quiet_callProcessRequest : (callProcessRequest q).Acts OpAction.quiet := by
  refine Prog.Acts.bind (fun _ => trivial) fun s => ?_
  refine Prog.Acts.bind (Prog.Acts.when ⟨trivial, trivial⟩) fun _ => ?_
  refine Prog.Acts.bind (Prog.Acts.when ⟨trivial, trivial⟩) fun _ => ?_
  refine Prog.Acts.bind (Prog.Acts.when ⟨trivial, trivial⟩) fun _ => ?_
  refine Prog.Acts.bind (fun _ => trivial) fun s => ?_
  cases s.currentDialogState with
  | null =>
      exact Prog.Acts.ite (quiet_of_answers (acts_requestInvite q)) (quiet_requestEarly q _)
  | early => exact quiet_requestEarly q _
  | confirmed => exact quiet_requestConfirmed q _
  | terminated => trivial

end quiet

/-! ## The release -/

section release

variable {s : CallOp}

theorem idle_of_live (hs : s.Torn) (hlive : s.Live) : tearing.Idle s :=
  ⟨hs, fun h => absurd h hlive⟩

theorem wp_quiet {p : OpProg Unit} (hp : p.Acts OpAction.quiet) (hs : s.Torn) (hlive : s.Live) :
    tearing.wp p (fun _ => tearing.Idle) s :=
  (keeps_ending hp).idle (idle_of_live hs hlive) hlive

theorem wp_upcall_seq {u : Upcall} (hu : u ∉ [Upcall.callAccepted, .callReleased])
    {p : OpProg Unit} (hs : s.Torn) (hlive : s.Live)
    (hp : ∀ s' : CallOp, s'.Torn → s'.Live → tearing.wp p (fun _ => tearing.Idle) s') :
    tearing.wp (do
      upcall u
      p) (fun _ => tearing.Idle) s := by
  rw [Contract.wp_bind]
  refine Contract.wp_mono (fun _ s' h => ?_) (keeps_ending (quiet_upcall hu) s hs hlive)
  exact hp s' h.1 (stable_live _ _ h.2 hlive)

/-- **`call_set_released`** reports the release once. -/
theorem wp_callSetReleased (hs : tearing.Idle s) :
    tearing.wp callSetReleased (fun _ => tearing.Idle) s := by
  change tearing.wp (Prog.when (!s.callReleased) _) _ s
  rw [Contract.wp_when]
  cases hflag : s.callReleased with
  | true => exact hs
  | false =>
      have hlive : s.Live := by
        intro h
        rw [(hs.2 h).1] at hflag
        cases hflag
      have htold : CallOp.Torn ({ s with state := .terminated }.tell .callReleased) := by
        refine hs.1.extend [.told .callReleased] rfl ?_ (fun _ => rfl) ?_ ?_ fun _ => rfl
        · exact hs.1.down.cons hlive nofun nofun (by decide) nofun
        · exact fun h => (hs.1.cancel (List.mem_of_ne_of_mem (by decide) h)).2
        · exact fun _ _ _ => rfl
      intro _ _
      refine ⟨htold, fun s' hs' _ _ _ => ⟨hs'.same rfl id hs'.release (.inl rfl), ?_⟩⟩
      exact fun _ => ⟨rfl, rfl⟩

/-- A report, and the release when the dialog is gone. -/
theorem wp_told_release {u : Upcall} (hu : u ∉ [Upcall.callAccepted, .callReleased])
    (hs : s.Torn) (hlive : s.Live) :
    tearing.wp (do
      upcall u
      let s ← getOp
      Prog.when s.dialog.isNone callSetReleased) (fun _ => tearing.Idle) s := by
  refine wp_upcall_seq hu hs hlive fun s' hs' hlive' => ?_
  change tearing.wp (Prog.when s'.dialog.isNone callSetReleased) _ s'
  rw [Contract.wp_when]
  split
  · exact wp_callSetReleased (idle_of_live hs' hlive')
  · exact idle_of_live hs' hlive'

theorem wp_when_release {b : Bool} (hs : tearing.Idle s) :
    tearing.wp (Prog.when b callSetReleased) (fun _ => tearing.Idle) s := by
  rw [Contract.wp_when]
  split
  · exact wp_callSetReleased hs
  · exact hs

/-- **A CANCEL** goes out when the INVITE was not cancelled before. -/
theorem wp_cancellingInvite (hs : s.Torn) (hlive : s.Live) :
    tearing.wp cancellingInvite (fun _ => tearing.Idle) s := by
  rw [cancellingInvite, wp_getOp]
  cases hm : s.pendingClientTrans with
  | none => trivial
  | some m =>
      have hquiet : tearing.Idle { s with state := .terminating } :=
        idle_of_live (respects_quiet (.setState .terminating) s (.inl rfl) hs hlive trivial).1 hlive
      by_cases hinvite : m = .invite
      · rw [hinvite] at hm ⊢
        have hfirst : .request .cancel ∉ s.trace := fun h => (hs.cancel h).2 hm
        intro created
        cases created with
        | false => exact fun _ => hquiet
        | true =>
            intro _ _
            have hsent : CallOp.Torn { s.record (.request .cancel) with
                pendingClientTrans := some .cancel
                state := .terminating } := by
              refine hs.extend [.request .cancel] rfl ?_ (fun _ => rfl)
                (fun _ h => by simp at h) (fun _ _ _ => rfl) fun h => ?_
              · exact hs.down.cons hlive (fun _ => hfirst) (by simp) (by decide) (by simp)
              · exact absurd (List.mem_of_ne_of_mem (by decide) h) hlive
            refine idle_of_live hsent fun h => ?_
            exact hlive (List.mem_of_ne_of_mem (by decide) h)
      · have hno : decide (m = .invite) = false := decide_eq_false hinvite
        change tearing.wp (Prog.when (m = .invite) _ >>= fun _ => _) _ s
        rw [hno]
        exact fun _ => hquiet

end release

/-! ## Responses -/

section responses

variable {r : SalResponse} {s : CallOp}

/-- **`call_accepted`** is reported of an operation that is not closed. -/
theorem wp_callAccepted (hs : s.Torn) (hopen : s.closed = false) :
    tearing.wp (upcall .callAccepted) (fun _ => tearing.Idle) s := by
  obtain ⟨hcancel, hbye, hterm, hlive⟩ := hs.fresh hopen
  have htold : CallOp.Torn (s.tell .callAccepted) := by
    refine hs.extend [.told .callAccepted] rfl ?_ id (fun h => ?_) ?_ fun h => ?_
    · exact hs.down.cons hlive nofun nofun (by decide) fun _ => hterm
    · exact absurd (List.mem_of_ne_of_mem (by decide) h) hcancel
    · intro e he hkind
      rw [List.mem_singleton.mp he] at hkind
      exact absurd hkind (by decide)
    · exact absurd (List.mem_of_ne_of_mem (by decide) h) hlive
  have hlive' : CallOp.Live (s.tell .callAccepted) :=
    fun h => hlive (List.mem_of_ne_of_mem (by decide) h)
  exact fun _ => ⟨htold, fun s' hs' hrel => idle_of_live hs' (stable_live _ _ hrel hlive')⟩

theorem wp_responseTerminating (hs : s.Torn) (hlive : s.Live) :
    tearing.wp (responseTerminating r) (fun _ => tearing.Idle) s := by
  have hidle := idle_of_live hs hlive
  rw [responseTerminating, wp_getOp]
  cases s.pendingClientTrans with
  | none => trivial
  | some m =>
      change tearing.wp (if m ≠ .cancel then _ else _) _ s
      split
      · change tearing.wp (if r.code < 200 then _ else _) _ s
        split
        · exact wp_cancellingInvite hs hlive
        · exact wp_when_release hidle
      · exact wp_when_release hidle

theorem wp_responseEarly (hs : s.Torn) (hlive : s.Live)
    (hok : ¬(s.closed = true ∧ r.method = .update ∧ 200 ≤ r.code ∧ r.code < 300)) :
    tearing.wp (responseEarly r) (fun _ => tearing.Idle) s := by
  change tearing.wp (if r.method = .invite then _ else _) _ s
  split
  · change tearing.wp (if s.state = .terminating then _ else _) _ s
    split
    · exact wp_responseTerminating hs hlive
    · change tearing.wp (if 180 ≤ r.code ∧ r.code < 200 then _ else _) _ s
      split
      · exact wp_quiet (quiet_of_answers (acts_responseRinging r)) hs hlive
      · rw [Contract.wp_when]
        split
        · exact wp_told_release (by decide) hs hlive
        · exact idle_of_live hs hlive
  · rw [Contract.wp_when]
    split
    · rename_i hupdate
      simp only [Bool.and_eq_true, decide_eq_true_eq] at hupdate
      have hopen : s.closed = false := by
        rw [← Bool.not_eq_true]
        exact fun h => hok ⟨h, hupdate.2, hupdate.1⟩
      intro lib hmedia
      exact wp_callAccepted (respects_quiet (.media _) s trivial hs hlive hmedia).1 hopen
    · exact idle_of_live hs hlive

/-- In a confirmed dialog, apart from an INVITE that is accepted. -/
theorem wp_responseConfirmed (hs : s.Torn) (hlive : s.Live) (hinvite : r.inviteOk = false)
    (hok : ¬(s.state = .terminating ∧ .request .bye ∈ s.trace)) :
    tearing.wp (responseConfirmed r) (fun _ => tearing.Idle) s := by
  have hidle := idle_of_live hs hlive
  have hfailed : (Prog.when (300 ≤ r.code) callSetError).Acts OpAction.quiet :=
    Prog.Acts.when (quiet_upcall (by decide))
  have htimer : (Prog.when (r.code = 491 && r.vfu) (SalOpCall.perform .addTimer)).Acts
      OpAction.quiet := by
    refine Prog.Acts.when ?_
    exact ⟨trivial, trivial⟩
  have hrunning : s.closed = false →
      tearing.wp (if r.method = .invite then
          if 200 ≤ r.code ∧ r.code < 300 then responseInviteOk r
          else Prog.when (300 ≤ r.code) callSetError
        else if r.method = .info then
          Prog.when (r.code = 491 && r.vfu) (SalOpCall.perform .addTimer)
        else Prog.when (r.method = .update) (upcall .callAccepted)) (fun _ => tearing.Idle) s := by
    intro hopen
    split
    · rename_i hm
      split
      · rename_i hcode
        have hyes : r.inviteOk = true := by
          simp [SalResponse.inviteOk, hm, hcode.1, hcode.2]
        rw [hyes] at hinvite
        cases hinvite
      · exact wp_quiet hfailed hs hlive
    · split
      · exact wp_quiet htimer hs hlive
      · rw [Contract.wp_when]
        split
        · exact wp_callAccepted hs hopen
        · exact hidle
  rw [responseConfirmed, wp_getOp]
  cases hst : s.state with
  | early => exact hrunning (by rw [CallOp.closed, hst]; rfl)
  | active => exact hrunning (by rw [CallOp.closed, hst]; rfl)
  | terminating =>
      have hclosed : s.closed = true := by
        rw [CallOp.closed, hst]
        rfl
      have hfirst : .request .bye ∉ s.trace := fun h => hok ⟨hst, h⟩
      intro created
      cases created with
      | false => exact hidle
      | true =>
          intro _
          have hsent : CallOp.Torn { s.record (.request .bye) with
              pendingClientTrans := some .bye } := by
            refine hs.extend [.request .bye] rfl ?_ id (fun _ h => by simp at h)
              (fun _ _ _ => hclosed) fun h => ?_
            · exact hs.down.cons hlive (by simp) (fun _ => hfirst) (by decide) (by simp)
            · exact absurd (List.mem_of_ne_of_mem (by decide) h) hlive
          refine idle_of_live hsent fun h => ?_
          exact hlive (List.mem_of_ne_of_mem (by decide) h)
  | terminated => exact hidle

theorem wp_callProcessResponse (hs : s.Torn) (hlive : s.Live) (hinvite : r.inviteOk = false) :
    tearing.wp (callProcessResponse r) (fun _ => tearing.Idle) s := by
  have hstate : (r.dialog.map Prod.snd).getD .null = r.dialogState := rfl
  rw [callProcessResponse, wp_performs, wp_performs, hstate]
  rintro ⟨hbye, hupdate⟩ hdialog
  obtain ⟨hs', -⟩ := respects_quiet (.setDialog _) s trivial hs hlive hdialog
  cases hd : r.dialogState with
  | null =>
      refine wp_responseEarly hs' hlive fun h => hupdate ⟨h.1, h.2, .inl hd⟩
  | early =>
      refine wp_responseEarly hs' hlive fun h => hupdate ⟨h.1, h.2, .inr hd⟩
  | confirmed =>
      refine wp_responseConfirmed hs' hlive hinvite fun h => hbye ⟨h.1, hd, h.2⟩
  | terminated =>
      exact wp_quiet (Prog.Acts.when (quiet_upcall (by decide))) hs' hlive

theorem wp_passResponse (hs : s.Torn) (hlive : s.Live) (hinvite : r.inviteOk = false) :
    tearing.wp (passResponse r) (fun _ => tearing.Idle) s := by
  rw [passResponse, Contract.wp_bind, Contract.wp_when]
  split
  · intro hcount
    exact wp_callProcessResponse (respects_quiet (.countAuth 0) s trivial hs hlive hcount).1
      hlive hinvite
  · exact wp_callProcessResponse hs hlive hinvite

/-- An operation that is not closed, with a 2xx response to an INVITE that has no ACK yet. -/
structure CallOp.Unacked (s : CallOp) : Prop where
  isOpen : s.closed = false
  pending : ∃ l, s.trace = .inviteOk :: l ∧ TornDown l ∧ .request .cancel ∉ l ∧
    .request .bye ∉ l ∧ .terminate ∉ l ∧ .told .callReleased ∉ l

theorem CallOp.Unacked.arrive (hs : s.Torn) (hopen : s.closed = false)
    (hinvite : r.inviteOk = true) : CallOp.Unacked (opSig.apply (.arrive r) s) := by
  rw [OpAction.apply_arrive, hinvite]
  exact ⟨hopen, s.trace, rfl, hs.down, hs.fresh hopen⟩

/-- **The ACK** goes out before `call_accepted`. -/
theorem wp_responseInviteOk (hs : s.Unacked) (hack : r.ackCreated = true) :
    tearing.wp (responseInviteOk r) (fun _ => tearing.Idle) s := by
  obtain ⟨l, htrace, hdown, hcancel, hbye, hterm, hlive⟩ := hs.pending
  intro lib _
  rw [hack]
  intro lib' _ _ _
  have hnew : TornDown ([.told .callAccepted, .ack, .inviteOk] ++ l) := by
    refine hdown.append _ hlive ?_ ?_ (by decide) (by decide) (fun _ => hterm) (by decide)
    · rw [List.count_eq_zero.mpr hcancel]
      decide
    · rw [List.count_eq_zero.mpr hbye]
      decide
  have hnot : ∀ x ∉ l, x ∉ [Trace.told .callAccepted, .ack, .inviteOk] →
      x ∉ Trace.told .callAccepted :: .ack :: s.trace := by
    intro x hx hx' hmem
    rw [htrace] at hmem
    have hmem' : x ∈ [Trace.told .callAccepted, .ack, .inviteOk] ++ l := hmem
    rcases List.mem_append.mp hmem' with h | h
    · exact hx' h
    · exact hx h
  refine ⟨⟨?_, fun h => ?_, fun h => ?_, fun h => ?_, fun h => ?_⟩, fun s' hs' hrel hactivate => ?_⟩
  · change TornDown (.told .callAccepted :: .ack :: s.trace)
    rw [htrace]
    exact hnew
  · exact absurd h (hnot _ hcancel (by decide))
  · exact absurd h (hnot _ hbye (by decide))
  · exact absurd h (hnot _ hterm (by decide))
  · exact absurd h (hnot _ hlive (by decide))
  · have hlive' : s'.Live := fun h => hnot _ hlive (by decide) (hrel.released.mp h)
    exact idle_of_live (respects_quiet .activate s' trivial hs' hlive' hactivate).1 hlive'

theorem wp_passResponse_ok (hs : s.Unacked) (hinvite : r.inviteOk = true)
    (hd : r.dialogState = .confirmed) (hack : r.ackCreated = true) :
    tearing.wp (passResponse r) (fun _ => tearing.Idle) s := by
  have hrun : ∀ s : CallOp, s.Unacked →
      tearing.wp (callProcessResponse r) (fun _ => tearing.Idle) s := by
    intro s hs
    simp only [SalResponse.inviteOk, Bool.and_eq_true, decide_eq_true_eq] at hinvite
    rw [SalResponse.dialogState] at hd
    rw [callProcessResponse, wp_performs, wp_performs, hd]
    intro _ _
    have hok : tearing.wp (if r.method = .invite then
          if 200 ≤ r.code ∧ r.code < 300 then responseInviteOk r
          else Prog.when (300 ≤ r.code) callSetError
        else if r.method = .info then
          Prog.when (r.code = 491 && r.vfu) (SalOpCall.perform .addTimer)
        else Prog.when (r.method = .update) (upcall .callAccepted)) (fun _ => tearing.Idle)
        (opSig.apply (.setDialog (r.dialog.map Prod.fst)) (opSig.apply (.process r) s)) := by
      rw [if_pos hinvite.1.1, if_pos ⟨hinvite.1.2, hinvite.2⟩]
      exact wp_responseInviteOk ⟨hs.isOpen, hs.pending⟩ hack
    have hstate : ((OpAction.setDialog (r.dialog.map Prod.fst)).apply
        ((OpAction.process r).apply s)).state = s.state := rfl
    change tearing.wp (responseConfirmed r) _ _
    rw [responseConfirmed, wp_getOp, hstate]
    have hopen := hs.isOpen
    rw [CallOp.closed] at hopen
    cases hst : s.state with
    | early => exact hok
    | active => exact hok
    | terminating =>
        rw [hst] at hopen
        cases hopen
    | terminated =>
        rw [hst] at hopen
        cases hopen
  rw [passResponse, Contract.wp_bind, Contract.wp_when]
  split
  · exact fun _ => hrun _ ⟨hs.isOpen, hs.pending⟩
  · exact hrun _ hs

/-- A request that is sent again is no INVITE that was cancelled. -/
theorem wp_resend (hs : s.Torn) (hlive : s.Live) (hne : s.state ≠ .terminated)
    (hagain : ¬(s.state = .terminating ∧ r.method ≠ .bye)) :
    tearing.wp (SalOpCall.perform (.resend r.method)) (fun _ => tearing.Idle) s := by
  have hpending : .request .cancel ∈ s.trace → some r.method ≠ some SipMethod.invite := by
    intro h hm
    have hclosed := (hs.cancel h).1
    rw [CallOp.closed, Bool.or_eq_true, decide_eq_true_eq, decide_eq_true_eq] at hclosed
    rcases hclosed with hst | hst
    · exact hagain ⟨hst, by rw [Option.some.inj hm]; decide⟩
    · exact hne hst
  have hretry : CallOp.Torn (opSig.apply (.resend r.method) s) ∧
      CallOp.Tears s (opSig.apply (.resend r.method) s) :=
    hs.quiet hlive (e := .retry r.method) rfl rfl id hpending
  exact fun _ => idle_of_live hretry.1 (stable_live _ _ hretry.2 hlive)

/-- The filters before `call_process_response`, for an operation that was not released. -/
theorem wp_filterResponse (hs : s.Torn) (hlive : s.Live) (hinvite : r.inviteOk = false) :
    tearing.wp (filterResponse r) (fun _ => tearing.Idle) s := by
  have hidle := idle_of_live hs hlive
  have hother : (upcall .other).Acts OpAction.quiet := quiet_upcall (by decide)
  change tearing.wp (if s.state = .terminated then _ else _) _ s
  by_cases hterm : s.state = .terminated
  · rw [if_pos hterm]
    exact hidle
  · rw [if_neg hterm]
    split
    · rename_i hagain
      intro hcount
      obtain ⟨hs', hrel⟩ := respects_quiet (.countAuth _) s trivial hs hlive hcount
      have hlive' := stable_live _ _ hrel hlive
      change tearing.wp (if 2 < s.authRequests + 1 then _ else _) _ _
      split
      · exact wp_upcall_seq (by decide) hs' hlive' fun s'' h h' => wp_passResponse h h' hinvite
      · rw [Contract.wp_when]
        split
        · exact wp_resend hs' hlive' hterm hagain.2
        · exact idle_of_live hs' hlive'
    · rw [Contract.wp_bind, Contract.wp_when]
      split
      · refine Contract.wp_mono (fun _ s' h => ?_) (keeps_ending hother s hs hlive)
        exact wp_passResponse h.1 (stable_live _ _ h.2 hlive) hinvite
      · exact wp_passResponse hs hlive hinvite

/-- The filters let a 2xx response to an INVITE through. -/
theorem wp_filterResponse_ok (hs : s.Unacked) (hinvite : r.inviteOk = true)
    (hd : r.dialogState = .confirmed) (hack : r.ackCreated = true) :
    tearing.wp (filterResponse r) (fun _ => tearing.Idle) s := by
  have hcode : r.code < 300 := by
    simp only [SalResponse.inviteOk, Bool.and_eq_true, decide_eq_true_eq] at hinvite
    exact hinvite.2
  have hst : s.state ≠ .terminated := by
    intro h
    have hopen := hs.isOpen
    rw [CallOp.closed, h] at hopen
    cases hopen
  have hno : (decide (r.code = 403) && s.authInfo) = false := by
    rw [decide_eq_false (by omega), Bool.false_and]
  change tearing.wp (if s.state = .terminated then _ else _) _ s
  rw [if_neg hst, if_neg (by omega), Contract.wp_bind, Contract.wp_when, hno]
  exact wp_passResponse_ok hs hinvite hd hack

/-- **Responses**, in any state. -/
theorem wp_processResponseEvent (hs : tearing.Idle s) :
    tearing.wp (processResponseEvent r) (fun _ => tearing.Idle) s := by
  intro harrive
  have hfilter : ∀ s' : CallOp, s'.trace = (opSig.apply (.arrive r) s).trace →
      s'.state = (opSig.apply (.arrive r) s).state →
      s'.dialog = (opSig.apply (.arrive r) s).dialog →
      s'.callReleased = (opSig.apply (.arrive r) s).callReleased →
      s'.pendingClientTrans = (opSig.apply (.arrive r) s).pendingClientTrans →
      tearing.wp (filterResponse r) (fun _ => tearing.Idle) s' := by
    intro s' htrace hst hdialog hflag hpending
    cases hinvite : r.inviteOk with
    | true =>
        obtain ⟨hopen, hd, hack⟩ := harrive hinvite
        have harrived := CallOp.Unacked.arrive (r := r) hs.1 hopen hinvite
        refine wp_filterResponse_ok ⟨?_, ?_⟩ hinvite hd hack
        · rw [CallOp.closed, hst]
          exact harrived.isOpen
        · rw [htrace]
          exact harrived.pending
    | false =>
        rw [OpAction.apply_arrive, hinvite] at htrace hst hdialog hflag hpending
        have hs' : s'.Torn := by
          refine hs.1.same htrace (fun h => ?_) (fun h => ?_) (.inl hpending)
          · rwa [CallOp.closed, hst]
          · rw [hst]
            exact hs.1.release h
        by_cases hlive : s.Live
        · exact wp_filterResponse hs' (fun h => hlive (htrace ▸ h)) hinvite
        · have hreleased := Decidable.not_not.mp hlive
          have hterm : s'.state = .terminated := hst.trans (hs.1.release hreleased)
          change tearing.wp (if s'.state = .terminated then _ else _) _ s'
          rw [if_pos hterm]
          refine ⟨hs', fun _ => ?_⟩
          rw [hflag, hdialog]
          exact hs.2 hreleased
  cases r.dialog with
  | none => exact hfilter _ rfl rfl rfl rfl rfl
  | some dx => exact fun _ => hfilter _ rfl rfl rfl rfl rfl

end responses

/-! ## The other events -/

section events

variable {s : CallOp}

theorem CallOp.idle_same {s' : CallOp} (hs : tearing.Idle s) (htrace : s'.trace = s.trace)
    (hst : s'.state = s.state) (hpending : s'.pendingClientTrans = s.pendingClientTrans)
    (hdialog : s'.dialog = s.dialog) (hflag : s'.callReleased = s.callReleased) :
    tearing.Idle s' := by
  refine ⟨hs.1.same htrace (fun h => ?_) (fun h => ?_) (.inl hpending), fun h => ?_⟩
  · rwa [CallOp.closed, hst]
  · rw [hst]
    exact hs.1.release h
  · rw [hflag, hdialog]
    exact hs.2 (htrace ▸ h)

theorem wp_processRequestEvent (q : SalRequest) (hs : tearing.Idle s) :
    tearing.wp (processRequestEvent q) (fun _ => tearing.Idle) s := by
  intro _
  have hmoved : tearing.Idle (opSig.apply (.moveDialog q.dialog.1 q.dialog.2) s) :=
    CallOp.idle_same hs rfl rfl rfl rfl rfl
  change tearing.wp (Prog.when (s.state ≠ .terminated) (callProcessRequest q)) _ _
  rw [Contract.wp_when]
  split
  · rename_i hne
    have hlive : s.Live := fun h => of_decide_eq_true hne (hs.1.release h)
    exact wp_quiet (quiet_callProcessRequest q) hmoved.1 hlive
  · exact hmoved

theorem wp_callProcessTimeout (hs : tearing.Idle s) :
    tearing.wp callProcessTimeout (fun _ => tearing.Idle) s := by
  change tearing.wp (Prog.when (s.state ≠ .terminated && s.dialog.isNone) _) _ s
  rw [Contract.wp_when]
  split
  · rename_i hcond
    rw [Bool.and_eq_true, decide_eq_true_eq] at hcond
    have hlive : s.Live := fun h => hcond.1 (hs.1.release h)
    exact wp_upcall_seq (by decide) hs.1 hlive fun s' h h' =>
      wp_callSetReleased (idle_of_live h h')
  · exact hs

theorem wp_processDialogTerminated (d : DialogId) (previous : DialogState)
    (hs : tearing.Idle s) :
    tearing.wp (processDialogTerminated d previous) (fun _ => tearing.Idle) s := by
  have hquiet : (do
      Prog.when (previous = .confirmed && s.state ≠ .terminated && s.state ≠ .terminating) do
        upcall .callTerminated
        SalOpCall.perform (.setState .terminating)
      SalOpCall.perform (.scheduleRelease true) : OpProg Unit).Acts OpAction.quiet := by
    refine Prog.Acts.bind (Prog.Acts.when ?_) fun _ => ⟨trivial, trivial⟩
    exact (quiet_upcall (by decide)).bind fun _ => ⟨.inl rfl, trivial⟩
  change tearing.wp (Prog.when (s.dialog = some d) _) _ s
  rw [Contract.wp_when]
  split
  · rename_i hd
    have hlive : s.Live := by
      intro h
      rw [(hs.2 h).2] at hd
      exact absurd hd (by simp)
    exact wp_quiet hquiet hs.1 hlive
  · exact hs

theorem wp_vfuRetry (hs : tearing.Idle s) :
    tearing.wp vfuRetry (fun _ => tearing.Idle) s := by
  intro _
  have hidle : tearing.Idle (opSig.apply .dropTimer s) := CallOp.idle_same hs rfl rfl rfl rfl rfl
  change tearing.wp (Prog.when (s.currentDialogState = .confirmed) _) _ _
  rw [Contract.wp_when]
  split
  · rename_i hd
    have hlive : s.Live := by
      intro h
      rw [CallOp.currentDialogState, (hs.2 h).2] at hd
      exact absurd hd (by simp)
    exact wp_quiet (quiet_send (by decide)) hidle.1 hlive
  · exact hidle

theorem wp_transactionTerminated (m : SipMethod) (code : Option Nat) (server : Option TransId)
    (hs : tearing.Idle s) :
    tearing.wp (callProcessTransactionTerminated m code server) (fun _ => tearing.Idle) s := by
  cases server with
  | none => exact wp_when_release hs
  | some t =>
      have hidle : tearing.Idle (opSig.apply (.endTrans t) s) :=
        CallOp.idle_same hs rfl rfl rfl rfl rfl
      exact fun _ => wp_when_release hidle

/-- **Every event** leaves the operation well. -/
theorem wp_salEvent (e : SalEvent) (hs : tearing.Idle s) :
    tearing.wp e.program (fun _ => tearing.Idle) s := by
  cases e with
  | response r => exact wp_processResponseEvent hs
  | request q => exact wp_processRequestEvent q hs
  | ioError => exact fun _ => wp_callProcessTimeout (CallOp.idle_same hs rfl rfl rfl rfl rfl)
  | timeout => exact wp_callProcessTimeout hs
  | transactionTerminated m code server => exact wp_transactionTerminated m code server hs
  | dialogTerminated d previous => exact wp_processDialogTerminated d previous hs
  | dialogMoved d x => exact fun _ => CallOp.idle_same hs rfl rfl rfl rfl rfl
  | releaseNow => exact fun _ => wp_callSetReleased (CallOp.idle_same hs rfl rfl rfl rfl rfl)
  | vfuRetry => exact wp_vfuRetry hs

end events

/-! ## The functions of the call layer -/

section api

variable {s : CallOp}

/-- What a function owes. -/
abbrev Owes {α : Type} (p : OpProg α) (s : CallOp) : Prop :=
  tearing.wp p (fun _ s' => s'.Torn ∧ CallOp.Tears s s') s

theorem owes_ignore {α : Type} {p : OpProg α} (h : Owes p s) : Owes (SalCall.ignore p) s := by
  rw [Owes, SalCall.ignore, Contract.wp_bind]
  exact h

theorem owes_nothing {α : Type} (a : α) (hs : s.Torn) : Owes (pure a) s := ⟨hs, .refl s⟩

/-- Functions that change fields no trace is about. -/
theorem CallOp.Torn.apart {s' : CallOp} (hs : s.Torn) (htrace : s'.trace = s.trace)
    (hst : s'.state = s.state) (hpending : s'.pendingClientTrans = s.pendingClientTrans)
    (hdialog : s'.dialog = s.dialog) (hflag : s'.callReleased = s.callReleased) :
    s'.Torn ∧ CallOp.Tears s s' := by
  have hclosed : s'.closed = s.closed := by rw [CallOp.closed, hst]; rfl
  refine ⟨hs.same htrace (fun h => hclosed.trans h) (fun h => ?_) (.inl hpending),
    fun h => hclosed.trans h, by rw [htrace], fun _ => ⟨hdialog, hflag⟩⟩
  rw [hst]
  exact hs.release h

/-- A new offer, on an operation that is not closed. -/
theorem owes_fillInvite (m : SipMethod) (hm : m ∈ [SipMethod.invite, .update]) (hs : s.Torn)
    (hopen : s.closed = false) :
    Owes (do
      let created ← SalOpCall.query (.created m)
      Prog.when created do
        attach fun _ m => m.fillInvite
        SalOpCall.perform (.send m)
      pure created) s := by
  intro created
  cases created with
  | false => exact ⟨hs, .refl s⟩
  | true =>
      intro lib _ _
      have hquiet : (Trace.request m).quiet = true := by
        rcases List.mem_cons.mp hm with rfl | hm
        · rfl
        · rw [List.mem_singleton.mp hm]
          rfl
      obtain ⟨hcancel, -, -, hlive⟩ := hs.fresh hopen
      exact hs.quiet hlive hquiet rfl id fun h => absurd h hcancel

theorem owes_update (noUserConsent : Bool) (hs : s.Torn) (hopen : s.closed = false) :
    Owes (update noUserConsent) s := by
  rw [Owes, update, wp_getOp]
  cases s.dialog with
  | none => trivial
  | some d =>
      dsimp only
      cases s.dialogState d with
      | null => exact owes_nothing false hs
      | terminated => exact owes_nothing false hs
      | early => exact owes_fillInvite .update (by decide) hs hopen
      | confirmed => exact owes_fillInvite _ (by cases noUserConsent <;> decide) hs hopen

theorem owes_quiet {α : Type} {p : OpProg α} (hp : p.Acts OpAction.quiet) (hs : s.Torn)
    (hlive : s.Live) : Owes p s :=
  keeps_ending hp s hs hlive

/-- What is left of an operation that is terminated by declining its INVITE. -/
theorem wp_declined (hs : s.Torn) (hopen : s.closed = false) :
    tearing.wp (do
      decline
      SalOpCall.perform (.setState .terminated)
      pure true) (fun _ s' => s'.Torn ∧ CallOp.Tears s s') (opSig.apply .terminate s) := by
  have hslots : (opSig.apply .terminate s).pendingServerTrans = s.pendingServerTrans ∧
      (opSig.apply .terminate s).pendingUpdateServerTrans = s.pendingUpdateServerTrans := ⟨rfl, rfl⟩
  rw [Contract.wp_bind, decline, wp_getOp, hslots.1, hslots.2]
  cases s.pendingServerTrans <|> s.pendingUpdateServerTrans with
  | none =>
      exact fun _ => hs.close hopen [.terminate] rfl rfl (by decide) (by decide)
        (fun h => absurd h (by decide)) (by decide)
  | some t =>
      refine fun _ _ => hs.close hopen [.final t, .terminate] rfl rfl ?_ ?_ ?_ ?_
      · simp
      · simp
      · simp
      · simp

/-- What is left of one whose INVITE is cancelled. -/
theorem wp_cancelled (hs : s.Torn) (hopen : s.closed = false) :
    tearing.wp cancellingInvite (fun _ s' => s'.Torn ∧ CallOp.Tears s s')
      (opSig.apply .terminate s) := by
  have hquiet : ∀ s' : CallOp, s'.trace = .terminate :: s.trace → s'.state = .terminating →
      s'.Torn ∧ CallOp.Tears s s' := by
    intro s' htrace hst
    refine hs.close hopen [.terminate] htrace ?_ (by decide) (by decide)
      (fun h => absurd h (by decide)) (by decide)
    rw [CallOp.closed, hst]
    rfl
  have hslot : (opSig.apply .terminate s).pendingClientTrans = s.pendingClientTrans := rfl
  rw [cancellingInvite, wp_getOp, hslot]
  cases s.pendingClientTrans with
  | none => trivial
  | some m =>
      change tearing.wp (Prog.when (m = .invite) _ >>= fun _ => _) _ _
      rw [Contract.wp_bind, Contract.wp_when]
      split
      · intro created
        cases created with
        | false => exact fun _ => hquiet _ rfl rfl
        | true =>
            exact fun _ _ => hs.close hopen [.request .cancel, .terminate] rfl rfl (by decide)
              (by decide) (fun _ h => by cases h) (by decide)
      · exact fun _ => hquiet _ rfl rfl

/-- **`sal_call_terminate`** sends one BYE or CANCEL, or declines. -/
theorem owes_terminate (hs : s.Torn) : Owes terminate s := by
  change Owes (if s.state = .terminating ∨ s.state = .terminated then _ else _) s
  split
  · exact owes_nothing false hs
  · rename_i hst
    have hopen : s.closed = false := by
      rw [CallOp.closed, Bool.or_eq_false_iff, decide_eq_false_iff_not, decide_eq_false_iff_not]
      exact not_or.mp hst
    cases s.currentDialogState with
    | confirmed =>
        intro _ created
        cases created with
        | false =>
            exact fun _ => hs.close hopen [.terminate] rfl rfl (by decide) (by decide)
              (fun h => absurd h (by decide)) (by decide)
        | true =>
            exact fun _ _ => hs.close hopen [.request .bye, .terminate] rfl rfl (by decide)
              (by decide) (fun h => absurd h (by decide)) (by decide)
    | null =>
        change Owes (if s.dir = .incoming then _ else _) s
        split
        · intro hterm
          exact wp_declined hs hopen
        · change tearing.wp (Prog.when s.pendingClientTrans.isSome _ >>= fun _ => pure true) _ s
          rw [Contract.wp_bind, Contract.wp_when]
          split
          · intro _ proceeding
            cases proceeding with
            | true => exact wp_cancelled hs hopen
            | false =>
                exact fun _ => hs.close hopen [.terminate] rfl rfl (by decide) (by decide)
                  (fun h => absurd h (by decide)) (by decide)
          · exact ⟨hs, .refl s⟩
    | early =>
        intro _
        change tearing.wp (if s.dir = .incoming then _ else _) _ _
        split
        · exact wp_declined hs hopen
        · change tearing.wp (cancellingInvite >>= fun _ => pure true) _ _
          rw [Contract.wp_bind]
          exact wp_cancelled hs hopen
    | terminated => exact owes_nothing false hs

theorem owes_release (hs : s.Torn) : Owes release s := by
  change Owes (Prog.when (s.state ≠ .terminating) _ >>= fun _ => _) s
  rw [Owes, Contract.wp_bind, Contract.wp_when]
  split
  · intro _ _
    refine ⟨hs.same rfl (fun _ => rfl) (fun _ => rfl) (.inl rfl), fun _ => rfl, Iff.rfl,
      fun _ => ⟨rfl, rfl⟩⟩
  · exact fun _ => hs.apart rfl rfl rfl rfl rfl

/-- **Every function of the call layer** keeps to the contract. -/
theorem owes_salCall (a : SalCall) (ha : a.Enabled s) (hs : s.Torn) : Owes a.program s := by
  cases a with
  | call => exact owes_ignore (owes_fillInvite .invite (by decide) hs ha)
  | setLocalMediaDescription desc => exact fun _ => hs.apart rfl rfl rfl rfl rfl
  | getFinalMediaDescription => exact owes_ignore fun lib _ _ => hs.apart rfl rfl rfl rfl rfl
  | notifyRinging earlyMedia =>
      exact owes_quiet (quiet_of_answers (acts_notifyRinging earlyMedia)) hs (s.live_iff.mp ha)
  | accept => exact owes_quiet quiet_accept hs (s.live_iff.mp ha)
  | decline => exact owes_quiet (quiet_of_answers acts_decline) hs (s.live_iff.mp ha)
  | update noUserConsent => exact owes_ignore (owes_update noUserConsent hs ha)
  | sendInDialog m =>
      have hm : m ∉ [SipMethod.invite, .cancel, .bye] := by
        intro hmem
        refine ha.2 ?_
        simp only [List.mem_cons, List.not_mem_nil, or_false] at hmem ⊢
        rcases hmem with rfl | rfl | rfl <;> simp
      refine owes_quiet ?_ hs (s.live_iff.mp ha.1)
      exact fun _ => Prog.Acts.when (quiet_send hm)
  | terminate => exact owes_ignore (owes_terminate hs)
  | release => exact owes_release hs

end api

/-! ## Runs -/

theorem meets_tearing : Meets tearing (opSystem EndsOnce) where
  init := by
    rintro s ⟨dir, handling, cnx, one, authInfo, rfl⟩
    have hdown : TornDown [] :=
      ⟨Nat.zero_le 1, Nat.zero_le 1, rfl, List.Pairwise.nil, List.Pairwise.nil⟩
    exact ⟨⟨hdown, nofun, nofun, nofun, nofun⟩, nofun⟩
  ok _ _ h := h
  api := by
    rintro s _ ⟨a, ha, rfl⟩ hs
    exact owes_salCall a ha hs
  event := by
    rintro s _ ⟨e, -, rfl⟩ hs
    exact wp_salEvent e hs

/-- **The end of an operation.** In every run without the crossings that `EndsOnce` excludes, an
operation is torn down at most once, and nothing follows its release. -/
theorem tornDown_of_reachable {cfg : Config opSig} (hr : Reachable (opSystem EndsOnce) cfg)
    (ho : cfg.Observed) : TornDown (CallOp.trace cfg.state) :=
  (meets_tearing.inv_of_reachable hr ho).down

/-! ## A request that is answered after the BYE -/

/-- A 2xx response, in a dialog. -/
def okTo (m : SipMethod) (x : DialogState) : SalEvent :=
  .response { method := m, code := 200, dialog := some (0, x), body := .sdp audioOffer }

/-- An INVITE is sent. -/
def callingOp : CallOp :=
  opAfter (fun x s => EndsOnce x s) SalCall.call.program
    (.fresh .outgoing .normal false false false)

/-- It is accepted. -/
def connectedOp : CallOp :=
  opAfter (fun x s => EndsOnce x s) (okTo .invite .confirmed).program callingOp

/-- A DTMF is sent. -/
def dtmfOp : CallOp :=
  opAfter (fun x s => EndsOnce x s) (SalCall.sendInDialog .info).program connectedOp

/-- The call is terminated, before the DTMF has its response. -/
def byeOp : CallOp := opAfter (fun x s => EndsOnce x s) SalCall.terminate.program dtmfOp

theorem reachable_byeOp {ok : OpAction → CallOp → Prop} (hok : ∀ x s, EndsOnce x s → ok x s) :
    Reachable (opSystem ok) ⟨[], byeOp⟩ := by
  have hok' : ∀ x s, decide (EndsOnce x s) = true → ok x s :=
    fun x s h => hok x s (of_decide_eq_true h)
  have hcalling := reachable_afterCall hok' (reachable_fresh ok .outgoing) .call rfl rfl
  have hconnected := reachable_afterEvent hok' hcalling (okTo .invite .confirmed) trivial rfl
  have hdtmf := reachable_afterCall hok' hconnected (.sendInDialog .info) ⟨rfl, by decide⟩ rfl
  exact reachable_afterCall hok' hdtmf .terminate trivial rfl

theorem tornDown_of_bye : byeOp.trace.count (.request .bye) = 1 ∧ TornDown byeOp.trace :=
  ⟨rfl, tornDown_of_reachable (reachable_byeOp fun _ _ h => h) (.inl rfl)⟩

/-- The response to the DTMF has a second BYE sent. -/
theorem second_bye_after_info : ¬∀ cfg : Config opSig,
    Reachable (opSystem fun _ _ => True) cfg → cfg.Observed →
      TornDown (CallOp.trace cfg.state) := by
  intro h
  have hanswered := reachable_afterEvent (b := fun _ _ => true) (fun _ _ _ => trivial)
    (reachable_byeOp fun _ _ _ => trivial) (okTo .info .confirmed) trivial rfl
  have honce := (h _ hanswered (.inl rfl)).byeOnce
  exact absurd honce (by decide)

end Linphone
