import Linphone.Call.Upcalls

/-!
# The books of a core

A call is listed until it ends, it ends once, and its reference is dropped once and after that.
The contract `lifecycle` states this as an invariant of the core, with what an operation guarantees
to the one it interrupts: it neither releases calls nor brings released ones back. This module goes
up to `linphone_call_set_state`; the operations and events are in `Linphone.Call.Lifecycle`.

Two things break the books. `lc->current_call` is assigned after a notification in which the
application may have ended the call, and `call_released` may find a call that never ended. `Guard`
leaves out exactly these.
-/

namespace Linphone

open Reentrant Contract

/-! ## The invariant -/

/-- `End`, `Error` and `Released`. -/
def CallState.final (st : CallState) : Bool := st.ended || st = .released

theorem CallState.not_final {st : CallState} (h : st.ended = false) (hr : st ≠ .released) :
    st.final = false := by
  simp [final, h, hr]

/-- The states of a call, the latest first: it ends at most once, and is then at most released. -/
inductive Life : List CallState → Prop
  | live {h} (hl : ∀ st ∈ h, st.final = false) : Life h
  | closed {e h} (he : e.ended = true) (hl : ∀ st ∈ h, st.final = false) : Life (e :: h)
  | gone {e h} (he : e.ended = true) (hl : ∀ st ∈ h, st.final = false) :
      Life (.released :: e :: h)

/-- What holds of a call. -/
structure CallRec.Ok (r : CallRec) : Prop where
  life : Life r.history
  head : r.history.head? = some r.vars.state
  prev : r.vars.prevstate ≠ .released
  completed : r.completed = r.history.countP CallState.ended
  drops : r.drops ≤ r.history.count .released

/-- What holds of a core whenever somebody looks. -/
structure Core.Inv (s : Core) : Prop where
  calls : ∀ c, (s.call c).Ok
  nodup : s.calls.Nodup
  listed : ∀ c, c ∈ s.calls ↔ (s.call c).added = true ∧ (s.state c).final = false
  current : ∀ c, s.currentCall = some c → c ∈ s.calls
  fresh : ∀ c, s.created ≤ c → (s.call c).added = false ∧ s.state c ≠ .released

/-- What an operation leaves alone: released calls, and that the others are not. -/
structure Core.Rel (s s' : Core) : Prop where
  released : ∀ c, s'.state c = .released ↔ s.state c = .released
  op : ∀ c, s.state c = .released → (s'.call c).op = (s.call c).op
  drops : ∀ c, s.state c = .released → (s'.call c).drops = (s.call c).drops

/-- On top of the invariant, when nothing runs: the released calls are done with. -/
structure Core.Idle (s : Core) : Prop where
  inv : s.Inv
  op : ∀ c, s.state c = .released → (s.call c).op = false
  drops : ∀ c, s.state c = .released → (s.call c).drops = 1

/-- The actions that keep the books: a call is made current while it is listed, and is released
after it has ended. -/
def Guard : Action → Core → Prop
  | .makeCurrent .accepted c, s => c ∈ s.calls
  | .makeCurrent .resumed c, s => c ∈ s.calls
  | .makeCurrent .connected c, s => c ∈ s.calls
  | .assign c .released, s => (s.state c).ended = true
  | _, _ => True

namespace Core

theorem Rel.refl (s : Core) : s.Rel s := ⟨fun _ => Iff.rfl, fun _ _ => rfl, fun _ _ => rfl⟩

theorem Rel.trans {a b c : Core} (h₁ : a.Rel b) (h₂ : b.Rel c) : a.Rel c where
  released i := (h₂.released i).trans (h₁.released i)
  op i hi := (h₂.op i ((h₁.released i).2 hi)).trans (h₁.op i hi)
  drops i hi := (h₂.drops i ((h₁.released i).2 hi)).trans (h₁.drops i hi)

theorem Idle.of_rel {s s' : Core} (h : s.Idle) (hi : s'.Inv) (hr : s.Rel s') : s'.Idle where
  inv := hi
  op c hc := by
    have hc' := (hr.released c).1 hc
    rw [hr.op c hc', h.op c hc']
  drops c hc := by
    have hc' := (hr.released c).1 hc
    rw [hr.drops c hc', h.drops c hc']

end Core

def lifecycle : Contract coreSig where
  Inv := Core.Inv
  Rel := Core.Rel
  Idle := Core.Idle
  Ok := Guard
  refl := Core.Rel.refl
  trans := Core.Rel.trans
  inv_of_idle := Core.Idle.inv
  idle_of_rel := Core.Idle.of_rel

/-- A call that is not released. No operation releases one. -/
def Alive (c : CallId) (s : Core) : Prop := s.state c ≠ .released

theorem stable_alive (c : CallId) : lifecycle.Stable (Alive c) :=
  fun _ _ hr ha h => ha ((hr.released c).1 h)

theorem stable_true : lifecycle.Stable fun _ => True := fun _ _ _ _ => trivial

/-! ## Calls -/

theorem CallState.ended_final {st : CallState} (h : st.ended = true) : st.final = true := by
  simp [final, h]

theorem CallState.not_ended {st : CallState} (h : st.final = false) : st.ended = false := by
  by_contra he
  rw [ended_final (by simpa using he)] at h
  cases h

theorem Life.all_live {l : List CallState} {st : CallState} (hl : Life l)
    (hh : l.head? = some st) (hf : st.final = false) : ∀ x ∈ l, x.final = false := by
  cases hl with
  | live hl => exact hl
  | closed he hl =>
      cases hh
      rw [CallState.ended_final he] at hf
      cases hf
  | gone he hl =>
      cases hh
      cases hf

theorem Life.all_live_tail {l : List CallState} {st : CallState} (hl : Life l)
    (hh : l.head? = some st) (he : st.ended = true) :
    ∃ t, l = st :: t ∧ ∀ x ∈ t, x.final = false := by
  cases hl with
  | live hl =>
      rw [List.head?_eq_some_iff] at hh
      obtain ⟨t, rfl⟩ := hh
      have hf := hl st (List.mem_cons_self ..)
      rw [CallState.ended_final he] at hf
      cases hf
  | closed he hl =>
      cases hh
      exact ⟨_, rfl, hl⟩
  | gone _ hl =>
      cases hh
      cases he

theorem count_released_of_live {l : List CallState} (hl : ∀ x ∈ l, x.final = false) :
    l.count .released = 0 := by
  rw [List.count_eq_zero]
  intro hx
  cases hl _ hx

namespace CallRec

variable {r : CallRec}

theorem Ok.drops_eq_zero (h : r.Ok) (hs : r.vars.state ≠ .released) : r.drops = 0 := by
  have hd := h.drops
  suffices r.history.count .released = 0 by omega
  cases he : r.vars.state.ended with
  | false =>
      exact count_released_of_live (h.life.all_live h.head (CallState.not_final he hs))
  | true =>
      obtain ⟨t, ht, hl⟩ := h.life.all_live_tail h.head he
      rw [ht, List.count_cons, count_released_of_live hl]
      simp [hs]

theorem Ok.congr (h : r.Ok) {r' : CallRec} (hv : r'.vars = r.vars) (hh : r'.history = r.history)
    (hc : r'.completed = r.completed) (hd : r'.drops = r.drops) : r'.Ok := by
  constructor
  · rw [hh]; exact h.life
  · rw [hh, hv]; exact h.head
  · rw [hv]; exact h.prev
  · rw [hh, hc]; exact h.completed
  · rw [hh, hd]; exact h.drops

theorem ok_new : ({} : CallRec).Ok :=
  ⟨.live (by decide), rfl, by decide, by decide, by decide⟩

/-! The assignments of `linphone_call_set_state`, case by case. -/

theorem assign_stays {x : CallState} (hne : r.vars.state ≠ x)
    (hs : x = .refered ∨ r.vars.state.ended = true ∧ x ≠ .released) :
    r.assign x = { r with vars := ⟨r.vars.state, r.vars.state⟩ } := by
  rcases Run.setState_cases r.vars x with ⟨he, -⟩ | ⟨-, -, he⟩ | ⟨-, hnr, hrel, -⟩
  · exact absurd he.symm hne
  · simp [assign, he]
  · rcases hs with hs | hs
    · exact absurd hs hnr
    · exact absurd (hrel hs.1) hs.2

theorem assign_moves {x : CallState} (hne : r.vars.state ≠ x) (hnr : x ≠ .refered)
    (hs : r.vars.state.ended = true → x = .released) :
    r.assign x = { r with vars := ⟨x, r.vars.state⟩, history := x :: r.history } := by
  rcases Run.setState_cases r.vars x with ⟨he, -⟩ | ⟨-, hst, -⟩ | ⟨-, -, -, he⟩
  · exact absurd he.symm hne
  · rcases hst with hst | hst
    · exact absurd hst hnr
    · exact absurd (hs hst.1) hst.2
  · simp [assign, he, Ne.symm hne]

theorem Ok.assign_stays (h : r.Ok) (hr : r.vars.state ≠ .released) {x : CallState}
    (hne : r.vars.state ≠ x) (hs : x = .refered ∨ r.vars.state.ended = true ∧ x ≠ .released) :
    (r.assign x).Ok := by
  rw [CallRec.assign_stays hne hs]
  exact ⟨h.life, h.head, hr, h.completed, h.drops⟩

/-- To a state that is not final. -/
theorem Ok.assign_live (h : r.Ok) (hf : r.vars.state.final = false) {x : CallState}
    (hne : r.vars.state ≠ x) (hnr : x ≠ .refered) (hx : x.final = false) : (r.assign x).Ok := by
  have hend := CallState.not_ended hf
  have hxe := CallState.not_ended hx
  have hlive := h.life.all_live h.head hf
  rw [assign_moves hne hnr (by simp [hend])]
  constructor
  · exact .live (List.forall_mem_cons.mpr ⟨hx, hlive⟩)
  · rfl
  · intro hr
    change r.vars.state = _ at hr
    rw [hr] at hf
    cases hf
  · simpa [hxe] using h.completed
  · exact Nat.le_trans h.drops (List.count_le_count_cons ..)

/-- To `End` or `Error`, with the completion in the call log. -/
theorem Ok.assign_end (h : r.Ok) (hf : r.vars.state.final = false) {x : CallState}
    (hne : r.vars.state ≠ x) (hx : x.ended = true) :
    ({ r.assign x with completed := r.completed + 1 } : CallRec).Ok := by
  have hend := CallState.not_ended hf
  have hnr : x ≠ .refered := by
    rintro rfl
    cases hx
  have hlive := h.life.all_live h.head hf
  rw [assign_moves hne hnr (by simp [hend])]
  constructor
  · exact .closed hx hlive
  · rfl
  · intro hr
    change r.vars.state = _ at hr
    rw [hr] at hf
    cases hf
  · simpa [hx] using h.completed
  · exact Nat.le_trans h.drops (List.count_le_count_cons ..)

/-- To `Released`, from a call that ended. -/
theorem Ok.assign_released (h : r.Ok) (he : r.vars.state.ended = true) :
    (r.assign .released).Ok := by
  have hne : r.vars.state ≠ .released := by
    intro hr
    rw [hr] at he
    cases he
  obtain ⟨t, ht, hlive⟩ := h.life.all_live_tail h.head he
  rw [assign_moves hne (by decide) fun _ => rfl]
  constructor
  · change Life (.released :: r.history)
    rw [ht]
    exact .gone he hlive
  · rfl
  · exact hne
  · simpa [CallState.ended] using h.completed
  · exact Nat.le_trans h.drops (List.count_le_count_cons ..)

end CallRec

/-! ## The core, when one call changes -/

namespace Core

variable {s : Core}

theorem Inv.modify (h : s.Inv) {c : CallId} {f : CallRec → CallRec} (hok : (f (s.call c)).Ok)
    (hadd : (f (s.call c)).added = (s.call c).added)
    (hfin : (f (s.call c)).vars.state.final = (s.state c).final)
    (hrel : (f (s.call c)).vars.state = .released ↔ s.state c = .released) :
    (s.modify c f).Inv := by
  refine ⟨fun i => ?_, h.nodup, fun i => ?_, h.current, fun i hi => ?_⟩
  · by_cases hic : i = c
    · subst hic
      simpa using hok
    · simpa [hic] using h.calls i
  · by_cases hic : i = c
    · subst hic
      simpa [state, hadd, hfin] using h.listed i
    · simpa [state, hic] using h.listed i
  · by_cases hic : i = c
    · subst hic
      have hf := h.fresh i hi
      simp only [state, modify_call_self, hadd, ne_eq, hrel]
      exact hf
    · simpa [state, hic] using h.fresh i hi

theorem Rel.modify {c : CallId} {f : CallRec → CallRec}
    (hrel : (f (s.call c)).vars.state = .released ↔ s.state c = .released)
    (hop : s.state c = .released → (f (s.call c)).op = (s.call c).op)
    (hdrops : s.state c = .released → (f (s.call c)).drops = (s.call c).drops) :
    s.Rel (s.modify c f) := by
  refine ⟨fun i => ?_, fun i hi => ?_, fun i hi => ?_⟩ <;> by_cases hic : i = c
  · subst hic
    simpa [state] using hrel
  · simp [state, hic]
  · subst hic
    simpa using hop hi
  · simp [hic]
  · subst hic
    simpa using hdrops hi
  · simp [hic]

end Core

/-! ## Programs that leave the books alone -/

/-- Actions on nothing that the books are about. -/
def Action.quiet : Action → Prop
  | .edit _ _ | .respond _ | .refuse | .editConference _ | .queueTask _ | .dequeueTask _ => True
  | _ => False

/-- The books are the same. -/
structure Core.SameBooks (s s' : Core) : Prop where
  created : s'.created = s.created
  calls : s'.calls = s.calls
  currentCall : s'.currentCall = s.currentCall
  maxCalls : s'.maxCalls = s.maxCalls
  vars : ∀ c, (s'.call c).vars = (s.call c).vars
  op : ∀ c, (s'.call c).op = (s.call c).op
  added : ∀ c, (s'.call c).added = (s.call c).added
  history : ∀ c, (s'.call c).history = (s.call c).history
  completed : ∀ c, (s'.call c).completed = (s.call c).completed
  drops : ∀ c, (s'.call c).drops = (s.call c).drops

namespace Core.SameBooks

theorem refl (s : Core) : s.SameBooks s :=
  ⟨rfl, rfl, rfl, rfl, fun _ => rfl, fun _ => rfl, fun _ => rfl, fun _ => rfl, fun _ => rfl,
    fun _ => rfl⟩

theorem trans {a b c : Core} (h₁ : a.SameBooks b) (h₂ : b.SameBooks c) : a.SameBooks c where
  created := h₂.created.trans h₁.created
  calls := h₂.calls.trans h₁.calls
  currentCall := h₂.currentCall.trans h₁.currentCall
  maxCalls := h₂.maxCalls.trans h₁.maxCalls
  vars i := (h₂.vars i).trans (h₁.vars i)
  op i := (h₂.op i).trans (h₁.op i)
  added i := (h₂.added i).trans (h₁.added i)
  history i := (h₂.history i).trans (h₁.history i)
  completed i := (h₂.completed i).trans (h₁.completed i)
  drops i := (h₂.drops i).trans (h₁.drops i)

variable {s s' : Core}

theorem state (h : s.SameBooks s') (c : CallId) : s'.state c = s.state c :=
  congrArg StateVars.state (h.vars c)

theorem inv (h : s.SameBooks s') (hi : s.Inv) : s'.Inv := by
  refine ⟨fun i => ?_, by rw [h.calls]; exact hi.nodup, fun i => ?_, fun i => ?_, fun i hc => ?_⟩
  · exact (hi.calls i).congr (h.vars i) (h.history i) (h.completed i) (h.drops i)
  · rw [h.calls, h.added, h.state]
    exact hi.listed i
  · rw [h.calls, h.currentCall]
    exact hi.current i
  · rw [h.created] at hc
    rw [h.added, h.state]
    exact hi.fresh i hc

theorem rel (h : s.SameBooks s') : s.Rel s' :=
  ⟨fun i => by rw [h.state], fun i _ => h.op i, fun i _ => h.drops i⟩

theorem modify {c : CallId} {f : CallRec → CallRec} (hv : ∀ r, (f r).vars = r.vars)
    (ho : ∀ r, (f r).op = r.op) (ha : ∀ r, (f r).added = r.added)
    (hh : ∀ r, (f r).history = r.history) (hc : ∀ r, (f r).completed = r.completed)
    (hd : ∀ r, (f r).drops = r.drops) : s.SameBooks (s.modify c f) := by
  refine ⟨rfl, rfl, rfl, rfl, ?_, ?_, ?_, ?_, ?_, ?_⟩ <;> intro i <;> by_cases hic : i = c <;>
    simp [hic, hv, ho, ha, hh, hc, hd]

theorem of_quiet {x : Action} (h : x.quiet) (s : Core) : s.SameBooks (x.apply s) := by
  cases x with
  | edit c f =>
      exact modify (f := fun r => { r with data := f r.data }) (fun _ => rfl) (fun _ => rfl)
        (fun _ => rfl) (fun _ => rfl) (fun _ => rfl) fun _ => rfl
  | respond c =>
      exact modify (f := fun r => { r with responses := r.responses + 1 }) (fun _ => rfl)
        (fun _ => rfl) (fun _ => rfl) (fun _ => rfl) (fun _ => rfl) fun _ => rfl
  | refuse | editConference | queueTask | dequeueTask =>
      exact ⟨rfl, rfl, rfl, rfl, fun _ => rfl, fun _ => rfl, fun _ => rfl, fun _ => rfl,
        fun _ => rfl, fun _ => rfl⟩
  | _ => exact absurd h id

end Core.SameBooks

/-- A program that neither notifies nor touches the books. -/
abbrev Quiet {α : Type} (p : CoreProg α) : Prop := p.Only Action.quiet

theorem wp_of_quiet {α : Type} {p : CoreProg α} {post : α → Core → Prop} {s : Core} (hp : Quiet p)
    (h : ∀ a s', s.SameBooks s' → post a s') : lifecycle.wp p post s :=
  wp_of_only (E := Core.SameBooks) Core.SameBooks.refl Core.SameBooks.trans
    (fun _ s hx => Core.SameBooks.of_quiet hx s) hp h

theorem wp_seq {α β : Type} {p : CoreProg α} {f : α → CoreProg β} {post : β → Core → Prop}
    {s : Core} (hp : Quiet p) (h : ∀ a s', s.SameBooks s' → lifecycle.wp (f a) post s') :
    lifecycle.wp (p >>= f) post s := by
  rw [wp_bind]
  exact wp_of_quiet hp h

theorem keeps_of_quiet {α : Type} {p : CoreProg α} {P : Core → Prop} (hp : Quiet p) :
    lifecycle.Keeps P p :=
  fun _ hs _ => wp_of_quiet hp fun _ _ h => ⟨h.inv hs, h.rel⟩

section quiet

variable (c : CallId)

theorem quiet_readCall : Quiet (readCall c) := fun _ => trivial

theorem quiet_edit (f : CallData → CallData) : Quiet (edit c f) := ⟨trivial, trivial⟩

theorem quiet_respond : Quiet (respond c) := ⟨trivial, trivial⟩

theorem quiet_query (q : Query) : Quiet (query q) := fun _ => trivial

theorem quiet_pure {α : Type} (a : α) : Quiet (pure a) := trivial

theorem quiet_useOp : Quiet (useOp c) :=
  (quiet_readCall c).bind fun _ => Prog.Only.ite trivial trivial

theorem quiet_makeLocalMediaDescription : Quiet (makeLocalMediaDescription c) :=
  (quiet_query _).bind fun _ => (quiet_query _).bind fun _ => quiet_edit c _

theorem quiet_updateStreams (md : SalMediaDescription) : Quiet (updateStreams c md) := by
  refine (quiet_query _).bind fun lib => (quiet_query _).bind fun env =>
    (quiet_readCall c).bind fun r => ?_
  split
  · exact quiet_edit c _
  · trivial

theorem quiet_prepareIce : Quiet (prepareIce c) := by
  refine (quiet_readCall c).bind fun r => Prog.Only.ite ((quiet_query _).bind fun a => ?_) trivial
  cases a with
  | gathering => trivial
  | ready => trivial
  | deleted => exact (quiet_edit c _).bind fun _ => trivial

theorem quiet_startUpdateCall : Quiet (startUpdateCall c) :=
  (quiet_readCall c).bind fun _ => (quiet_makeLocalMediaDescription c).when.bind fun _ =>
    (quiet_useOp c).bind fun _ => (quiet_query _).bind fun _ => trivial

theorem quiet_leaveConference : Quiet leaveConference := ⟨trivial, trivial⟩

end quiet

/-! ## Putting programs together -/

section keeps

variable {α β : Type} {P : Core → Prop} {c : CallId}

theorem wp_readCall {f : CallRec → CoreProg β} {post : β → Core → Prop} {s : Core} :
    lifecycle.wp (readCall c >>= f) post s ↔ lifecycle.wp (f (s.call c)) post s := Iff.rfl

theorem wp_getCore {f : Core → CoreProg β} {post : β → Core → Prop} {s : Core} :
    lifecycle.wp (getCore >>= f) post s ↔ lifecycle.wp (f s) post s := Iff.rfl

theorem wp_act {x : Action} {f : Unit → CoreProg β} {post : β → Core → Prop} {s : Core} :
    lifecycle.wp (perform x >>= f) post s ↔ (Guard x s → lifecycle.wp (f ()) post (x.apply s)) :=
  Iff.rfl

theorem keeps_readCall {f : CallRec → CoreProg β}
    (h : ∀ r, lifecycle.Keeps (fun s => P s ∧ s.call c = r) (f r)) :
    lifecycle.Keeps P (readCall c >>= f) := by
  intro s hs hP
  rw [wp_readCall]
  exact h (s.call c) s hs ⟨hP, rfl⟩

theorem keeps_readCall' {f : CallRec → CoreProg β} (h : ∀ r, lifecycle.Keeps P (f r)) :
    lifecycle.Keeps P (readCall c >>= f) :=
  keeps_readCall fun r => (h r).weaken fun _ hs => hs.1

theorem keeps_readCallOk {f : CallRec → CoreProg β}
    (h : ∀ r, r.Ok → lifecycle.Keeps (fun s => P s ∧ s.call c = r) (f r)) :
    lifecycle.Keeps P (readCall c >>= f) := by
  intro s hs hP
  rw [wp_readCall]
  exact h (s.call c) (hs.calls c) s hs ⟨hP, rfl⟩

theorem keeps_getCore {f : Core → CoreProg β} (h : ∀ s, lifecycle.Keeps P (f s)) :
    lifecycle.Keeps P (getCore >>= f) :=
  fun s hs hP => by
    rw [getCore, wp_bind]
    exact h s s hs hP

theorem keeps_seq {p : CoreProg α} {f : α → CoreProg β} (hP : lifecycle.Stable P) (hp : Quiet p)
    (hf : ∀ a, lifecycle.Keeps P (f a)) : lifecycle.Keeps P (p >>= f) :=
  (keeps_of_quiet hp).bind hP hf

theorem keeps_then {p : CoreProg α} {f : α → CoreProg β} (hP : lifecycle.Stable P)
    (hp : lifecycle.Keeps P p) (hf : ∀ a, Quiet (f a)) : lifecycle.Keeps P (p >>= f) :=
  hp.bind hP fun a => keeps_of_quiet (hf a)

theorem keeps_any {p : CoreProg α} (hp : lifecycle.Keeps (fun _ => True) p) :
    lifecycle.Keeps P p :=
  hp.weaken fun _ _ => trivial

theorem keeps_ignoring {p : CoreProg α} (hP : lifecycle.Stable P) (hp : lifecycle.Keeps P p) :
    lifecycle.Keeps P (ignoring p) :=
  keeps_then hP hp fun _ => trivial

theorem alive_of_call {s : Core} {r : CallRec} (h : s.call c = r) (hr : r.vars.state ≠ .released) :
    Alive c s := by
  rw [Alive, Core.state, h]
  exact hr

theorem keeps_of_alive {p : CoreProg α} {r : CallRec} (hp : lifecycle.Keeps (Alive c) p)
    (hr : r.vars.state ≠ .released) : lifecycle.Keeps (fun s => P s ∧ s.call c = r) p :=
  hp.weaken fun _ h => alive_of_call h.2 hr

end keeps

/-! ## Entering a state -/

theorem keeps_clearCurrent {P : Core → Prop} : lifecycle.Keeps P (perform .clearCurrent) := by
  refine keeps_perform fun s hs _ _ => ⟨?_, ?_⟩
  · exact ⟨hs.calls, hs.nodup, hs.listed, nofun, hs.fresh⟩
  · exact ⟨fun _ => Iff.rfl, fun _ _ => rfl, fun _ _ => rfl⟩

/-- The assignments that leave a call as final as it was. -/
theorem keeps_assign {c : CallId} {x : CallState} {s : Core} (hs : s.Inv) (ha : Alive c s)
    (hne : s.state c ≠ x) (hx : x ≠ .released)
    (hl : (s.state c).ended = true ∨ x.final = false) :
    (s.modify c (·.assign x)).Inv ∧ s.Rel (s.modify c (·.assign x)) := by
  by_cases hst : x = .refered ∨ (s.state c).ended = true
  · have hst' : x = .refered ∨ (s.call c).vars.state.ended = true ∧ x ≠ .released :=
      hst.imp_right fun h => ⟨h, hx⟩
    have heq := CallRec.assign_stays hne hst'
    have hok := (hs.calls c).assign_stays ha hne hst'
    refine ⟨hs.modify hok ?_ ?_ ?_, Core.Rel.modify ?_ ?_ ?_⟩ <;> simp [heq, Core.state]
  · push Not at hst
    have hf := CallState.not_final (by simpa using hst.2) ha
    have hx' := hl.resolve_left hst.2
    have heq := CallRec.assign_moves hne hst.1 fun h => absurd h hst.2
    have hok := (hs.calls c).assign_live hf hne hst.1 hx'
    have ha' : (s.call c).vars.state ≠ .released := ha
    refine ⟨hs.modify hok ?_ ?_ ?_, Core.Rel.modify ?_ ?_ ?_⟩ <;>
      simp [heq, Core.state, hx, hx', ha', show (s.call c).vars.state.final = false from hf]

/-- `linphone_call_set_state`, given what it does to a call that ends. -/
theorem keeps_setStateWith {terminated : CoreProg Unit} {c : CallId} {x : CallState}
    (hx : x ≠ .released)
    (hT : x.ended = true → ∀ s : Core, s.Inv → (s.state c).final = false → s.state c ≠ x →
      lifecycle.wp terminated (fun _ s' => s'.Inv ∧ s.Rel s') (s.modify c (·.assign x))) :
    lifecycle.Keeps (Alive c) (setStateWith terminated c x) := by
  intro s hs ha
  rw [setStateWith, wp_readCall]
  by_cases hne : s.state c = x
  · have hout : ((s.call c).vars.setState x).2 = .same := by
      simp [StateVars.setState, show (s.call c).vars.state = x from hne]
    rw [hout]
    exact ⟨hs, .refl s⟩
  have hne' : (s.call c).vars.state ≠ x := hne
  cases he : (s.state c).ended with
  | true =>
      have he' : (s.call c).vars.state.ended = true := he
      have hout : ((s.call c).vars.setState x).2 = .spurious := by
        simp [StateVars.setState, hne', he', hx]
      rw [hout]
      exact fun _ => keeps_assign hs ha hne hx (.inl he)
  | false =>
      have he' : (s.call c).vars.state.ended = false := he
      have hout : ((s.call c).vars.setState x).2 = .notified := by
        simp [StateVars.setState, hne', he']
      rw [hout]
      -- the rest keeps the books once they are right again
      have hrest : ∀ s₁ : Core, s₁.Inv ∧ s.Rel s₁ → lifecycle.wp (do
          Prog.when (x = .connected) (edit c fun d => { d with logStatus := .success })
          Prog.tell (S := coreSig) ⟨c, x⟩
          Prog.when (x = .released) (setReleased c)) (fun _ s' => s'.Inv ∧ s.Rel s') s₁ := by
        intro s₁ h₁
        rw [wp_bind]
        refine wp_of_quiet (quiet_edit c _).when fun _ s₂ h₂ => ?_
        rw [wp_bind, wp_tell]
        refine ⟨h₂.inv h₁.1, fun s₃ hi hr => ?_⟩
        rw [decide_eq_false hx]
        exact ⟨hi, h₁.2.trans (h₂.rel.trans hr)⟩
      rw [wp_act]
      intro _
      rw [wp_bind]
      cases hxe : x.ended with
      | true =>
          exact wp_mono (fun _ s₁ h₁ => hrest s₁ h₁)
            (hT hxe s hs (CallState.not_final he ha) hne)
      | false => exact hrest _ (keeps_assign hs ha hne hx (.inr (CallState.not_final hxe hx)))

theorem keeps_enterState {c : CallId} {x : CallState} (hx : x.final = false) :
    lifecycle.Keeps (Alive c) (enterState c x) :=
  keeps_setStateWith (by rintro rfl; cases hx) fun he => by
    rw [CallState.not_ended hx] at he
    cases he

section conference

variable (c : CallId) {P : Core → Prop}

theorem keeps_pauseCallInternal : lifecycle.Keeps P (pauseCallInternal c) := by
  refine keeps_readCall fun r => Keeps.ite (fun _ => keeps_pure _) fun hst => ?_
  have hr : r.vars.state ≠ .released := by
    intro h
    simp [h] at hst
  refine keeps_of_alive ?_ hr
  split
  · exact keeps_stuck
  · refine Keeps.ite (fun _ => ?_) fun _ => keeps_pure _
    refine keeps_seq (stable_alive c) (quiet_makeLocalMediaDescription c) fun _ => ?_
    refine keeps_seq (stable_alive c) (quiet_useOp c) fun _ => ?_
    refine keeps_seq (stable_alive c) (quiet_query _) fun _ => ?_
    refine keeps_clearCurrent.bind (stable_alive c) fun _ => ?_
    refine keeps_seq (stable_alive c) (quiet_edit c _) fun _ => ?_
    refine keeps_then (stable_alive c) (keeps_enterState rfl) fun _ => ?_
    exact (quiet_edit c _).bind fun _ => trivial

theorem keeps_updateCall (params : Option CallParams) :
    lifecycle.Keeps P (updateCall c params) := by
  refine keeps_readCall fun r => ?_
  split
  · exact keeps_pure _
  · exact keeps_pure _
  · rename_i nextstate p hst
    have hr : r.vars.state ≠ .released := by
      intro h
      simp [h, updatingState] at hst
    have hf : nextstate.final = false := by
      revert hst
      cases r.vars.state <;> simp [updatingState] <;> rintro rfl <;> rfl
    refine keeps_of_alive ?_ hr
    refine (keeps_enterState hf).bind (stable_alive c) fun _ => ?_
    refine keeps_seq (stable_alive c) (quiet_edit c _) fun _ => ?_
    refine keeps_seq (stable_alive c) (quiet_prepareIce c) fun _ => ?_
    exact Keeps.ite (fun _ => keeps_pure _) fun _ => keeps_of_quiet (quiet_startUpdateCall c)

theorem keeps_removeFromConferenceInternal (active : Bool) :
    lifecycle.Keeps (fun _ => True) (removeFromConferenceInternal c active) := by
  refine keeps_readCall' fun r => Keeps.ite (fun _ => ?_) fun _ => keeps_pure _
  refine keeps_seq stable_true (quiet_edit c _) fun _ => Keeps.ite (fun _ => ?_) fun _ => ?_
  · refine keeps_seq stable_true (quiet_query _) fun _ => ?_
    exact keeps_seq stable_true quiet_leaveConference fun _ => keeps_updateCall c _
  · exact keeps_pauseCallInternal c

theorem keeps_convertConferenceToCall :
    lifecycle.Keeps (fun _ => True) convertConferenceToCall := by
  refine keeps_seq stable_true (quiet_query _) fun _ => Keeps.ite (fun _ => ?_) fun _ =>
    keeps_pure _
  refine keeps_getCore fun s => ?_
  split
  · exact keeps_removeFromConferenceInternal _ _
  · exact keeps_pure _

theorem keeps_conferenceCheckUninit :
    lifecycle.Keeps (fun _ => True) conferenceCheckUninit := by
  refine keeps_getCore fun s => Keeps.when fun _ => ?_
  refine keeps_seq stable_true (quiet_query _) fun _ => ?_
  refine Keeps.bind (Keeps.when fun _ => ?_) stable_true fun _ => ?_
  · exact keeps_then stable_true keeps_convertConferenceToCall fun _ => trivial
  refine keeps_seq stable_true quiet_leaveConference.when fun _ => ?_
  refine keeps_seq stable_true (quiet_query _) fun _ => ?_
  exact keeps_of_quiet (Prog.Only.when ⟨trivial, trivial⟩)

end conference

/-! ## Ending a call -/

/-- The books after the end of a listed or unlisted call, before the conference is looked at. -/
theorem Core.Inv.ended {s s' : Core} {c : CallId} {x : CallState} (hs : s.Inv)
    (hf : (s.state c).final = false) (hne : s.state c ≠ x) (hx : x.ended = true)
    (hcreated : s'.created = s.created) (hcalls : s'.calls = s.calls.erase c)
    (hcur : s'.currentCall = if s.currentCall = some c then none else s.currentCall)
    (hself : s'.call c =
      { (s.call c).assign x with
        completed := (s.call c).completed + 1, data := (s'.call c).data })
    (hother : ∀ i, i ≠ c → s'.call i = s.call i) : s'.Inv ∧ s.Rel s' := by
  have hxr : x ≠ .released := by
    rintro rfl
    cases hx
  have hnr : x ≠ .refered := by
    rintro rfl
    cases hx
  have hfr : (s.call c).vars.state ≠ .released := by
    intro h
    rw [Core.state, h] at hf
    cases hf
  have hmoves := CallRec.assign_moves hne hnr fun h => by
    rw [Core.state] at hf
    rw [CallState.not_ended hf] at h
    cases h
  have hstate : s'.state c = x := by
    rw [Core.state, hself, hmoves]
  refine ⟨⟨fun i => ?_, ?_, fun i => ?_, fun i hi => ?_, fun i hi => ?_⟩,
    ⟨fun i => ?_, fun i hi => ?_, fun i hi => ?_⟩⟩
  · by_cases hic : i = c
    · subst hic
      rw [hself]
      exact ((hs.calls i).assign_end hf hne hx).congr rfl rfl rfl rfl
    · rw [hother i hic]
      exact hs.calls i
  · rw [hcalls]
    exact hs.nodup.erase c
  · rw [hcalls, hs.nodup.mem_erase_iff]
    by_cases hic : i = c
    · subst hic
      simp [hstate, CallState.ended_final hx]
    · simpa [Core.state, hother i hic, hic] using hs.listed i
  · rw [hcur] at hi
    split at hi
    · cases hi
    · rename_i hne
      rw [hcalls, hs.nodup.mem_erase_iff]
      refine ⟨?_, hs.current i hi⟩
      rintro rfl
      exact hne hi
  · rw [hcreated] at hi
    have hfresh := hs.fresh i hi
    by_cases hic : i = c
    · subst hic
      refine ⟨?_, by rw [hstate]; exact hxr⟩
      rw [hself, hmoves]
      exact hfresh.1
    · simpa [Core.state, hother i hic] using hfresh
  · by_cases hic : i = c
    · subst hic
      rw [hstate]
      exact ⟨fun h => absurd h hxr, fun h => absurd h hfr⟩
    · rw [Core.state, hother i hic, Core.state]
  · have hic : i ≠ c := by
      rintro rfl
      exact hfr hi
    rw [hother i hic]
  · have hic : i ≠ c := by
      rintro rfl
      exact hfr hi
    rw [hother i hic]

/-- **`linphone_call_set_state`** to anything but `Released` keeps the books of every call that is
not released. -/
theorem keeps_setState {c : CallId} {x : CallState} (hx : x ≠ .released) :
    lifecycle.Keeps (Alive c) (setState c x) := by
  refine keeps_setStateWith hx fun hxe s hs hf hne => ?_
  -- the conference is looked at when the call is off the books
  have hrest : ∀ s₁ : Core, s₁.Inv ∧ s.Rel s₁ → lifecycle.wp (do
      conferenceCheckUninit
      edit c fun d => { d with ringingBeep := false }) (fun _ s' => s'.Inv ∧ s.Rel s') s₁ := by
    intro s₁ h₁
    refine wp_mono (fun _ s₂ h₂ => ⟨h₂.1, h₁.2.trans h₂.2⟩)
      (keeps_then stable_true keeps_conferenceCheckUninit (fun _ => quiet_edit c _) s₁ h₁.1 trivial)
  rw [edit, wp_act]
  intro _
  rw [setTerminated, edit, wp_act]
  intro _
  rw [wp_act]
  intro _
  rw [wp_getCore, wp_bind, wp_when]
  split
  · rename_i hcur
    intro _ _
    refine hrest _ (hs.ended hf hne hxe rfl rfl ?_ ?_ ?_)
    · simp_all [Action.apply]
    · simp [Action.apply, CallRec.assign]
    · simp +contextual [Action.apply]
  · rename_i hcur
    rw [wp_act]
    intro _
    refine hrest _ (hs.ended hf hne hxe rfl rfl ?_ ?_ ?_)
    · simp_all [Action.apply]
    · simp [Action.apply, CallRec.assign]
    · simp +contextual [Action.apply]

/-! ## The other actions -/

namespace Core

variable {s : Core} {c : CallId}

theorem Inv.create (hs : s.Inv) (data : CallData) :
    ((Action.create data).apply s).Inv ∧ s.Rel ((Action.create data).apply s) := by
  have hself : ((Action.create data).apply s).call s.created = { op := true, data := data } := by
    simp [Action.apply]
  have hother : ∀ i, i ≠ s.created → ((Action.create data).apply s).call i = s.call i := by
    intro i hi
    simp [Action.apply, hi]
  have hfresh := hs.fresh s.created (Nat.le_refl _)
  refine ⟨⟨fun i => ?_, hs.nodup, fun i => ?_, hs.current, fun i hi => ?_⟩,
    ⟨fun i => ?_, fun i hi => ?_, fun i hi => ?_⟩⟩
  · by_cases hic : i = s.created
    · subst hic
      rw [hself]
      exact CallRec.ok_new.congr rfl rfl rfl rfl
    · rw [hother i hic]
      exact hs.calls i
  · by_cases hic : i = s.created
    · subst hic
      have hl := hs.listed s.created
      rw [hfresh.1] at hl
      rw [state, hself]
      exact hl.trans (by simp)
    · rw [state, hother i hic]
      exact hs.listed i
  · have hic : i ≠ s.created := by
      change s.created + 1 ≤ i at hi
      omega
    rw [state, hother i hic]
    exact hs.fresh i (Nat.le_of_succ_le hi)
  · by_cases hic : i = s.created
    · subst hic
      rw [state, hself]
      exact ⟨nofun, fun h => absurd h hfresh.2⟩
    · rw [state, hother i hic, state]
  · have hic : i ≠ s.created := by
      rintro rfl
      exact hfresh.2 hi
    rw [hother i hic]
  · have hic : i ≠ s.created := by
      rintro rfl
      exact hfresh.2 hi
    rw [hother i hic]

/-- A call that was not added, and is not over, is listed. -/
theorem Inv.addCall (hs : s.Inv) (hc : c < s.created) (ha : (s.call c).added = false)
    (hf : (s.state c).final = false) :
    ((Action.addCall c).apply s).Inv ∧ s.Rel ((Action.addCall c).apply s) ∧
      c ∈ ((Action.addCall c).apply s).calls := by
  have hnot : c ∉ s.calls := by
    rw [hs.listed, ha]
    simp
  have hself : ((Action.addCall c).apply s).call c = { s.call c with added := true } := by
    simp [Action.apply]
  have hother : ∀ i, i ≠ c → ((Action.addCall c).apply s).call i = s.call i := by
    intro i hi
    simp [Action.apply, hi]
  have hstate : ∀ i, ((Action.addCall c).apply s).state i = s.state i := by
    intro i
    by_cases hic : i = c
    · subst hic
      rw [state, hself, state]
    · rw [state, hother i hic, state]
  refine ⟨⟨fun i => ?_, ?_, fun i => ?_, fun i hi => ?_, fun i hi => ?_⟩,
    ⟨fun i => by rw [hstate], fun i hi => ?_, fun i hi => ?_⟩, List.mem_append_right _ (by simp)⟩
  · by_cases hic : i = c
    · subst hic
      rw [hself]
      exact (hs.calls i).congr rfl rfl rfl rfl
    · rw [hother i hic]
      exact hs.calls i
  · exact List.nodup_append.mpr ⟨hs.nodup, by simp, by
      rintro i hi j hj rfl
      rw [List.mem_singleton] at hj
      exact hnot (hj ▸ hi)⟩
  · rw [hstate]
    change i ∈ s.calls ++ [c] ↔ _
    by_cases hic : i = c
    · subst hic
      simp [hself, hf]
    · rw [hother i hic]
      simpa [hic] using hs.listed i
  · exact List.mem_append_left _ (hs.current i hi)
  · have hic : i ≠ c := by
      rintro rfl
      exact absurd hc (Nat.not_lt.mpr hi)
    rw [hstate, hother i hic]
    exact hs.fresh i hi
  · by_cases hic : i = c
    · subst hic
      rw [hself]
    · rw [hother i hic]
  · by_cases hic : i = c
    · subst hic
      rw [hself]
    · rw [hother i hic]

theorem Inv.makeCurrent (hs : s.Inv) (hc : c ∈ s.calls) (site : CurrentSite) :
    ((Action.makeCurrent site c).apply s).Inv ∧ s.Rel ((Action.makeCurrent site c).apply s) := by
  refine ⟨⟨hs.calls, hs.nodup, hs.listed, fun i hi => ?_, hs.fresh⟩, ⟨fun _ => Iff.rfl,
    fun _ _ => rfl, fun _ _ => rfl⟩⟩
  cases hi
  exact hc

theorem Inv.alive (hs : s.Inv) (hc : c ∈ s.calls) : Alive c s := by
  intro hr
  have hf := ((hs.listed c).mp hc).2
  rw [hr] at hf
  cases hf

end Core

section actions

variable {c : CallId} {P : Core → Prop}

theorem keeps_makeCurrent {site : CurrentSite}
    (hg : ∀ s, Guard (.makeCurrent site c) s → c ∈ s.calls) :
    lifecycle.Keeps P (perform (.makeCurrent site c)) :=
  keeps_perform fun s hs _ hok => Core.Inv.makeCurrent hs (hg s hok) site

theorem keeps_op {s : Core} (hs : s.Inv) (ha : Alive c s) (op : Bool) :
    (s.modify c fun r => { r with op := op }).Inv ∧
      s.Rel (s.modify c fun r => { r with op := op }) :=
  ⟨hs.modify ((hs.calls c).congr rfl rfl rfl rfl) rfl rfl Iff.rfl,
    Core.Rel.modify Iff.rfl (fun h => absurd h ha) fun _ => rfl⟩

theorem keeps_releaseOp : lifecycle.Keeps (Alive c) (perform (.releaseOp c)) :=
  keeps_perform fun _ hs ha _ => keeps_op hs ha false

theorem keeps_createOp : lifecycle.Keeps (Alive c) (perform (.createOp c)) :=
  keeps_perform fun _ hs ha _ => keeps_op hs ha true

end actions

end Linphone
