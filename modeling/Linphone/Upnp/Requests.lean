import Linphone.Upnp.Bindings

/-!
# The last request for a port binding

A request that comes while the opposite one is at the router is remembered in a flag of the binding
and executed by the callback. `settles_of_run`: while the context is Ok and requests can be sent,
in every run in which no request countermands one that is deferred behind the same request, a
binding with nothing left at the router is where its last request wants it, unless its last retry
was exhausted. `countermand_lost` is the run that this leaves out: add, remove and add again before
the router answers, and the binding is removed, since the flag of the removal is cleared only when
the second add is not the request in flight.

The invariant is `Phase`, for each binding on its own.
-/

namespace Linphone

open UpnpContext

/-! ## Runs -/

/-- A context with what was asked of it: the last request for each binding, and whether the last
answer for it was a failure that nothing was sent after. -/
structure Requested where
  lupnp : UpnpContext
  last : BindingId → Option IgdAction := fun _ => none
  gaveUp : BindingId → Bool := fun _ => false

inductive PortEvent
  /-- A request with `retry` `FALSE`. -/
  | request (b : BindingId) (action : IgdAction)
  /-- The router answers. -/
  | answer (r : IgdRequest) (success : Bool)

namespace PortEvent

def Enabled (s : Requested) : PortEvent → Prop
  | request _ _ => True
  | answer r _ => r ∈ s.lupnp.inFlight

/-- Not the same request as the one in flight, behind which the opposite one is deferred. -/
def Heard (s : Requested) : PortEvent → Prop
  | request b action =>
      ¬((s.lupnp.binding b).state = action.busy ∧
        (s.lupnp.binding b).deferred action.opposite = true)
  | answer _ _ => True

instance (s : Requested) : (e : PortEvent) → Decidable (e.Enabled s)
  | request _ _ => inferInstanceAs (Decidable True)
  | answer _ _ => inferInstanceAs (Decidable (_ ∈ _))

/-- The context after an event, with the last request and the failures. -/
def after (igd : Igd) (s : Requested) : PortEvent → Requested
  | request b action =>
      { s with
        lupnp := s.lupnp.send igd b action false
        last := Function.update s.last b (some action) }
  | answer r success =>
      let lupnp := s.lupnp.igdAnswer igd r success
      { s with
        lupnp := lupnp
        gaveUp := Function.update s.gaveUp r.binding
          (!success && (lupnp.flight r.binding).isEmpty) }

end PortEvent

/-- A run, each event of which satisfies a condition on the state before it. -/
inductive PortRun (igd : Igd) (cond : Requested → PortEvent → Prop) (s₀ : Requested) :
    Requested → Prop
  | start : PortRun igd cond s₀ s₀
  | step {s : Requested} (e : PortEvent) : PortRun igd cond s₀ s → e.Enabled s → cond s e →
      PortRun igd cond s₀ (e.after igd s)

/-- A context that is Ok, with nothing at the router. -/
structure Requested.Fresh (s : Requested) : Prop where
  ok : s.lupnp.state = .ok
  quiet : s.lupnp.inFlight = []
  settled : ∀ b, (s.lupnp.binding b).state = .idle ∨ (s.lupnp.binding b).state = .ok
  flags : ∀ b, (s.lupnp.binding b).toAdd = false ∧ (s.lupnp.binding b).toRemove = false
  last : ∀ b, s.last b = none

/-- A binding is where its last request wants it, with nothing deferred. -/
def Settles (s : Requested) (b : BindingId) : Prop :=
  s.lupnp.flight b = [] → s.gaveUp b = false → ∀ action, s.last b = some action →
    (s.lupnp.binding b).state = action.settled ∧ (s.lupnp.binding b).toAdd = false ∧
      (s.lupnp.binding b).toRemove = false

/-! ## The phases of a binding -/

/-- Where a binding is, with what is at the router for it and what was asked of it. -/
inductive Phase (b : BindingId) (port : UpnpPortBinding) (flight : List IgdRequest)
    (last : Option IgdAction) (gaveUp : Bool) : Prop
  | settled (action : IgdAction) : port.state = action.settled → flight = [] →
      (∀ x, port.deferred x = false) → last ≠ some action.opposite →
      Phase b port flight last gaveUp
  | failed : port.state = .ko → flight = [] → (∀ x, port.deferred x = false) → gaveUp = true →
      Phase b port flight last gaveUp
  | busy (action : IgdAction) (r : IgdRequest) : port.state = action.busy → flight = [r] →
      r.action = action → port.retry ≠ 0 → port.deferred action = false →
      last = some (if port.deferred action.opposite then action.opposite else action) →
      Phase b port flight last gaveUp

section phases

variable {b : BindingId} {port : UpnpPortBinding} {flight : List IgdRequest}
  {last : Option IgdAction} {gaveUp : Bool}

theorem deferred_eq_false (h : port.toAdd = false ∧ port.toRemove = false) (x : IgdAction) :
    port.deferred x = false := by
  cases x with
  | add => exact h.1
  | remove => exact h.2

theorem deferred_all (action : IgdAction) (h : port.deferred action = false)
    (hopposite : port.deferred action.opposite = false) (x : IgdAction) :
    port.deferred x = false := by
  cases action <;> cases x <;> assumption

theorem Phase.of_busy {action : IgdAction} (h : Phase b port flight last gaveUp)
    (hst : port.state = action.busy) :
    (∃ r, flight = [r] ∧ r.action = action) ∧ port.retry ≠ 0 ∧ port.deferred action = false ∧
      last = some (if port.deferred action.opposite then action.opposite else action) := by
  cases h with
  | settled x hx => exact absurd (hx.symm.trans hst) (settled_ne_busy x action)
  | failed hx => exact absurd (hx.symm.trans hst) (ko_ne_busy action)
  | busy x r hx hflight hr hretry hdeferred hlast =>
      obtain rfl := busy_inj (hx.symm.trans hst)
      exact ⟨⟨r, hflight, hr⟩, hretry, hdeferred, hlast⟩

/-- The phase of a binding with something at the router. -/
theorem Phase.of_flight {r : IgdRequest} (h : Phase b port flight last gaveUp)
    (hr : r ∈ flight) : port.state = r.action.busy ∧ flight = [r] ∧ port.retry ≠ 0 ∧
      port.deferred r.action = false ∧
      last = some (if port.deferred r.action.opposite then r.action.opposite else r.action) := by
  cases h with
  | settled x hx hflight =>
      rw [hflight] at hr
      exact absurd hr List.not_mem_nil
  | failed hx hflight =>
      rw [hflight] at hr
      exact absurd hr List.not_mem_nil
  | busy x r' hx hflight hr' hretry hdeferred hlast =>
      rw [hflight] at hr
      obtain rfl := List.mem_singleton.mp hr
      subst hr'
      exact ⟨hx, hflight, hretry, hdeferred, hlast⟩

theorem Phase.settles (h : Phase b port flight last gaveUp) (hflight : flight = [])
    (hgave : gaveUp = false) {action : IgdAction} (hlast : last = some action) :
    port.state = action.settled ∧ port.toAdd = false ∧ port.toRemove = false := by
  cases h with
  | settled x hx _ hflags hne =>
      have hxa : x = action := by
        cases x <;> cases action <;> first | rfl | exact absurd hlast hne
      rw [hx, hxa]
      exact ⟨rfl, hflags .add, hflags .remove⟩
  | failed _ _ _ htrue => exact Bool.noConfusion (hgave.symm.trans htrue)
  | busy x r _ hr =>
      rw [hflight] at hr
      exact absurd hr (by simp)

theorem Phase.congr {port' : UpnpPortBinding} (h : Phase b port flight last gaveUp)
    (hst : port'.state = port.state) (hretry : port'.retry = port.retry)
    (hdeferred : ∀ x, port'.deferred x = port.deferred x) : Phase b port' flight last gaveUp := by
  have hall : (∀ x, port.deferred x = false) → ∀ x, port'.deferred x = false :=
    fun hf x => (hdeferred x).trans (hf x)
  cases h with
  | settled x hx hflight hflags hlast =>
      exact .settled x (hst.trans hx) hflight (hall hflags) hlast
  | failed hx hflight hflags hgave => exact .failed (hst.trans hx) hflight (hall hflags) hgave
  | busy x r hx hflight hr hne hown hlast =>
      refine .busy x r (hst.trans hx) hflight hr (hretry ▸ hne) ((hdeferred x).trans hown) ?_
      rw [hdeferred]
      exact hlast

theorem phase_out {action : IgdAction} {r : IgdRequest} (hst : port.state = action.busy)
    (hr : r.action = action) (hretry : port.retry ≠ 0) (hdeferred : port.deferred action = false)
    (hopposite : port.deferred action.opposite = false) :
    Phase b port [r] (some action) gaveUp := by
  refine .busy action r hst rfl hr hretry hdeferred ?_
  rw [hopposite]
  rfl

end phases

section steps

variable {igd : Igd} {lupnp : UpnpContext} {b : BindingId} {last : Option IgdAction}
  {gaveUp : Bool}

/-- A request on a binding. -/
theorem phase_request (hsends : ∀ n, igd.result n = 0) (hok : lupnp.state = .ok)
    (action : IgdAction)
    (h : Phase b (lupnp.binding b) (lupnp.flight b) last gaveUp)
    (hheard : ¬((lupnp.binding b).state = action.busy ∧
      (lupnp.binding b).deferred action.opposite = true)) :
    Phase b ((lupnp.send igd b action false).binding b) ((lupnp.send igd b action false).flight b)
      (some action) gaveUp := by
  have hsent := send_cases (b := b) hsends hok action false
  generalize lupnp.send igd b action false = lupnp' at hsent ⊢
  cases hsent with
  | busy hst =>
      obtain ⟨⟨r, hflight, hr⟩, hretry, hdeferred, -⟩ := h.of_busy hst
      have hopposite : (lupnp.binding b).deferred action.opposite = false := by
        simpa using fun hd => hheard ⟨hst, hd⟩
      rw [hflight]
      exact phase_out hst hr hretry hdeferred hopposite
  | deferred hst =>
      obtain ⟨⟨r, hflight, hr⟩, hretry, -, -⟩ := h.of_busy hst
      refine .busy action.opposite r ?_ hflight hr ?_ ?_ ?_
      · rw [put_binding]
        simpa using hst
      · rw [put_binding]
        simpa using hretry
      · rw [put_binding]
        cases action <;> rfl
      · rw [put_binding]
        cases action <;> rfl
  | nothing hbusy hopposite hstarts =>
      cases h with
      | settled x hst hflight hdeferred hlast =>
          refine .settled action ?_ hflight ?_ ?_
          · rw [put_binding, UpnpPortBinding.setDeferred_state, hst]
            cases x <;> cases action <;>
              first | rfl | exact absurd hstarts (by rw [hst]; decide)
          · intro y
            rw [put_binding]
            have hy := hdeferred y
            cases action <;> cases y <;> first | rfl | exact hy
          · cases action <;> exact nofun
      | failed hst hflight hdeferred hgave =>
          refine .failed ?_ hflight ?_ hgave
          · rw [put_binding, UpnpPortBinding.setDeferred_state]
            exact hst
          · intro y
            rw [put_binding]
            have hy := hdeferred y
            cases action <;> cases y <;> first | rfl | exact hy
      | busy x r hst =>
          cases action <;> cases x <;> first | exact absurd hst hbusy | exact absurd hst hopposite
  | exhausted _ hfalse => exact Bool.noConfusion hfalse
  | out port hstart hst _ hretry hdeferred hopposite =>
      -- it was not busy, so it had nothing at the router
      have hstarts : action.starts (lupnp.binding b).state = true := by
        refine hstart.resolve_left fun hbusy => ?_
        exact (h.of_busy hbusy.1).2.1 (hbusy.2.resolve_left Bool.false_ne_true)
      have hidle : lupnp.flight b = [] ∧ (lupnp.binding b).deferred action = false ∧
          (lupnp.binding b).state ≠ action.busy := by
        cases h with
        | settled x hx hflight hflags => exact ⟨hflight, hflags _, hx ▸ settled_ne_busy x action⟩
        | failed hx hflight hflags => exact ⟨hflight, hflags _, hx ▸ ko_ne_busy action⟩
        | busy x r hx =>
            rw [hx] at hstarts
            cases action <;> cases x <;> exact absurd hstarts (by decide)
      rw [sent_binding, sent_flight, hidle.1]
      rw [if_neg hidle.2.2] at hopposite
      exact phase_out hst rfl hretry (hdeferred.trans hidle.2.1) hopposite

/-- Nothing was deferred against the last request. -/
theorem Phase.opposite {port : UpnpPortBinding} {flight : List IgdRequest} {action : IgdAction}
    (h : Phase b port flight (some action) gaveUp) : port.deferred action.opposite = false := by
  cases h with
  | settled _ _ _ hflags => exact hflags _
  | failed _ _ hflags => exact hflags _
  | busy x r _ _ _ _ hdeferred hlast =>
      cases hopp : port.deferred x.opposite with
      | false =>
          rw [hopp] at hlast
          obtain rfl := Option.some.inj hlast
          exact hopp
      | true =>
          rw [hopp] at hlast
          obtain rfl := Option.some.inj hlast
          cases x <;> exact hdeferred

/-- A failure counts when nothing was sent after it. -/
theorem Phase.gave {port : UpnpPortBinding} {flight : List IgdRequest}
    (h : Phase b port flight last true) : Phase b port flight last flight.isEmpty := by
  cases h with
  | settled x hst hflight hflags hlast => exact .settled x hst hflight hflags hlast
  | failed hst hflight hflags _ => exact .failed hst hflight hflags (by rw [hflight]; rfl)
  | busy x r hst hflight hr hretry hdeferred hlast =>
      exact .busy x r hst hflight hr hretry hdeferred hlast

/-- The delayed actions of the callback. -/
def delayed (igd : Igd) (lupnp : UpnpContext) (b : BindingId) : UpnpContext :=
  (lupnp.delayedRemove igd b).delayedAdd igd b

theorem delayed_none (h : ∀ x, (lupnp.binding b).deferred x = false) :
    delayed igd lupnp b = lupnp := by
  have hremove : lupnp.delayedRemove igd b = lupnp := by
    have hr : (lupnp.binding b).toRemove = false := h .remove
    unfold delayedRemove
    simp [hr]
  have ha : (lupnp.binding b).toAdd = false := h .add
  unfold delayed delayedAdd
  rw [hremove]
  simp [ha]

theorem delayed_busy {action : IgdAction} (h : (lupnp.binding b).state = action.busy) :
    delayed igd lupnp b = lupnp := by
  have hremove : lupnp.delayedRemove igd b = lupnp := by
    unfold delayedRemove
    cases action <;> simp [h, IgdAction.busy]
  unfold delayed delayedAdd
  rw [hremove]
  cases action <;> simp [h, IgdAction.busy]

/-- What was deferred behind a request that is over is executed. -/
theorem phase_delayed (gaveUp : Bool) (hsends : ∀ n, igd.result n = 0) (hok : lupnp.state = .ok)
    (action : IgdAction)
    (hst : (lupnp.binding b).state = action.settled ∨
      (lupnp.binding b).state = .ko ∧ gaveUp = true)
    (hflight : lupnp.flight b = []) (hdeferred : (lupnp.binding b).deferred action = false) :
    Phase b ((delayed igd lupnp b).binding b) ((delayed igd lupnp b).flight b)
      (some (if (lupnp.binding b).deferred action.opposite then action.opposite else action))
      gaveUp := by
  cases hopp : (lupnp.binding b).deferred action.opposite with
  | false =>
      have hflags := deferred_all action hdeferred hopp
      rw [delayed_none hflags]
      rcases hst with hst | ⟨hst, hgave⟩
      · exact .settled action hst hflight hflags (by cases action <;> exact nofun)
      · exact .failed hst hflight hflags hgave
  | true =>
      -- the flag is cleared first
      let cleared := lupnp.modify b fun port => port.setDeferred action.opposite false
      have hcleared : cleared.binding b =
          (lupnp.binding b).setDeferred action.opposite false := lupnp.modify_self b _
      have hflags : ∀ x, (cleared.binding b).deferred x = false := by
        rw [hcleared]
        refine deferred_all action ?_ ?_
        · rw [UpnpPortBinding.setDeferred_opposite']
          exact hdeferred
        · exact UpnpPortBinding.setDeferred_self _ _ _
      have hstate : (cleared.binding b).state = (lupnp.binding b).state := by
        rw [hcleared]
        exact UpnpPortBinding.setDeferred_state _ _ _
      have hphase : Phase b (cleared.binding b) (cleared.flight b) none gaveUp := by
        rcases hst with hst | ⟨hst, hgave⟩
        · exact .settled action (hstate.trans hst) hflight hflags (by exact nofun)
        · exact .failed (hstate.trans hst) hflight hflags hgave
      have hquiet : ∀ x : IgdAction, (cleared.binding b).state ≠ x.busy := by
        intro x
        rw [hstate]
        rcases hst with hst | ⟨hst, -⟩
        · rw [hst]
          exact settled_ne_busy _ _
        · rw [hst]
          exact ko_ne_busy x
      have hok' : cleared.state = .ok := hok
      have hsend := phase_request hsends hok' action.opposite hphase
        fun h => hquiet _ h.1
      cases action with
      | add =>
          have htoRemove : (lupnp.binding b).toRemove = true := hopp
          rcases hst with hst | ⟨hst, hgave⟩
          · have hremove : lupnp.delayedRemove igd b = cleared.send igd b .remove false := by
              have hok' : (lupnp.binding b).state = .ok := hst
              unfold delayedRemove
              simp only [htoRemove, hok', and_self, if_true]
              rfl
            have hadd : ((cleared.send igd b .remove false).binding b).toAdd = false :=
              hsend.opposite
            have hdone : delayed igd lupnp b = cleared.send igd b .remove false := by
              unfold delayed delayedAdd
              rw [hremove]
              simp [hadd]
            rw [hdone]
            exact hsend
          · have hremove : lupnp.delayedRemove igd b = cleared := by
              unfold delayedRemove
              simp only [htoRemove, hst, true_and, if_true]
              rfl
            have hadd : (cleared.binding b).toAdd = false := hflags .add
            have hdone : delayed igd lupnp b = cleared := by
              unfold delayed delayedAdd
              rw [hremove]
              simp [hadd]
            rw [hdone]
            exact .failed (hstate.trans hst) hflight hflags hgave
      | remove =>
          have hremove : lupnp.delayedRemove igd b = lupnp := by
            have hr : (lupnp.binding b).toRemove = false := hdeferred
            unfold delayedRemove
            simp [hr]
          have htoAdd : (lupnp.binding b).toAdd = true := hopp
          have hstart : (lupnp.binding b).state = .idle ∨ (lupnp.binding b).state = .ko :=
            hst.imp id And.left
          have hdone : delayed igd lupnp b = cleared.send igd b .add false := by
            unfold delayed delayedAdd
            rw [hremove]
            simp only [htoAdd, hstart, and_self, if_true]
            rfl
          rw [hdone]
          exact hsend

/-- A context but for its lists of configurations. -/
def SameButConfigs (l l' : UpnpContext) : Prop :=
  ∃ configs, l' = { l with configs := configs }

theorem mapping_success (igd : Igd) (lupnp : UpnpContext) (r : IgdRequest) :
    ∃ port : UpnpPortBinding,
      SameButConfigs (lupnp.put r.binding port) (lupnp.mappingAnswered igd r true) ∧
        port.state = r.action.settled ∧ port.ref = (lupnp.binding r.binding).ref ∧
        ∀ x, port.deferred x = (lupnp.binding r.binding).deferred x := by
  unfold mappingAnswered
  cases hr : r.action with
  | add =>
      refine ⟨{ lupnp.binding r.binding with externalPort := r.remotePort, state := .ok },
        ⟨_, rfl⟩, rfl, rfl, fun x => ?_⟩
      cases x <;> rfl
  | remove =>
      refine ⟨{ lupnp.binding r.binding with state := .idle }, ⟨_, rfl⟩, rfl, rfl,
        fun x => ?_⟩
      cases x <;> rfl

/-- A failure tries again, on the binding as it was but for its external port. -/
theorem mapping_failure (igd : Igd) (lupnp : UpnpContext) (r : IgdRequest) :
    ∃ externalPort, SameButConfigs
      ((lupnp.modify r.binding fun port => { port with externalPort := externalPort }).send igd
        r.binding r.action true) (lupnp.mappingAnswered igd r false) := by
  unfold mappingAnswered
  cases hr : r.action with
  | add => exact ⟨-1, _, rfl⟩
  | remove =>
      have hsame : (lupnp.modify r.binding fun port =>
          { port with externalPort := (lupnp.binding r.binding).externalPort }) = lupnp :=
        put_self
      refine ⟨(lupnp.binding r.binding).externalPort, ?_⟩
      rw [hsame]
      change SameButConfigs (lupnp.sendRemovePortBinding igd r.binding true).2
        (if (lupnp.sendRemovePortBinding igd r.binding true).1 ≠ 0 then
          (lupnp.sendRemovePortBinding igd r.binding true).2.configRemove r.binding
        else (lupnp.sendRemovePortBinding igd r.binding true).2)
      split
      · exact ⟨_, rfl⟩
      · exact ⟨_, rfl⟩

/-- What the answer to the request at the router does to the binding. -/
theorem phase_answered (hsends : ∀ n, igd.result n = 0) (hok : lupnp.state = .ok) (r : IgdRequest)
    (success : Bool) (hst : (lupnp.binding r.binding).state = r.action.busy)
    (hflight : lupnp.flight r.binding = [])
    (hdeferred : (lupnp.binding r.binding).deferred r.action = false)
    (hlast : last = some (if (lupnp.binding r.binding).deferred r.action.opposite then
      r.action.opposite else r.action)) :
    let answered := delayed igd (lupnp.mappingAnswered igd r success) r.binding
    Phase r.binding (answered.binding r.binding) (answered.flight r.binding) last
      (!success && (answered.flight r.binding).isEmpty) := by
  intro answered
  cases success with
  | true =>
      obtain ⟨port, ⟨configs, heq⟩, hsettled, -, hflags⟩ := mapping_success igd lupnp r
      have hport : (lupnp.mappingAnswered igd r true).binding r.binding = port := by
        rw [heq]
        exact lupnp.put_binding r.binding port
      have hok' : (lupnp.mappingAnswered igd r true).state = .ok := by
        rw [heq]
        exact hok
      have hflight' : (lupnp.mappingAnswered igd r true).flight r.binding = [] := by
        rw [heq]
        exact hflight
      have hphase := phase_delayed false hsends hok' r.action
        (.inl (by rw [hport]; exact hsettled)) hflight' (by rw [hport, hflags]; exact hdeferred)
      rw [hport, hflags, ← hlast] at hphase
      exact hphase
  | false =>
      obtain ⟨externalPort, configs, heq⟩ := mapping_failure igd lupnp r
      generalize hl : (lupnp.modify r.binding fun port =>
        { port with externalPort := externalPort }) = l at heq
      have hok' : l.state = .ok := by
        rw [← hl]
        exact hok
      have hsent := send_cases (b := r.binding) hsends hok' r.action true
      generalize l.send igd r.binding r.action true = lupnp' at hsent heq
      have hbinding : l.binding r.binding =
          { lupnp.binding r.binding with externalPort := externalPort } := by
        rw [← hl]
        exact lupnp.modify_self r.binding _
      have hflight' : l.flight r.binding = [] := by
        rw [← hl]
        exact hflight
      have hst' : (l.binding r.binding).state = r.action.busy := by
        rw [hbinding]
        exact hst
      have hflags : ∀ x, (l.binding r.binding).deferred x =
          (lupnp.binding r.binding).deferred x := by
        intro x
        rw [hbinding]
        cases x <;> rfl
      rw [Bool.not_false, Bool.true_and]
      cases hsent with
      | busy _ hfalse => exact Bool.noConfusion hfalse
      | deferred hx => exact absurd (hx.symm.trans hst') (opposite_busy_ne _)
      | nothing hx => exact absurd hst' hx
      | exhausted _ _ =>
          have hport : (lupnp.mappingAnswered igd r false).binding r.binding =
              { l.binding r.binding with state := .ko } := by
            rw [heq]
            exact l.put_binding r.binding _
          have hdeferred' : ∀ x, UpnpPortBinding.deferred
            { l.binding r.binding with state := .ko } x =
              (lupnp.binding r.binding).deferred x := by
            intro x
            rw [← hflags]
            cases x <;> rfl
          have hanswered : (lupnp.mappingAnswered igd r false).state = .ok := by
            rw [heq]
            exact hok'
          have hempty : (lupnp.mappingAnswered igd r false).flight r.binding = [] := by
            rw [heq]
            exact hflight'
          have hphase := phase_delayed true hsends hanswered r.action
            (.inr ⟨by rw [hport], rfl⟩) hempty (by rw [hport, hdeferred']; exact hdeferred)
          rw [hport, hdeferred', ← hlast] at hphase
          exact hphase.gave
      | out port _ hport _ hretry' hdeferred' hopposite =>
          have hbusy : (lupnp.mappingAnswered igd r false).binding r.binding = port := by
            rw [heq]
            exact l.sent_binding r.binding r.action port
          have hstate : ((lupnp.mappingAnswered igd r false).binding r.binding).state =
              r.action.busy := by
            rw [hbusy]
            exact hport
          have hdone : answered = lupnp.mappingAnswered igd r false := delayed_busy hstate
          have hnew : (lupnp.mappingAnswered igd r false).flight r.binding =
              [⟨r.action, r.binding, port.externalPort⟩] := by
            rw [heq]
            change (l.sent r.binding r.action port).flight r.binding = _
            rw [sent_flight, hflight']
            rfl
          rw [if_pos hst', hflags] at hopposite
          rw [hdone, hbusy, hnew]
          refine .busy r.action _ hport rfl rfl hretry' ?_ ?_
          · rw [hdeferred', hflags]
            exact hdeferred
          · rw [hopposite]
            exact hlast

theorem SameButConfigs.onlyAt {l l' : UpnpContext} (h : SameButConfigs l l') : OnlyAt b l l' := by
  obtain ⟨configs, rfl⟩ := h
  exact ⟨rfl, fun _ _ => rfl, fun _ _ => rfl⟩

theorem onlyAt_send (hsends : ∀ n, igd.result n = 0) (action : IgdAction) (retry : Bool) :
    OnlyAt b lupnp (lupnp.send igd b action retry) := by
  by_cases hok : lupnp.state = .ok
  · exact (send_cases hsends hok action retry).onlyAt
  · rw [send_of_not_ok hok]
    exact OnlyAt.refl b lupnp

theorem onlyAt_mappingAnswered (hsends : ∀ n, igd.result n = 0) (r : IgdRequest)
    (success : Bool) : OnlyAt r.binding lupnp (lupnp.mappingAnswered igd r success) := by
  cases success with
  | true =>
      obtain ⟨port, hconfigs, -⟩ := mapping_success igd lupnp r
      exact (lupnp.onlyAt_modify r.binding _).trans hconfigs.onlyAt
  | false =>
      obtain ⟨externalPort, hconfigs⟩ := mapping_failure igd lupnp r
      refine OnlyAt.trans ?_ hconfigs.onlyAt
      exact (lupnp.onlyAt_modify r.binding _).trans (onlyAt_send hsends r.action true)

theorem onlyAt_delayed (hsends : ∀ n, igd.result n = 0) :
    OnlyAt b lupnp (delayed igd lupnp b) := by
  have hremove : OnlyAt b lupnp (lupnp.delayedRemove igd b) := by
    unfold delayedRemove
    dsimp only
    split
    · exact (lupnp.onlyAt_modify b _).trans (onlyAt_send hsends .remove false)
    · split
      · exact lupnp.onlyAt_modify b _
      · exact OnlyAt.refl b lupnp
  refine hremove.trans ?_
  unfold delayed delayedAdd
  dsimp only
  split
  · exact (onlyAt_modify _ b _).trans (onlyAt_send hsends .add false)
  · exact OnlyAt.refl b _

theorem onlyAt_answerDone (lupnp : UpnpContext) (b : BindingId) :
    OnlyAt b lupnp (lupnp.answerDone b) :=
  ⟨rfl, fun _ hb => lupnp.answerDone_ne b hb, fun _ _ => rfl⟩

theorem onlyAt_answer (hsends : ∀ n, igd.result n = 0) (r : IgdRequest) (success : Bool) :
    OnlyAt r.binding lupnp (lupnp.igdAnswer igd r success) := by
  have herase : OnlyAt r.binding lupnp { lupnp with inFlight := lupnp.inFlight.erase r } := by
    exact ⟨rfl, fun _ _ => rfl, fun b' hb => flight_erase_ne hb⟩
  refine herase.trans ((onlyAt_mappingAnswered hsends r success).trans ?_)
  exact (onlyAt_delayed hsends).trans (onlyAt_answerDone _ r.binding)

/-- The answer to a request at the router. -/
theorem phase_answer (hsends : ∀ n, igd.result n = 0) {s : Requested}
    (hok : s.lupnp.state = .ok) {r : IgdRequest}
    (h : Phase r.binding (s.lupnp.binding r.binding) (s.lupnp.flight r.binding) (s.last r.binding)
      (s.gaveUp r.binding)) (hr : r ∈ s.lupnp.inFlight) (success : Bool) :
    let s' := (PortEvent.answer r success).after igd s
    Phase r.binding (s'.lupnp.binding r.binding) (s'.lupnp.flight r.binding) (s'.last r.binding)
      (s'.gaveUp r.binding) := by
  intro s'
  have hmem : r ∈ s.lupnp.flight r.binding := List.mem_filter.mpr ⟨hr, by simp⟩
  obtain ⟨hst, hflight, -, hdeferred, hlast⟩ := h.of_flight hmem
  have hempty : ({ s.lupnp with inFlight := s.lupnp.inFlight.erase r } : UpnpContext).flight
      r.binding = [] := by
    rw [flight_erase, hflight]
    simp
  have hok' : ({ s.lupnp with inFlight := s.lupnp.inFlight.erase r } : UpnpContext).state = .ok :=
    hok
  have hphase := phase_answered hsends hok' r success hst hempty hdeferred hlast
  have hgave : s'.gaveUp r.binding = (!success && (s'.lupnp.flight r.binding).isEmpty) :=
    Function.update_self _ _ _
  have hdone : s'.lupnp = (delayed igd (({ s.lupnp with
      inFlight := s.lupnp.inFlight.erase r } : UpnpContext).mappingAnswered igd r success)
      r.binding).answerDone r.binding := rfl
  rw [hgave, hdone, answerDone_self]
  exact hphase.congr rfl rfl fun x => by cases x <;> rfl

/-! ## Runs that are heard -/

/-- Every binding is in a phase. -/
def Requested.Phased (s : Requested) : Prop :=
  s.lupnp.state = .ok ∧
    ∀ b, Phase b (s.lupnp.binding b) (s.lupnp.flight b) (s.last b) (s.gaveUp b)

theorem phased_fresh {s : Requested} (h : s.Fresh) : s.Phased := by
  refine ⟨h.ok, fun b => ?_⟩
  have hflight : s.lupnp.flight b = [] := by
    unfold UpnpContext.flight
    rw [h.quiet]
    rfl
  have hlast : ∀ x, s.last b ≠ some x := by
    intro x
    rw [h.last b]
    exact nofun
  rcases h.settled b with hst | hst
  · exact .settled .remove hst hflight (deferred_eq_false (h.flags b)) (hlast _)
  · exact .settled .add hst hflight (deferred_eq_false (h.flags b)) (hlast _)

/-- An event that is heard keeps every binding in a phase. -/
theorem phased_step (hsends : ∀ n, igd.result n = 0) {s : Requested} {e : PortEvent}
    (h : s.Phased) (henabled : e.Enabled s) (hheard : e.Heard s) : (e.after igd s).Phased := by
  obtain ⟨hok, hphase⟩ := h
  cases e with
  | request b action =>
      have honly : OnlyAt b s.lupnp (s.lupnp.send igd b action false) :=
        onlyAt_send hsends action false
      refine ⟨honly.state.trans hok, fun b' => ?_⟩
      by_cases hb : b' = b
      · subst hb
        have hnew := phase_request hsends hok action (hphase b') hheard
        simp only [PortEvent.after, Function.update_self]
        exact hnew
      · simp only [PortEvent.after]
        rw [honly.binding b' hb, honly.flight b' hb, Function.update_of_ne hb]
        exact hphase b'
  | answer r success =>
      have honly : OnlyAt r.binding s.lupnp (s.lupnp.igdAnswer igd r success) :=
        onlyAt_answer hsends r success
      refine ⟨honly.state.trans hok, fun b' => ?_⟩
      by_cases hb : b' = r.binding
      · subst hb
        exact phase_answer hsends hok (hphase r.binding) henabled success
      · simp only [PortEvent.after]
        rw [honly.binding b' hb, honly.flight b' hb, Function.update_of_ne hb]
        exact hphase b'

/-- **The last request wins.** In every run of requests and answers that are heard, while requests
can be sent, every binding with nothing at the router is where its last request wants it, unless
its last retry was exhausted. -/
theorem settles_of_run (hsends : ∀ n, igd.result n = 0) {s₀ s : Requested} (hfresh : s₀.Fresh)
    (h : PortRun igd PortEvent.Heard s₀ s) : ∀ b, Settles s b := by
  have hphased : s.Phased := by
    induction h with
    | start => exact phased_fresh hfresh
    | step e _ henabled hheard ih => exact phased_step hsends ih henabled hheard
  intro b hflight hgave action hlast
  exact (hphased.2 b).settles hflight hgave hlast

end steps

/-! ## A removal that is not countermanded -/

/-- A router that takes every request. -/
def acceptingIgd : Igd := ⟨fun _ => 0, fun _ => 0⟩

/-- A context with the binding of one SIP port. -/
def sipPort : Requested where
  lupnp :=
    { state := .ok, deviceId := some "device".toList, created := 1, owned := [(.sipUdp, 0)]
      binding := fun _ => { localPort := 5060, externalPort := 5060 } }

theorem sipPort_fresh : sipPort.Fresh :=
  ⟨rfl, rfl, fun _ => .inl rfl, fun _ => ⟨rfl, rfl⟩, fun _ => rfl⟩

/-- A run over a list of events. -/
def afterEvents (igd : Igd) (s : Requested) (events : List PortEvent) : Requested :=
  events.foldl (fun s e => e.after igd s) s

/-- The port is added. -/
theorem settles_sipPort : Settles (afterEvents acceptingIgd sipPort
    [.request 0 .add, .answer ⟨.add, 0, 5060⟩ true]) 0 :=
  settles_of_run (fun _ => rfl) sipPort_fresh
    (.step (.answer ⟨.add, 0, 5060⟩ true)
      (.step (.request 0 .add) .start trivial (fun h => absurd h.2 (by decide)))
        (by decide) trivial) 0

/-- Add, remove and add again before the router answers: the binding is removed. -/
theorem countermand_lost :
    ¬∀ igd : Igd, (∀ n, igd.result n = 0) → ∀ s₀ s : Requested, s₀.Fresh →
      PortRun igd (fun _ _ => True) s₀ s → ∀ b, Settles s b := by
  intro h
  have hsettles := h acceptingIgd (fun _ => rfl) sipPort _ sipPort_fresh
    (.step (.answer ⟨.remove, 0, 5060⟩ true)
      (.step (.answer ⟨.add, 0, 5060⟩ true)
        (.step (.request 0 .add)
          (.step (.request 0 .remove) (.step (.request 0 .add) .start trivial trivial) trivial
            trivial) trivial trivial) (by decide) trivial) (by decide) trivial) 0
  have hadded := hsettles (by decide) (by decide) .add (by decide)
  exact absurd hadded.1 (by decide)

end Linphone
