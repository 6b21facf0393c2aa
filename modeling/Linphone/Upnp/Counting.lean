import Linphone.Upnp.Requests
import Linphone.Upnp.Updates
import Mathlib.Data.List.Count
import Mathlib.Data.List.Induction

/-!
# Pending bindings and references

`accounted_of_run`: as long as every request can be sent, failures are answered while the context
is Ok, and owners keep their bindings until the end of their session, the pending bindings are the
requests at the router, references are owners and pending entries, a binding is busy only with a
request at the router, and the wait of `linphone_upnp_context_destroy` is over when nothing is
there. `refused_pends`: a request that could not be sent stays pending.

The invariant is `Sound`. Within a step, `held` are the references of the code that runs, `extra`
the pending entries of an answer that is being handled.
-/

namespace Linphone

open UpnpContext

/-! ## The invariant -/

/-- How often a binding is owned. -/
def UpnpContext.owners (l : UpnpContext) (b : BindingId) : Nat := (l.owned.map Prod.snd).count b

structure Counted (held extra : List BindingId) (l : UpnpContext) : Prop where
  pending : ∀ b, l.pendingBindings.count b = (l.flight b).length + extra.count b
  refs : ∀ b < l.created, (l.binding b).ref =
    ((l.owners b + l.pendingBindings.count b + held.count b : Nat) : Int)
  known : ∀ b, b ∈ l.pendingBindings ∨ b ∈ held ∨ b ∈ l.owned.map Prod.snd → b < l.created

/-- A binding that is busy has such a request at the router. -/
def Awaits (l : UpnpContext) (b : BindingId) (action : IgdAction) : Prop :=
  (l.binding b).state = action.busy → ∃ r ∈ l.flight b, r.action = action

structure Sound (held : List BindingId) (l : UpnpContext) : Prop where
  counted : Counted held [] l
  awaits : ∀ b action, Awaits l b action

section counted

variable {l : UpnpContext} {b : BindingId} {held extra : List BindingId} {owner : UpnpOwner}

theorem Counted.congr {held' : List BindingId} (h : Counted held extra l)
    (hperm : held.Perm held') :
    Counted held' extra l where
  pending := h.pending
  refs := fun b hb => by rw [h.refs b hb, hperm.count_eq]
  known := fun b hb => h.known b (by rwa [hperm.mem_iff])

theorem counted_modify (h : Counted held extra l) {f : UpnpPortBinding → UpnpPortBinding}
    (hf : (f (l.binding b)).ref = (l.binding b).ref) : Counted held extra (l.modify b f) where
  pending := h.pending
  refs := fun b' hb' => by
    by_cases hb : b' = b
    · subst hb
      rw [modify_self, hf]
      exact h.refs b' hb'
    · rw [modify_ne _ _ _ hb]
      exact h.refs b' hb'
  known := h.known

theorem counted_sent (h : Counted held extra l) (hb : b < l.created) {action : IgdAction}
    {port : UpnpPortBinding} (href : port.ref = (l.binding b).ref + 1) :
    Counted held extra (l.sent b action port) where
  pending := fun b' => by
    change (l.pendingBindings ++ [b]).count b' = _
    rw [List.count_append, h.pending b']
    by_cases hb' : b' = b
    · subst hb'
      rw [sent_flight, List.length_append]
      simp
      omega
    · rw [(onlyAt_sent l b action port).flight b' hb', List.count_singleton, if_neg]
      · rfl
      · simpa using fun heq => hb' heq.symm
  refs := fun b' hb' => by
    change _ = ((l.owners b' + (l.pendingBindings ++ [b]).count b' + held.count b' : Nat) : Int)
    rw [List.count_append]
    by_cases heq : b' = b
    · subst heq
      rw [sent_binding, href, h.refs b' hb']
      simp
      omega
    · rw [(onlyAt_sent l b action port).binding b' heq, h.refs b' hb', List.count_singleton, if_neg]
      · rfl
      · simpa using fun heq' => heq heq'.symm
  known := fun b' hb' => by
    rcases hb' with hpending | hrest
    · rcases List.mem_append.mp hpending with hpending | hpending
      · exact h.known b' (.inl hpending)
      · rw [List.mem_singleton.mp hpending]
        exact hb
    · exact h.known b' (.inr hrest)

/-- A request, in whatever way it ends. -/
theorem Sent.counted {action : IgdAction} {retry : Bool} {l' : UpnpContext}
    (hsent : Sent l b action retry l') (h : Counted held extra l) (hb : b < l.created) :
    Counted held extra l' := by
  cases hsent with
  | busy => exact h
  | deferred | nothing => exact counted_modify h (by simp)
  | exhausted => exact counted_modify h rfl
  | out port _ _ href => exact counted_sent h hb href

theorem Sent.created {action : IgdAction} {retry : Bool} {l' : UpnpContext}
    (hsent : Sent l b action retry l') : l'.created = l.created := by
  cases hsent <;> rfl

theorem counted_release (h : Counted (b :: held) extra l) : Counted held extra (l.release b) where
  pending := h.pending
  refs := fun b' hb' => by
    have hrefs := h.refs b' hb'
    rw [List.count_cons] at hrefs
    by_cases heq : b' = b
    · subst heq
      have hbinding : (l.release b').binding b' =
          { l.binding b' with ref := (l.binding b').ref - 1 } := modify_self _ _ _
      rw [hbinding]
      change (l.binding b').ref - 1 = ((l.owners b' + l.pendingBindings.count b' + held.count b' :
        Nat) : Int)
      rw [hrefs]
      simp
      omega
    · have hbinding : (l.release b).binding b' = l.binding b' := modify_ne _ _ _ heq
      have hne : ¬(b == b') = true := by simpa using fun heq' => heq heq'.symm
      rw [if_neg hne] at hrefs
      rw [hbinding]
      exact hrefs
  known := fun b' hb' => h.known b' (by
    rcases hb' with hb' | hb' | hb'
    · exact .inl hb'
    · exact .inr (.inl (List.mem_cons_of_mem b hb'))
    · exact .inr (.inr hb'))

theorem counted_retain (h : Counted held extra l) (hb : b < l.created) :
    Counted (b :: held) extra (l.retain b) where
  pending := h.pending
  refs := fun b' hb' => by
    have hrefs := h.refs b' hb'
    change ((l.retain b).binding b').ref = ((l.owners b' + l.pendingBindings.count b' +
      (b :: held).count b' : Nat) : Int)
    rw [List.count_cons]
    by_cases heq : b' = b
    · subst heq
      have hbinding : (l.retain b').binding b' =
          { l.binding b' with ref := (l.binding b').ref + 1 } := modify_self _ _ _
      rw [hbinding]
      change (l.binding b').ref + 1 = _
      rw [hrefs]
      simp
      omega
    · have hbinding : (l.retain b).binding b' = l.binding b' := modify_ne _ _ _ heq
      have hne : ¬(b == b') = true := by simpa using fun heq' => heq heq'.symm
      rw [if_neg hne, hbinding]
      exact hrefs
  known := fun b' hb' => by
    rcases hb' with hb' | hb' | hb'
    · exact h.known b' (.inl hb')
    · rcases List.mem_cons.mp hb' with rfl | hb'
      · exact hb
      · exact h.known b' (.inr (.inl hb'))
    · exact h.known b' (.inr (.inr hb'))

theorem counted_create (h : Counted held extra l) {port : UpnpPortBinding} (href : port.ref = 1) :
    Counted (l.created :: held) extra (l.create port) where
  pending := h.pending
  refs := fun b' hb' => by
    change ((l.create port).binding b').ref = ((l.owners b' + l.pendingBindings.count b' +
      (l.created :: held).count b' : Nat) : Int)
    rw [List.count_cons]
    by_cases heq : b' = l.created
    · subst heq
      have hnot : ∀ list : List BindingId, (∀ b ∈ list, b < l.created) →
          list.count l.created = 0 :=
        fun list hlist => List.count_eq_zero_of_not_mem fun hmem =>
          absurd (hlist _ hmem) (Nat.lt_irrefl _)
      have howners : l.owners l.created = 0 := hnot _ fun b hb => h.known b (.inr (.inr hb))
      have hbinding : (l.create port).binding l.created = port := put_binding _ _ _
      rw [hbinding, href, howners, hnot _ fun b hb => h.known b (.inl hb),
        hnot _ fun b hb => h.known b (.inr (.inl hb))]
      simp
    · have hbinding : (l.create port).binding b' = l.binding b' :=
        modify_ne l l.created (fun _ => port) heq
      have hne : ¬(l.created == b') = true := by simpa using fun heq' => heq heq'.symm
      have hlt : b' < l.created := Nat.lt_of_le_of_ne (Nat.lt_succ_iff.mp hb') heq
      rw [if_neg hne, hbinding]
      exact h.refs b' hlt
  known := fun b' hb' => by
    change b' < l.created + 1
    rcases hb' with hb' | hb' | hb'
    · exact Nat.lt_succ_of_lt (h.known b' (.inl hb'))
    · rcases List.mem_cons.mp hb' with rfl | hb'
      · exact Nat.lt_succ_self _
      · exact Nat.lt_succ_of_lt (h.known b' (.inr (.inl hb')))
    · exact Nat.lt_succ_of_lt (h.known b' (.inr (.inr hb')))

theorem counted_setSlot (h : Counted (b :: held) extra l) :
    Counted held extra (l.setSlot b owner) where
  pending := h.pending
  refs := fun b' hb' => by
    have hrefs := h.refs b' hb'
    have howners : (l.setSlot b owner).owners b' = l.owners b' + [b].count b' := by
      simp [UpnpContext.owners, setSlot, List.count_append]
    rw [howners]
    change (l.binding b').ref = _
    rw [hrefs, ← List.singleton_append, List.count_append]
    congr 1
    change _ = l.owners b' + [b].count b' + l.pendingBindings.count b' + held.count b'
    omega
  known := fun b' hb' => by
    rcases hb' with hb' | hb' | hb'
    · exact h.known b' (.inl hb')
    · exact h.known b' (.inr (.inl (List.mem_cons_of_mem b hb')))
    · have hmem : b' ∈ l.owned.map Prod.snd ∨ b' = b := by simpa [setSlot] using hb'
      rcases hmem with hmem | rfl
      · exact h.known b' (.inr (.inr hmem))
      · exact h.known b' (.inr (.inl (by simp)))

/-- The slot of an owner is one of its references. -/
theorem slot_perm (hslot : l.slot owner = some b) :
    (l.owned.map Prod.snd).Perm (b :: (l.clearSlot owner).owned.map Prod.snd) := by
  obtain ⟨⟨o, b'⟩, hfind, rfl⟩ := Option.map_eq_some_iff.mp hslot
  have hmem := List.mem_of_find?_eq_some hfind
  have hp := List.find?_some hfind
  obtain ⟨a, l₁, l₂, hnone, ha, heq, herase⟩ := List.exists_of_eraseP
    (p := fun x => x.1 = owner) hmem hp
  have hfind' : l.owned.find? (·.1 = owner) = some a := by
    rw [heq, List.find?_append, List.find?_eq_none.mpr hnone, Option.none_or]
    exact List.find?_cons_of_pos ha
  obtain rfl := Option.some.inj (hfind'.symm.trans hfind)
  have hclear : (l.clearSlot owner).owned = l₁ ++ l₂ := herase
  rw [hclear, heq]
  simp

theorem counted_clearSlot (h : Counted held extra l) (hslot : l.slot owner = some b) :
    Counted (b :: held) extra (l.clearSlot owner) where
  pending := h.pending
  refs := fun b' hb' => by
    have howners : l.owners b' = (b :: (l.clearSlot owner).owned.map Prod.snd).count b' :=
      (slot_perm hslot).count_eq b'
    change (l.binding b').ref = _
    rw [h.refs b' hb', howners, ← List.singleton_append, List.count_append,
      ← List.singleton_append (l := held), List.count_append]
    congr 1
    change _ = (l.clearSlot owner).owners b' + l.pendingBindings.count b' + _
    unfold UpnpContext.owners
    omega
  known := fun b' hb' => by
    rcases hb' with hb' | hb' | hb'
    · exact h.known b' (.inl hb')
    · rcases List.mem_cons.mp hb' with rfl | hb'
      · exact h.known b' (.inr (.inr ((slot_perm hslot).mem_iff.mpr (by simp))))
      · exact h.known b' (.inr (.inl hb'))
    · exact h.known b' (.inr (.inr ((slot_perm hslot).mem_iff.mpr (List.mem_cons_of_mem b hb'))))

theorem lt_of_slot (h : Counted held extra l) (hslot : l.slot owner = some b) : b < l.created :=
  h.known b (.inr (.inr ((slot_perm hslot).mem_iff.mpr (by simp))))

/-- A request that is answered leaves its pending entry to the callback. -/
theorem counted_erase {r : IgdRequest} (h : Counted held [] l) (hr : r ∈ l.inFlight) :
    Counted held [r.binding] { l with inFlight := l.inFlight.erase r } where
  pending := fun b => by
    change l.pendingBindings.count b = _
    rw [h.pending b]
    by_cases hb : b = r.binding
    · subst hb
      have hmem : r ∈ l.flight r.binding := List.mem_filter.mpr ⟨hr, by simp⟩
      have hpos := List.length_pos_of_mem hmem
      rw [flight_erase, List.length_erase_of_mem hmem]
      simp
      omega
    · have hne : ¬(r.binding == b) = true := by simpa using fun heq => hb heq.symm
      rw [flight_erase_ne hb, List.count_singleton, if_neg hne]
      rfl
  refs := h.refs
  known := h.known

theorem counted_answerDone (h : Counted held [b] l) : Counted held [] (l.answerDone b) := by
  have hpos : 0 < l.pendingBindings.count b := by
    rw [h.pending b]
    simp
  have hmem : b ∈ l.pendingBindings := List.count_pos_iff.mp hpos
  have hunheld : Counted (b :: held) [] { l with
      pendingBindings := l.pendingBindings.erase b } := by
    refine ⟨fun b' => ?_, fun b' hb' => ?_, fun b' hb' => ?_⟩
    · have hpending := h.pending b'
      change (l.pendingBindings.erase b).count b' = (l.flight b').length + 0
      by_cases heq : b' = b
      · subst heq
        rw [List.count_erase_self, hpending]
        simp
      · have hne : ¬(b == b') = true := by simpa using fun heq' => heq heq'.symm
        rw [List.count_erase_of_ne heq, hpending, List.count_singleton, if_neg hne]
    · change (l.binding b').ref = ((l.owners b' + (l.pendingBindings.erase b).count b' +
        (b :: held).count b' : Nat) : Int)
      rw [h.refs b' hb', List.count_cons]
      congr 1
      by_cases heq : b' = b
      · subst heq
        rw [List.count_erase_self]
        simp
        omega
      · have hne : ¬(b == b') = true := by simpa using fun heq' => heq heq'.symm
        rw [List.count_erase_of_ne heq, if_neg hne, Nat.add_zero]
    · rcases hb' with hb' | hb' | hb'
      · exact h.known b' (.inl (List.mem_of_mem_erase hb'))
      · rcases List.mem_cons.mp hb' with rfl | hb'
        · exact h.known b' (.inl hmem)
        · exact h.known b' (.inr (.inl hb'))
      · exact h.known b' (.inr (.inr hb'))
  exact counted_release hunheld

end counted

/-! ## What is awaited -/

section awaits

variable {igd : Igd} {l l' : UpnpContext} {b : BindingId} {action : IgdAction} {retry : Bool}
  {held extra : List BindingId}

theorem awaits_of_idle (h : ∀ x : IgdAction, (l.binding b).state ≠ x.busy) (x : IgdAction) :
    Awaits l b x :=
  fun hst => absurd hst (h x)

theorem Awaits.congr (h : Awaits l b action) (hst : (l'.binding b).state = (l.binding b).state)
    (hflight : l'.flight b = l.flight b) : Awaits l' b action := by
  intro hbusy
  rw [hflight]
  exact h (hst.symm.trans hbusy)

theorem eq_opposite_of_ne {x y : IgdAction} (h : x ≠ y) : x = y.opposite := by
  cases x <;> cases y <;> first | rfl | exact absurd rfl h

/-- After a request, the binding awaits what it is busy with. A retry does not count on the request
that it repeats. -/
theorem Sent.awaits (hsent : Sent l b action retry l') (hopposite : Awaits l b action.opposite)
    (hsame : retry = true ∨ Awaits l b action) (x : IgdAction) : Awaits l' b x := by
  have hput : ∀ port : UpnpPortBinding, port.state = (l.binding b).state →
      (l.binding b).state ≠ action.busy → Awaits (l.put b port) b x := by
    intro port hst hne
    by_cases hx : x = action
    · refine fun hbusy => absurd ?_ hne
      rw [put_binding, hst, hx] at hbusy
      exact hbusy
    · rw [eq_opposite_of_ne hx]
      exact hopposite.congr (by rw [put_binding]; exact hst) rfl
  cases hsent with
  | busy hst hretry =>
      by_cases hx : x = action
      · rw [hx]
        exact hsame.resolve_left (by simp [hretry])
      · rw [eq_opposite_of_ne hx]
        exact hopposite
  | deferred hst =>
      refine hput _ (by simp) fun hbusy => ?_
      have heq := busy_inj (hst.symm.trans hbusy)
      cases action <;> exact IgdAction.noConfusion heq
  | nothing hne => exact hput _ (by simp) hne
  | exhausted =>
      refine awaits_of_idle (fun y => ?_) x
      rw [put_binding]
      exact ko_ne_busy y
  | out port _ hst =>
      intro hbusy
      rw [sent_binding, hst] at hbusy
      rw [sent_flight]
      exact ⟨⟨action, b, port.externalPort⟩, by simp, busy_inj hbusy⟩

theorem UpnpContext.OnlyAt.awaits {b' : BindingId} (h : OnlyAt b l l') (hb : b' ≠ b)
    (hawaits : Awaits l b' action) : Awaits l' b' action :=
  hawaits.congr (by rw [h.binding b' hb]) (h.flight b' hb)

/-! ## One request -/

/-- A binding in the middle of a step, with what the step still owes. -/
structure SoundAt (held extra : List BindingId) (l : UpnpContext) (b : BindingId) : Prop where
  counted : Counted held extra l
  awaits : ∀ x, Awaits l b x
  created : b < l.created

theorem soundAt_send (hsends : ∀ n, igd.result n = 0) (h : SoundAt held extra l b)
    (action : IgdAction) (retry : Bool) : SoundAt held extra (l.send igd b action retry) b := by
  by_cases hok : l.state = .ok
  · have hsent : Sent l b action retry (l.send igd b action retry) := send_cases hsends hok _ _
    refine ⟨hsent.counted h.counted h.created, fun x => ?_, ?_⟩
    · exact hsent.awaits (h.awaits _) (.inr (h.awaits action)) x
    · rw [hsent.created]
      exact h.created
  · rw [send_of_not_ok hok]
    exact h

theorem soundAt_modify (h : SoundAt held extra l b) {f : UpnpPortBinding → UpnpPortBinding}
    (href : (f (l.binding b)).ref = (l.binding b).ref)
    (hst : (f (l.binding b)).state = (l.binding b).state ∨
      ∀ x : IgdAction, (f (l.binding b)).state ≠ x.busy) :
    SoundAt held extra (l.modify b f) b := by
  refine ⟨counted_modify h.counted href, fun x => ?_, h.created⟩
  rcases hst with hst | hst
  · exact (h.awaits x).congr (by rw [modify_self]; exact hst) rfl
  · refine awaits_of_idle (fun y => ?_) x
    rw [modify_self]
    exact hst y

theorem soundAt_configs {l' : UpnpContext} (h : SoundAt held extra l b)
    (hsame : SameButConfigs l l') :
    SoundAt held extra l' b := by
  obtain ⟨configs, rfl⟩ := hsame
  exact ⟨⟨h.counted.pending, h.counted.refs, h.counted.known⟩, h.awaits, h.created⟩

theorem soundAt_delayed (hsends : ∀ n, igd.result n = 0) (h : SoundAt held extra l b) :
    SoundAt held extra (delayed igd l b) b := by
  have hremove : SoundAt held extra (l.delayedRemove igd b) b := by
    unfold delayedRemove
    dsimp only
    split
    · exact soundAt_send hsends (soundAt_modify h rfl (.inl rfl)) .remove false
    · split
      · exact soundAt_modify h rfl (.inl rfl)
      · exact h
  unfold delayed delayedAdd
  dsimp only
  split
  · exact soundAt_send hsends (soundAt_modify hremove rfl (.inl rfl)) .add false
  · exact hremove

theorem Sound.at (h : Sound held l) (hb : b < l.created) : SoundAt held [] l b :=
  ⟨h.counted, h.awaits b, hb⟩

theorem sound_of_onlyAt (h : Sound held l) (honly : OnlyAt b l l') (hat : SoundAt held [] l' b) :
    Sound held l' := by
  refine ⟨hat.counted, fun b' x => ?_⟩
  by_cases hb : b' = b
  · subst hb
    exact hat.awaits x
  · exact honly.awaits hb (h.awaits b' x)

theorem sound_send (hsends : ∀ n, igd.result n = 0) (h : Sound held l) (hb : b < l.created)
    (action : IgdAction) (retry : Bool) : Sound held (l.send igd b action retry) :=
  sound_of_onlyAt h (onlyAt_send hsends action retry) (soundAt_send hsends (h.at hb) action retry)

theorem created_send (hsends : ∀ n, igd.result n = 0) (action : IgdAction) (retry : Bool) :
    (l.send igd b action retry).created = l.created := by
  by_cases hok : l.state = .ok
  · exact (send_cases hsends hok action retry).created
  · rw [send_of_not_ok hok]

theorem sound_modify (h : Sound held l) (hb : b < l.created) {f : UpnpPortBinding → UpnpPortBinding}
    (href : (f (l.binding b)).ref = (l.binding b).ref)
    (hst : (f (l.binding b)).state = (l.binding b).state ∨
      ∀ x : IgdAction, (f (l.binding b)).state ≠ x.busy) : Sound held (l.modify b f) :=
  sound_of_onlyAt h (onlyAt_modify l b f) (soundAt_modify (h.at hb) href hst)

/-! ## Answers -/

/-- A failure that can be handled: while the context is Ok, or when the binding does not wait for
this request. -/
def Handled (l : UpnpContext) (r : IgdRequest) : Prop :=
  l.state = .ok ∨ (l.binding r.binding).state ≠ r.action.busy ∨
    ∃ r' ∈ l.inFlight.erase r, r'.binding = r.binding ∧ r'.action = r.action

theorem awaits_erase {r : IgdRequest} (h : ∀ x, Awaits l r.binding x) {x : IgdAction}
    (hx : x ≠ r.action) :
    Awaits { l with inFlight := l.inFlight.erase r } r.binding x := by
  intro hbusy
  obtain ⟨r', hr', haction⟩ := h x hbusy
  have hne : r' ≠ r := fun heq => hx (heq ▸ haction).symm
  refine ⟨r', ?_, haction⟩
  rw [flight_erase]
  exact (List.mem_erase_of_ne hne).mpr hr'

theorem awaits_answerDone (h : Awaits l b action) : Awaits (l.answerDone b) b action :=
  h.congr (by rw [answerDone_self]) rfl

/-- The events of the callback. -/
theorem soundAt_mappingAnswered (hsends : ∀ n, igd.result n = 0) {r : IgdRequest} {success : Bool}
    (hcounted : Counted held extra l) (hb : r.binding < l.created)
    (hothers : ∀ x ≠ r.action, Awaits l r.binding x)
    (hhandled : success = false → l.state = .ok ∨ Awaits l r.binding r.action) :
    SoundAt held extra (l.mappingAnswered igd r success) r.binding := by
  cases success with
  | true =>
      obtain ⟨port, hconfigs, hsettled, href, -⟩ := mapping_success igd l r
      refine soundAt_configs ⟨counted_modify hcounted href, awaits_of_idle fun x => ?_, hb⟩ hconfigs
      rw [modify_self, hsettled]
      exact settled_ne_busy r.action x
  | false =>
      obtain ⟨externalPort, hconfigs⟩ := mapping_failure igd l r
      refine soundAt_configs ?_ hconfigs
      generalize hl : (l.modify r.binding fun port =>
        { port with externalPort := externalPort }) = l₁
      have hcounted₁ : Counted held extra l₁ := hl ▸ counted_modify hcounted rfl
      have hb₁ : r.binding < l₁.created := hl ▸ hb
      have hkept : ∀ x, Awaits l r.binding x → Awaits l₁ r.binding x := by
        intro x hx
        rw [← hl]
        exact hx.congr (by rw [modify_self]) rfl
      by_cases hok : l₁.state = .ok
      · have hsent : Sent l₁ r.binding r.action true (l₁.send igd r.binding r.action true) :=
          send_cases hsends hok _ _
        refine ⟨hsent.counted hcounted₁ hb₁, fun x => ?_, hsent.created ▸ hb₁⟩
        have hopposite : r.action.opposite ≠ r.action := by
          cases r.action <;> decide
        exact hsent.awaits (hkept _ (hothers _ hopposite)) (.inl rfl) x
      · rw [send_of_not_ok hok]
        have hstate : l.state ≠ .ok := by
          rw [← hl] at hok
          exact hok
        refine ⟨hcounted₁, fun x => hkept x ?_, hb₁⟩
        by_cases hx : x = r.action
        · rw [hx]
          exact (hhandled rfl).resolve_left hstate
        · exact hothers x hx

/-- **`linphone_upnp_igd_callback`**, for the answer to a request at the router. -/
theorem sound_answer (hsends : ∀ n, igd.result n = 0) (h : Sound held l) {r : IgdRequest}
    (hr : r ∈ l.inFlight) {success : Bool} (hhandled : success = false → Handled l r) :
    Sound held (l.igdAnswer igd r success) := by
  have hmem : r ∈ l.flight r.binding := List.mem_filter.mpr ⟨hr, by simp⟩
  have hb : r.binding < l.created := by
    refine h.counted.known r.binding (.inl (List.count_pos_iff.mp ?_))
    rw [h.counted.pending r.binding]
    exact Nat.lt_add_right _ (List.length_pos_of_mem hmem)
  have hothers : ∀ x ≠ r.action,
      Awaits { l with inFlight := l.inFlight.erase r } r.binding x :=
    fun x hx => awaits_erase (h.awaits r.binding) hx
  have hkept : success = false → l.state = .ok ∨
      Awaits { l with inFlight := l.inFlight.erase r } r.binding r.action := by
    intro hfailure
    rcases hhandled hfailure with hok | hne | ⟨r', hr', hbinding, haction⟩
    · exact .inl hok
    · exact .inr fun hbusy => absurd hbusy hne
    · refine .inr fun _ => ⟨r', List.mem_filter.mpr ⟨hr', ?_⟩, haction⟩
      simpa using hbinding
  have hanswered := soundAt_mappingAnswered hsends (counted_erase h.counted hr) hb hothers hkept
  have hdelayed := soundAt_delayed hsends hanswered
  refine sound_of_onlyAt h (onlyAt_answer hsends r success)
    ⟨counted_answerDone hdelayed.counted, fun x => awaits_answerDone (hdelayed.awaits x),
      hdelayed.created⟩

/-! ## Owners -/

variable {owner : UpnpOwner}

theorem Sound.congr {held' : List BindingId} (h : Sound held l) (hperm : held.Perm held') :
    Sound held' l :=
  ⟨h.counted.congr hperm, h.awaits⟩

theorem sound_create (h : Sound held l) {port : UpnpPortBinding} (href : port.ref = 1)
    (hst : ∀ x : IgdAction, port.state ≠ x.busy) : Sound (l.created :: held) (l.create port) := by
  refine ⟨counted_create h.counted href, fun b x => ?_⟩
  by_cases hb : b = l.created
  · subst hb
    refine awaits_of_idle (fun y => ?_) x
    have hbinding : (l.create port).binding l.created = port := put_binding _ _ _
    rw [hbinding]
    exact hst y
  · have hbinding : (l.create port).binding b = l.binding b :=
      modify_ne l l.created (fun _ => port) hb
    exact (h.awaits b x).congr (by rw [hbinding]) rfl

theorem sound_retain (h : Sound held l) (hb : b < l.created) : Sound (b :: held) (l.retain b) := by
  refine ⟨counted_retain h.counted hb, fun b' x => ?_⟩
  by_cases hb' : b' = b
  · subst hb'
    have hst : ((l.retain b').binding b').state = (l.binding b').state := by
      rw [UpnpContext.retain, modify_self]
    exact (h.awaits b' x).congr hst rfl
  · exact (onlyAt_modify l b _).awaits hb' (h.awaits b' x)

theorem sound_release (h : Sound (b :: held) l) : Sound held (l.release b) := by
  refine ⟨counted_release h.counted, fun b' x => ?_⟩
  by_cases hb' : b' = b
  · subst hb'
    have hst : ((l.release b').binding b').state = (l.binding b').state := by
      rw [UpnpContext.release, modify_self]
    exact (h.awaits b' x).congr hst rfl
  · exact (onlyAt_modify l b _).awaits hb' (h.awaits b' x)

/-- A binding that is collected, or a new one. -/
theorem sound_newOrCollect (h : Sound held l) (protocol : UpnpIgdIpProtocol)
    (localPort externalPort : Int) :
    Sound ((l.newOrCollect protocol localPort externalPort).1 :: held)
      (l.newOrCollect protocol localPort externalPort).2 := by
  have hnew : ∀ port : UpnpPortBinding, port.ref = 1 → port.state = .idle →
      Sound (l.created :: held) (l.create port) := by
    intro port href hst
    refine sound_create h href fun x => ?_
    rw [hst]
    exact settled_ne_busy .remove x
  unfold newOrCollect
  dsimp only
  split
  · rename_i b hfind
    split
    · exact sound_retain h (h.counted.known b (.inl (List.mem_of_find?_eq_some hfind)))
    · exact hnew _ rfl rfl
  · exact hnew _ rfl rfl

theorem sound_hold (h : Sound [] l) (owner : UpnpOwner) (protocol : UpnpIgdIpProtocol)
    (port : Int) :
    Sound [] (l.hold owner protocol port).2 ∧
      (l.hold owner protocol port).1 < (l.hold owner protocol port).2.created := by
  unfold hold
  cases hslot : l.slot owner with
  | some b => exact ⟨h, lt_of_slot h.counted hslot⟩
  | none =>
      have hnew := sound_newOrCollect h protocol port port
      exact ⟨⟨counted_setSlot hnew.counted, hnew.awaits⟩,
        hnew.counted.known _ (.inr (.inl (by simp)))⟩

theorem sound_setAddresses (hsends : ∀ n, igd.result n = 0) (env : UpnpNow) (h : Sound [] l)
    (hb : b < l.created) :
    Sound [] (l.setAddresses igd env b) ∧ b < (l.setAddresses igd env b).created := by
  have hlocal : ∀ addr : String, Sound [] (if (l.binding b).localAddr ≠ addr then
        (l.send igd b .remove false).modify b fun port => { port with localAddr := addr }
      else l) ∧ b < (if (l.binding b).localAddr ≠ addr then
        (l.send igd b .remove false).modify b fun port => { port with localAddr := addr }
      else l).created := by
    intro addr
    split
    · have hlt : b < (l.send igd b .remove false).created := by
        rw [created_send hsends]
        exact hb
      exact ⟨sound_modify (sound_send hsends h hb _ _) hlt rfl (.inl rfl), hlt⟩
    · exact ⟨h, hb⟩
  unfold setAddresses
  cases env.localAddr with
  | none =>
      cases env.externalAddr with
      | none => exact ⟨h, hb⟩
      | some addr => exact ⟨sound_modify h hb rfl (.inl rfl), hb⟩
  | some addr =>
      obtain ⟨hsound, hlt⟩ := hlocal addr
      cases env.externalAddr with
      | none => exact ⟨hsound, hlt⟩
      | some addr' => exact ⟨sound_modify hsound hlt rfl (.inl rfl), hlt⟩

theorem sound_addAgain (hsends : ∀ n, igd.result n = 0) (env : UpnpNow) (h : Sound [] l)
    (hb : b < l.created) (retryDelay : Int) : Sound [] (l.addAgain igd env b retryDelay) := by
  unfold addAgain
  split
  · exact sound_send hsends (sound_modify h hb rfl (.inl rfl)) hb .add false
  · exact h

/-- **`linphone_upnp_update_port_binding`**, for an owner that keeps its binding. -/
theorem sound_updatePortBinding (hsends : ∀ n, igd.result n = 0) (env : UpnpNow) (h : Sound [] l)
    (protocol : UpnpIgdIpProtocol) {port : Int} (retryDelay : Int)
    (hkeeps : ∀ b, l.slot owner = some b → port ≠ 0 ∧ port = (l.binding b).localPort) :
    Sound [] (l.updatePortBinding igd env owner protocol port retryDelay) := by
  unfold updatePortBinding
  split
  · have hreplace : l.replace igd owner port = l := by
      unfold UpnpContext.replace
      split
      · rename_i b hslot
        exact if_neg (not_not_intro (hkeeps b hslot).2)
      · rfl
    rw [hreplace]
    obtain ⟨hheld, hb⟩ := sound_hold h owner protocol port
    obtain ⟨haddresses, hb'⟩ := sound_setAddresses hsends env hheld hb
    exact sound_addAgain hsends env haddresses hb' retryDelay
  · rename_i hzero
    unfold withdraw
    split
    · rename_i b hslot
      exact absurd (hkeeps b hslot).1 hzero
    · exact h

/-! ## Devices and ends -/

theorem sound_foldl {n : Nat} {f : UpnpContext → BindingId → UpnpContext}
    (hf : ∀ l b, Sound held l → l.created = n → b < n → Sound held (f l b) ∧ (f l b).created = n)
    {list : List BindingId} (h : Sound held l) (hn : l.created = n) (hlist : ∀ b ∈ list, b < n) :
    Sound held (list.foldl f l) ∧ (list.foldl f l).created = n := by
  induction list generalizing l with
  | nil => exact ⟨h, hn⟩
  | cons b list ih =>
      obtain ⟨hb, hcreated⟩ := hf l b h hn (hlist b (by simp))
      exact ih hb hcreated fun b' hb' => hlist b' (List.mem_cons_of_mem b hb')

theorem sound_releases {list : List BindingId} (h : Sound list l) :
    Sound [] (list.foldl release l) := by
  induction list generalizing l with
  | nil => exact h
  | cons b list ih => exact ih (sound_release h)

theorem created_releases (list : List BindingId) (l : UpnpContext) :
    (list.foldl release l).created = l.created := by
  induction list generalizing l with
  | nil => rfl
  | cons b list ih => exact ih (l.release b)

theorem lt_of_mem_slots {owners : List UpnpOwner} (h : Sound held l) :
    ∀ b ∈ owners.filterMap l.slot, b < l.created := by
  intro b hb
  obtain ⟨owner, -, hslot⟩ := List.mem_filterMap.mp hb
  exact lt_of_slot h.counted hslot

theorem sound_removeSlots (hsends : ∀ n, igd.result n = 0) (h : Sound held l)
    (owners : List UpnpOwner) : Sound held (l.removeSlots igd owners) := by
  have hremove : ∀ l' b, Sound held l' → l'.created = l.created → b < l.created →
      Sound held (l'.send igd b .remove true) ∧
        (l'.send igd b .remove true).created = l.created := by
    intro l' b h' hsame hb
    exact ⟨sound_send hsends h' (hsame ▸ hb) .remove true,
      (created_send hsends .remove true).trans hsame⟩
  exact (sound_foldl hremove h rfl (lt_of_mem_slots h)).1

theorem sound_releaseSlot (h : Sound [] l) (owner : UpnpOwner) :
    Sound [] (l.releaseSlot owner) := by
  unfold releaseSlot
  split
  · rename_i b hslot
    have hcleared : Sound [b] (l.clearSlot owner) :=
      ⟨counted_clearSlot h.counted hslot, h.awaits⟩
    exact sound_release hcleared
  · exact h

/-- **`linphone_upnp_session_destroy`** -/
theorem sound_sessionDestroy (hsends : ∀ n, igd.result n = 0) (h : Sound [] l) (call : Nat) :
    Sound [] (l.sessionDestroy igd call) := by
  unfold sessionDestroy
  have hremoved := sound_removeSlots hsends h (sessionOwners call)
  generalize l.removeSlots igd (sessionOwners call) = l₁ at hremoved
  generalize sessionOwners call = owners
  induction owners generalizing l₁ with
  | nil => exact hremoved
  | cons owner owners ih => exact ih _ (sound_releaseSlot hremoved owner)

theorem createAll_concat (ports : List UpnpPortBinding) (port : UpnpPortBinding) :
    l.createAll (ports ++ [port]) =
      ((l.createAll ports).1 ++ [(l.createAll ports).2.created],
        (l.createAll ports).2.create port) := by
  rw [createAll, List.foldl_append]
  rfl

theorem sound_createAll {ports : List UpnpPortBinding}
    (hports : ∀ port ∈ ports, port.ref = 1 ∧ port.state = .ok) (h : Sound [] l) :
    Sound (l.createAll ports).1 (l.createAll ports).2 ∧
      l.created ≤ (l.createAll ports).2.created := by
  induction ports using List.reverseRecOn with
  | nil => exact ⟨h, Nat.le_refl _⟩
  | append_singleton ports port ih =>
      obtain ⟨hsound, hle⟩ := ih fun p hp => hports p (List.mem_append_left _ hp)
      obtain ⟨href, hst⟩ := hports port (by simp)
      have hnew : Sound ((l.createAll ports).2.created :: (l.createAll ports).1)
          ((l.createAll ports).2.create port) := by
        refine sound_create hsound href fun x => ?_
        rw [hst]
        exact settled_ne_busy .add x
      rw [createAll_concat]
      exact ⟨hnew.congr (List.perm_append_singleton _ _).symm, Nat.le_succ_of_le hle⟩

theorem listedOn_ok {keys : List (List Char)} {id : List Char} {port : UpnpPortBinding}
    (h : port ∈ listedOn keys id) : port.ref = 1 ∧ port.state = .ok := by
  obtain ⟨entry, -, hentry⟩ := List.mem_filterMap.mp h
  obtain ⟨⟨id', protocol, externalPort, localPort⟩, -, hscanned⟩ :=
    Option.bind_eq_some_iff.mp hentry
  dsimp only at hscanned
  split at hscanned
  · exact absurd hscanned (by simp)
  · obtain ⟨protocol, -, rfl⟩ := Option.map_eq_some_iff.mp hscanned
    exact ⟨rfl, rfl⟩

theorem sound_updateListed (hsends : ∀ n, igd.result n = 0) (h : Sound held l)
    {globals : List BindingId} (hglobals : ∀ b' ∈ globals, b' < l.created) (hb : b < l.created) :
    Sound held (l.updateListed igd b globals) ∧
      (l.updateListed igd b globals).created = l.created := by
  unfold updateListed
  split
  · rename_i b' hfind
    split
    · have hb' := hglobals b' (List.mem_of_find?_eq_some hfind)
      exact ⟨sound_modify h hb' rfl (.inr fun x => settled_ne_busy .add x), rfl⟩
    · exact ⟨h, rfl⟩
  · exact ⟨sound_send hsends h hb .remove true, created_send hsends .remove true⟩

/-- **`linphone_upnp_update`** -/
theorem sound_update (hsends : ∀ n, igd.result n = 0) (h : Sound [] l) (calls : List Nat) :
    Sound [] (l.update igd calls) := by
  have hglobals : ∀ b ∈ l.globalList calls, b < l.created := lt_of_mem_slots h
  unfold update
  generalize l.globalList calls = globals at hglobals
  generalize hports : (l.deviceId.map (listedOn l.configs.keys)).getD [] = ports
  have hok : ∀ port ∈ ports, port.ref = 1 ∧ port.state = .ok := by
    intro port hport
    rw [← hports] at hport
    cases hid : l.deviceId with
    | none => simp [hid] at hport
    | some id => exact listedOn_ok (by simpa [hid] using hport)
  obtain ⟨hcreated, hle⟩ := sound_createAll hok h
  dsimp only
  generalize l.createAll ports = r at hcreated hle
  obtain ⟨list, l₁⟩ := r
  have hlist : ∀ b ∈ list, b < l₁.created := fun b hb => hcreated.counted.known b (.inr (.inl hb))
  have hglobals₁ : ∀ b ∈ globals, b < l₁.created := fun b hb =>
    Nat.lt_of_lt_of_le (hglobals b hb) hle
  have hlisted : ∀ l' b, Sound list l' → l'.created = l₁.created → b < l₁.created →
      Sound list (l'.updateListed igd b globals) ∧
        (l'.updateListed igd b globals).created = l₁.created := by
    intro l' b h' hsame hb
    obtain ⟨hsound, hcreated'⟩ := sound_updateListed hsends h' (hsame.symm ▸ hglobals₁) (hsame ▸ hb)
    exact ⟨hsound, hcreated'.trans hsame⟩
  obtain ⟨hupdated, hsame⟩ := sound_foldl hlisted hcreated rfl hlist
  have hreleased := sound_releases hupdated
  have hagain : ∀ l' b, Sound [] l' → l'.created = l₁.created → b < l₁.created →
      Sound [] ((l'.send igd b .remove true).send igd b .add true) ∧
        ((l'.send igd b .remove true).send igd b .add true).created = l₁.created := by
    intro l' b h' hsame hb
    have hremoved := sound_send hsends h' (hsame ▸ hb) .remove true
    have hsame' : (l'.send igd b .remove true).created = l₁.created :=
      (created_send hsends _ _).trans hsame
    exact ⟨sound_send hsends hremoved (hsame' ▸ hb) .add true,
      (created_send hsends .add true).trans hsame'⟩
  exact (sound_foldl hagain hreleased ((created_releases list _).trans hsame) hglobals₁).1

theorem sound_deviceChanged (hsends : ∀ n, igd.result n = 0) (h : Sound [] l) (d : IgdDevice)
    (calls : List Nat) : Sound [] (l.deviceChanged igd d calls) := by
  have hstate : Sound [] { l with
      state := d.state, deviceId := d.deviceId.bind formatDeviceId } :=
    ⟨⟨h.counted.pending, h.counted.refs, h.counted.known⟩, h.awaits⟩
  unfold deviceChanged
  dsimp only
  split
  · exact sound_update hsends hstate calls
  · exact hstate

end awaits

/-! ## Runs -/

/-- The pending bindings are the requests at the router, references are owners and pending entries,
what is busy has a request at the router, and nothing is waited for when none is there. -/
structure Accounted (s : UpnpSystem) : Prop where
  pending : ∀ b, s.lupnp.pendingBindings.count b = (s.lupnp.flight b).length
  refs : ∀ b < s.lupnp.created, (s.lupnp.binding b).ref =
    ((s.lupnp.owners b + s.lupnp.pendingBindings.count b : Nat) : Int)
  busy : ∀ b, (s.lupnp.binding b).state = .adding ∨ (s.lupnp.binding b).state = .removing →
    s.lupnp.flight b ≠ []
  wait : s.lupnp.inFlight = [] → s.waiting = false

/-- An owner keeps its binding, and a failure is handled. -/
def UpnpEvent.Balanced (s : UpnpSystem) : UpnpEvent → Prop
  | update _ owner _ port _ =>
      ∀ b, s.lupnp.slot owner = some b → port ≠ 0 ∧ port = (s.lupnp.binding b).localPort
  | answer r success => success = false → Handled s.lupnp r
  | _ => True

section runs

variable {igd : Igd} {s : UpnpSystem}

/-- The invariant of a run. -/
structure UpnpSystem.Sound (s : UpnpSystem) : Prop where
  lupnp : Linphone.Sound [] s.lupnp
  waits : s.waiting = true → s.lupnp.pendingBindings ≠ []

theorem UpnpSystem.Sound.accounted (h : s.Sound) : Accounted s where
  pending := h.lupnp.counted.pending
  refs := fun b hb => by simpa using h.lupnp.counted.refs b hb
  busy := fun b hb => by
    obtain ⟨action, hst⟩ : ∃ action : IgdAction, (s.lupnp.binding b).state = action.busy := by
      rcases hb with hb | hb
      · exact ⟨.add, hb⟩
      · exact ⟨.remove, hb⟩
    obtain ⟨r, hr, -⟩ := h.lupnp.awaits b action hst
    exact List.ne_nil_of_mem hr
  wait := fun hempty => by
    cases hwaiting : s.waiting with
    | false => rfl
    | true =>
        obtain ⟨b, hb⟩ := List.exists_mem_of_ne_nil _ (h.waits hwaiting)
        have hcount := h.lupnp.counted.pending b
        have hflight : s.lupnp.flight b = [] := by
          unfold UpnpContext.flight
          rw [hempty]
          rfl
        rw [hflight] at hcount
        exact absurd (List.count_pos_iff.mpr hb) (by simp [hcount])

theorem sound_signal (h : Linphone.Sound [] s.lupnp) : (UpnpEvent.signal s).Sound := by
  unfold UpnpEvent.signal
  split
  · exact ⟨h, fun hwaiting => Bool.noConfusion hwaiting⟩
  · rename_i hne
    exact ⟨h, fun _ => hne⟩

theorem sound_of_not_waiting (hwaiting : s.waiting = false) (h : Linphone.Sound [] s.lupnp) :
    s.Sound :=
  ⟨h, fun htrue => Bool.noConfusion (hwaiting.symm.trans htrue)⟩

theorem sound_after (hsends : ∀ n, igd.result n = 0) (h : s.Sound) {e : UpnpEvent}
    (henabled : e.Enabled s) (hbalanced : e.Balanced s) : (e.after igd s).Sound := by
  cases e with
  | update env owner protocol port retryDelay =>
      exact sound_of_not_waiting henabled.1
        (sound_updatePortBinding hsends env h.lupnp protocol retryDelay hbalanced)
  | flush =>
      exact sound_of_not_waiting henabled
        ⟨⟨h.lupnp.counted.pending, h.lupnp.counted.refs, h.lupnp.counted.known⟩, h.lupnp.awaits⟩
  | device d calls => exact sound_signal (sound_deviceChanged hsends h.lupnp d calls)
  | answer r success => exact sound_signal (sound_answer hsends h.lupnp henabled hbalanced)
  | sessionDestroy call =>
      exact sound_of_not_waiting henabled (sound_sessionDestroy hsends h.lupnp call)
  | destroy networkReachable =>
      have hremoved : Linphone.Sound []
          ((UpnpEvent.destroy networkReachable).after igd s).lupnp := by
        simp only [UpnpEvent.after]
        split
        · exact sound_removeSlots hsends h.lupnp _
        · exact h.lupnp
      exact ⟨hremoved, fun hwaiting => of_decide_eq_true hwaiting⟩

theorem sound_start : ({} : UpnpSystem).Sound := by
  refine sound_of_not_waiting rfl ⟨⟨fun _ => rfl, fun b hb => ?_, fun b hb => ?_⟩, fun b x => ?_⟩
  · exact absurd hb (Nat.not_lt_zero b)
  · rcases hb with hb | hb | hb
    · exact absurd hb List.not_mem_nil
    · exact absurd hb List.not_mem_nil
    · exact absurd hb List.not_mem_nil
  · exact awaits_of_idle (fun y => settled_ne_busy .remove y) x

/-- **Pending bindings and references are accounted for**, in every run in which requests can be
sent, failures are handled and owners keep their bindings. -/
theorem accounted_of_run (hsends : ∀ n, igd.result n = 0) (h : UpnpRun igd UpnpEvent.Balanced s) :
    Accounted s := by
  have hsound : s.Sound := by
    induction h with
    | start => exact sound_start
    | step e _ henabled hbalanced ih => exact sound_after hsends ih henabled hbalanced
  exact hsound.accounted

end runs

/-- A router that is connected. -/
def connectedRouter : IgdDevice where
  deviceId := some "router".toList
  externalIpaddress := some "192.0.2.1"
  connectionStatus := some "Connected".toList
  natEnabled := true
  blacklisted := false

def coreStart : UpnpNow := ⟨100, some "10.0.0.2", some "192.0.2.1"⟩

/-- The SIP port of a core is requested. -/
def requestSip : UpnpEvent := .update coreStart .sipUdp .udp 5060 upnpCoreRetryDelay

theorem accounted_requestSip : Accounted (requestSip.after acceptingIgd
    ((UpnpEvent.device connectedRouter []).after acceptingIgd {})) := by
  have hslot : ((UpnpEvent.device connectedRouter []).after acceptingIgd {}).lupnp.slot .sipUdp =
      none := by decide
  refine accounted_of_run (fun _ => rfl) (.step requestSip
    (.step (.device connectedRouter []) .start trivial trivial) ⟨rfl, by decide⟩ fun b hb => ?_)
  exact absurd (hslot.symm.trans hb) (by simp)

/-- A request that could not be sent stays pending, with nothing at the router. -/
theorem refused_pends : ¬∀ (igd : Igd) (s : UpnpSystem), UpnpRun igd (fun _ _ => True) s →
    Accounted s := by
  intro h
  have hrun := h ⟨fun _ => -1, fun _ => 0⟩ _
    (.step requestSip (.step (.device connectedRouter []) .start trivial trivial)
      ⟨rfl, by decide⟩ trivial)
  exact absurd (hrun.pending 0) (by decide)

end Linphone
