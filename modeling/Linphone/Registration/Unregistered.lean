import Linphone.Registration.Proxy
import Mathlib.Tactic.Set

/-!
# Registrations left at a server

What is outstanding, registered at its server or on its way there, through the steps of a
registration. `Carries` tells that a step adds nothing outstanding, and the lemmas about
`unregister`, `leaveServer`, `register` and `remove` what each of them unregisters.

`registrations_unregistered`: one operation at most has the proxy config as its user pointer, and no
registration is left at a former server, when what is outstanding can be unregistered at each
change.
-/

namespace Linphone

namespace Registration

variable {s : Registration}

/-! ## What is outstanding -/

/-- What is outstanding afterwards was so before, at the same server. -/
def Carries (s s' : Registration) : Prop :=
  ∀ op' ∈ s'.ops, op'.Outstanding → ∃ op ∈ s.ops, op.Outstanding ∧ op.server = op'.server

theorem Carries.refl (s : Registration) : s.Carries s :=
  fun op' hmem hout => ⟨op', hmem, hout, rfl⟩

theorem carries_modifyOp {i : Nat} {f : RegisterOp → RegisterOp}
    (hf : ∀ op, s.ops[i]? = some op → (f op).Outstanding → op.Outstanding)
    (hserver : ∀ op, (f op).server = op.server) : s.Carries (s.modifyOp i f) := by
  intro op' hmem hout
  obtain ⟨j, hj⟩ := List.mem_iff_getElem?.mp hmem
  obtain ⟨op, hj', rfl⟩ := getElem?_modify_some hj
  refine ⟨op, List.mem_of_getElem? hj', ?_⟩
  by_cases hij : i = j
  · subst hij
    rw [if_pos rfl] at hout ⊢
    exact ⟨hf op hj' hout, (hserver op).symm⟩
  · rw [if_neg hij] at hout ⊢
    exact ⟨hout, rfl⟩

theorem carries_releaseOp (s : Registration) : s.Carries s.releaseOp := by
  unfold releaseOp
  cases s.cfg.op with
  | none => exact Carries.refl s
  | some i =>
      refine carries_modifyOp (fun op _ hout => ?_) fun _ => rfl
      have hunref : op.unref.Outstanding := hout
      exact hunref.of_unref

/-- **A request.** It leaves what was outstanding, all but what it unregisters, and a registration
of its own. -/
theorem outstanding_send {i expires : Nat} {op' own : RegisterOp} (hown : s.ops[i]? = some own)
    (hmem : op' ∈ (s.send i expires).ops) (hout : op'.Outstanding) :
    (∃ op ∈ s.ops, op.Outstanding ∧ op.server = op'.server ∧
      (expires = 0 → ¬ op.server.Same own.server)) ∨
    expires ≠ 0 ∧ op'.server = own.server := by
  unfold send at hmem
  simp only [hown] at hmem
  obtain ⟨j, hj⟩ := List.mem_iff_getElem?.mp hmem
  obtain ⟨marked, hj', rfl⟩ := getElem?_modify_some hj
  rw [List.getElem?_map] at hj'
  obtain ⟨op, hop, rfl⟩ := Option.map_eq_some_iff.mp hj'
  by_cases hij : i = j
  · subst hij
    rw [if_pos rfl] at hout ⊢
    have hsame : op = own := Option.some.inj (hop.symm.trans hown)
    subst hsame
    refine Or.inr ⟨fun hzero => ?_, RegisterOp.server_marked _ _⟩
    subst hzero
    exact RegisterOp.not_outstanding_requested hout
  · rw [if_neg hij] at hout ⊢
    obtain ⟨hout, hother⟩ := hout.of_marked
    exact Or.inl ⟨op, List.mem_of_getElem? hop, hout, (RegisterOp.server_marked _ _).symm, hother⟩

/-- **An unregistration.** What is outstanding after it was so before, and could not be
unregistered. -/
theorem outstanding_unregister {sent : Bool} {op' : RegisterOp}
    (hmem : op' ∈ (s.unregister sent).ops) (hout : op'.Outstanding) :
    ∃ op ∈ s.ops, op.Outstanding ∧ op.server = op'.server ∧ ¬ s.Unregisters op.server sent := by
  rcases unregister_cases s sent with ⟨heq, hnot⟩ | ⟨i, own, r, hop, hown, hr, heq⟩
  · rw [heq] at hmem
    refine ⟨op', hmem, hout, rfl, ?_⟩
    rintro ⟨hok, hsent, i, own, r, hop, hown, hr, _⟩
    exact hnot i own r hok hsent hop hown hr
  · rw [heq] at hmem
    rcases outstanding_send hown hmem hout with ⟨op, hop', hout', hserver, hnot⟩ | ⟨hne, _⟩
    · refine ⟨op, hop', hout', hserver, ?_⟩
      rintro ⟨_, _, j, own', _, hown', hj, _, hsame⟩
      obtain rfl : i = j := Option.some.inj (hop.symm.trans hown')
      obtain rfl : own = own' := Option.some.inj (hown.symm.trans hj)
      exact hnot rfl hsame.symm
    · exact absurd rfl hne

theorem carries_unregister (s : Registration) (sent : Bool) : s.Carries (s.unregister sent) := by
  intro op' hmem hout
  obtain ⟨op, hop, hout', hserver, _⟩ := outstanding_unregister hmem hout
  exact ⟨op, hop, hout', hserver⟩

theorem carries_letGo (s : Registration) (i : Nat) :
    s.Carries (s.modifyOp i fun op => { op.unref with userPointer := false }) := by
  refine carries_modifyOp (fun op _ hout => ?_) fun _ => rfl
  have hunref : op.unref.Outstanding := hout
  exact hunref.of_unref

/-- **Leaving a server.** -/
theorem outstanding_leaveServer {sent : Bool} {op' : RegisterOp}
    (hmem : op' ∈ (s.leaveServer sent).ops) (hout : op'.Outstanding) :
    ∃ op ∈ s.ops, op.Outstanding ∧ op.server = op'.server ∧
      ¬ (isServerConfigChanged s.cfg.saved s.cfg.reg = .different ∧
        s.Unregisters op.server sent) := by
  rcases leaveServer_cases s sent with ⟨heq, hnone⟩ | ⟨i, s', hop, hs', heq⟩
  · rw [heq] at hmem
    refine ⟨op', hmem, hout, rfl, ?_⟩
    rintro ⟨hdifferent, _, _, i, own, r, hown, _⟩
    rw [hnone hdifferent] at hown
    cases hown
  · rw [heq] at hmem
    obtain ⟨op₁, hop₁, hout₁, hserver₁⟩ := carries_letGo _ i op' hmem hout
    rcases hs' with rfl | ⟨hdifferent, rfl⟩
    · obtain ⟨op, hop', hout', hserver, hnot⟩ := outstanding_unregister hop₁ hout₁
      exact ⟨op, hop', hout', hserver.trans hserver₁, fun hleft => hnot hleft.2⟩
    · exact ⟨op₁, hop₁, hout₁, hserver₁, fun hleft => hdifferent hleft.1⟩

/-- **A registration which is disabled.** -/
theorem outstanding_register_disabled {sent : Bool} {op' : RegisterOp}
    (hsend : s.cfg.regSendregister = false) (hmem : op' ∈ (s.register sent).ops)
    (hout : op'.Outstanding) :
    ∃ op ∈ s.ops, op.Outstanding ∧ op.server = op'.server ∧ ¬ s.Unregisters op.server sent := by
  rcases register_cases s sent with ⟨hsend', -⟩ | ⟨-, state, heq, hstate⟩
  · exact absurd (hsend'.symm.trans hsend) (by decide)
  · rw [heq] at hmem
    rcases hstate with rfl | hprogress
    · exact outstanding_unregister hmem hout
    · obtain ⟨op, hop, hout', hserver⟩ := carries_unregister _ sent op' hmem hout
      refine ⟨op, hop, hout', hserver, fun hunregisters => ?_⟩
      have hok := hunregisters.1
      rw [hprogress] at hok
      cases hok

theorem cfg_releaseOp (s : Registration) : s.releaseOp.cfg = s.cfg := by
  unfold releaseOp
  cases s.cfg.op with
  | none => rfl
  | some i => rfl

/-- A new operation leaves what was outstanding, and a registration of its own. -/
theorem outstanding_salRegister {sent : Bool} {op' : RegisterOp}
    (hmem : op' ∈ (s.salRegister sent).ops) (hout : op'.Outstanding) :
    (∃ op ∈ s.ops, op.Outstanding ∧ op.server = op'.server) ∨ op'.server = s.cfg.reg := by
  have hnew : ∀ op ∈ s.ops ++ [({ server := s.cfg.reg } : RegisterOp)], op.Outstanding →
      op ∈ s.ops := by
    intro op hop hout
    rcases List.mem_append.mp hop with hold | hlast
    · exact hold
    · obtain rfl := List.mem_singleton.mp hlast
      obtain ⟨_, hregistered | hauth | ⟨r, hr, _⟩⟩ := hout
      · cases hregistered
      · cases hauth
      · cases hr
  unfold salRegister at hmem
  cases sent with
  | false => exact Or.inl ⟨op', hnew op' hmem hout, hout, rfl⟩
  | true =>
      simp only [if_true] at hmem
      have hlast : (s.ops ++ [({ server := s.cfg.reg } : RegisterOp)])[s.ops.length]? =
          some { server := s.cfg.reg } := by simp
      rcases outstanding_send hlast hmem hout with ⟨op, hop, hout', hserver, _⟩ | ⟨_, hserver⟩
      · exact Or.inl ⟨op, hnew op hop hout', hout', hserver⟩
      · exact Or.inr hserver

/-- **A registration which is enabled.** -/
theorem outstanding_register_enabled {sent : Bool} {op' : RegisterOp}
    (hsend : s.cfg.regSendregister = true) (hmem : op' ∈ (s.register sent).ops)
    (hout : op'.Outstanding) :
    (∃ op ∈ s.ops, op.Outstanding ∧ op.server = op'.server) ∨ op'.server = s.cfg.reg := by
  rcases register_cases s sent with ⟨-, heq⟩ | ⟨hsend', -⟩
  swap
  · exact absurd (hsend.symm.trans hsend') (by decide)
  rw [heq] at hmem
  rcases outstanding_salRegister hmem hout with ⟨op, hop, hout', hserver⟩ | hserver
  · obtain ⟨op₀, hop₀, hout₀, hserver₀⟩ := carries_releaseOp s op hop hout'
    exact Or.inl ⟨op₀, hop₀, hout₀, hserver₀.trans hserver⟩
  · rw [cfg_releaseOp] at hserver
    exact Or.inr hserver

/-! ## The own operation -/

/-- The operation the proxy config has is unregistered by a request of its own. -/
def OwnExpires (s : Registration) : Prop :=
  ∀ (i : Nat) (op : RegisterOp) (r : Refresher), s.cfg.op = some i → s.ops[i]? = some op →
    op.refresher = some r → op.unregistered = true → r.expires = 0

theorem ownExpires_of_none (hop : s.cfg.op = none) : s.OwnExpires := by
  intro i op r hown
  rw [hop] at hown
  cases hown

/-- A change of the operations which does not touch what was asked of the own one. -/
theorem OwnExpires.modifyOp (h : s.OwnExpires) {i : Nat} {f : RegisterOp → RegisterOp}
    (hf : ∀ op r', s.ops[i]? = some op → (f op).refresher = some r' →
      (f op).unregistered = op.unregistered ∧ ∃ r, op.refresher = some r ∧ r.expires = r'.expires) :
    (s.modifyOp i f).OwnExpires := by
  intro j op' r' hown hj hr' hunregistered
  obtain ⟨op, hj', rfl⟩ := getElem?_modify_some hj
  by_cases hij : i = j
  · subst hij
    rw [if_pos rfl] at hr' hunregistered
    obtain ⟨hsame, r, hr, hexpires⟩ := hf op r' hj' hr'
    rw [hsame] at hunregistered
    rw [← hexpires]
    exact h i op r hown hj' hr hunregistered
  · rw [if_neg hij] at hr' hunregistered
    exact h j op r' hown hj' hr' hunregistered

theorem ownExpires_send {i : Nat} {own : RegisterOp} (hop : s.cfg.op = some i)
    (hown : s.ops[i]? = some own) (expires : Nat) : (s.send i expires).OwnExpires := by
  intro j op' r hj hop' hr hunregistered
  rw [cfg_send, hop] at hj
  obtain rfl := Option.some.inj hj
  unfold send at hop'
  simp only [hown] at hop'
  obtain ⟨marked, _, rfl⟩ := getElem?_modify_some hop'
  rw [if_pos rfl] at hr hunregistered
  obtain rfl : ({ expires := expires } : Refresher) = r := Option.some.inj hr
  exact of_decide_eq_true hunregistered

theorem OwnExpires.unregister (h : s.OwnExpires) (sent : Bool) :
    (s.unregister sent).OwnExpires := by
  rcases unregister_cases s sent with ⟨heq, -⟩ | ⟨i, own, r, hop, hown, -, heq⟩
  · rw [heq]
    exact h
  · rw [heq]
    exact ownExpires_send hop hown 0

theorem ownExpires_salRegister (sent : Bool) : (s.salRegister sent).OwnExpires := by
  unfold salRegister
  cases sent with
  | false =>
      intro i op r hop hi hr
      obtain rfl : s.ops.length = i := Option.some.inj hop
      have hlast : (s.ops ++ [({ server := s.cfg.reg } : RegisterOp)])[s.ops.length]? =
          some { server := s.cfg.reg } := by simp
      obtain rfl := Option.some.inj (hlast.symm.trans hi)
      cases hr
  | true => exact ownExpires_send rfl (by simp; rfl) s.cfg.expires

theorem OwnExpires.register (h : s.OwnExpires) (sent : Bool) : (s.register sent).OwnExpires := by
  rcases register_cases s sent with ⟨-, heq⟩ | ⟨-, state, heq, -⟩
  · rw [heq]
    exact ownExpires_salRegister sent
  · rw [heq]
    exact OwnExpires.unregister (s := s.setState state) h sent

theorem OwnExpires.update (h : s.OwnExpires) (sent : Bool) : (s.update sent).OwnExpires := by
  unfold Registration.update
  by_cases hcommit : s.cfg.commit = true
  · rw [if_pos hcommit]
    exact h.register sent
  · rw [if_neg hcommit]
    exact h

theorem OwnExpires.edit (h : s.OwnExpires) : s.edit.OwnExpires := by
  have hstored : ({ s with
      cfg := { s.cfg with saved := s.cfg.reg }, editing := true } : Registration).OwnExpires := h
  unfold Registration.edit
  dsimp only
  split
  · refine hstored.modifyOp fun op r' _ hr' => ⟨rfl, ?_⟩
    obtain ⟨r, hr, rfl⟩ := Option.map_eq_some_iff.mp hr'
    exact ⟨r, hr, rfl⟩
  · exact hstored

theorem OwnExpires.done (h : s.OwnExpires) (sent : Bool) : (s.done sent).OwnExpires := by
  have hleave : (s.leaveServer sent).OwnExpires := by
    rcases leaveServer_cases s sent with ⟨heq, -⟩ | ⟨i, s', hop, hs', heq⟩
    · rw [heq]
      exact h
    · rw [heq]
      exact ownExpires_of_none rfl
  unfold Registration.done
  by_cases hcheck : s.check = true
  · rw [if_pos hcheck]
    exact hleave
  · rw [if_neg hcheck]
    exact h

theorem OwnExpires.remove (h : s.OwnExpires) (sent : Bool) : (s.remove sent).OwnExpires := by
  unfold Registration.remove
  by_cases hok : s.cfg.state = .ok
  · simp only [hok, if_true]
    have hedit : ({ s with removed := true } : Registration).edit.OwnExpires :=
      OwnExpires.edit (s := { s with removed := true }) h
    have hdisabled :
        (({ s with removed := true } : Registration).edit.enableRegister false).OwnExpires := hedit
    exact (hdisabled.done sent).update sent
  · simp only [hok, if_false]
    exact h

theorem OwnExpires.response (h : s.OwnExpires) (i : Nat) (answer : RegisterAnswer) :
    (s.response i answer).OwnExpires := by
  rcases response_cases s i answer with heq | ⟨op, r, state, hi, hr, _, heq, _⟩
  · rw [heq]
    exact h
  · have hanswered : (s.modifyOp i fun op => op.answered r answer).OwnExpires := by
      refine h.modifyOp fun op' r' hi' hr' => ?_
      obtain rfl : op = op' := Option.some.inj (hi.symm.trans hi')
      cases answer with
      | success granted =>
          obtain rfl := Option.some.inj hr'
          exact ⟨rfl, r, hr, rfl⟩
      | failure reason authRequested retried =>
          obtain rfl := Option.some.inj hr'
          exact ⟨rfl, r, hr, rfl⟩
      | other =>
          obtain rfl := Option.some.inj hr'
          exact ⟨rfl, r, hr, rfl⟩
    rw [heq]
    exact hanswered

theorem carries_response (s : Registration) (i : Nat) (answer : RegisterAnswer) :
    s.Carries (s.response i answer) := by
  rcases response_cases s i answer with heq | ⟨op, r, state, hi, hr, hpending, heq, _⟩
  · rw [heq]
    exact Carries.refl s
  · have hanswered : s.Carries (s.modifyOp i fun op => op.answered r answer) := by
      refine carries_modifyOp (fun op' hi' hout => ?_) fun _ => RegisterOp.server_answered r answer
      obtain rfl : op = op' := Option.some.inj (hi.symm.trans hi')
      exact hout.of_answered hr hpending
    rw [heq]
    exact hanswered

/-! ## Requests of the own operation -/

theorem OwnExpires.carries_send (h : s.OwnExpires) {i : Nat} {own : RegisterOp} {r : Refresher}
    (hop : s.cfg.op = some i) (hown : s.ops[i]? = some own) (hr : own.refresher = some r)
    (hgoes : own.hasAuthPending = true ∨ r.started = true) : s.Carries (s.send i r.expires) := by
  intro op' hmem hout
  rcases outstanding_send hown hmem hout with ⟨op, hop', hout', hserver, _⟩ | ⟨hne, hserver⟩
  · exact ⟨op, hop', hout', hserver⟩
  · have hunregistered : own.unregistered = false :=
      Bool.eq_false_iff.mpr fun hunregistered => hne (h i own r hop hown hr hunregistered)
    refine ⟨own, List.mem_of_getElem? hown, ⟨hunregistered, Or.inr ?_⟩, hserver.symm⟩
    exact hgoes.imp id fun hstarted => ⟨r, hr, Or.inl hstarted⟩

/-! ## What is kept -/

/-- What is outstanding is so at the server of the proxy config. -/
structure Kept (s : Registration) : Prop where
  expires : s.OwnExpires
  outstanding : ∀ op ∈ s.ops, op.Outstanding → s.removed = false ∧
    (s.editing = false →
      op.server.Same s.cfg.reg ∧ (s.cfg.commit = false → s.cfg.regSendregister = true))

theorem Kept.noneLeft (h : s.Kept) : s.NoneLeft :=
  fun op hmem hregistered hunregistered =>
    h.outstanding op hmem ⟨hunregistered, Or.inl hregistered⟩

/-- A step which adds nothing that is outstanding, and leaves the configuration. -/
theorem Kept.carries {s' : Registration} (h : s.Kept) (hcarries : s.Carries s')
    (hexpires : s'.OwnExpires) (hremoved : s'.removed = s.removed)
    (hediting : s'.editing = s.editing) (hreg : s'.cfg.reg = s.cfg.reg)
    (hcommit : s'.cfg.commit = s.cfg.commit)
    (hsend : s'.cfg.regSendregister = s.cfg.regSendregister) : s'.Kept where
  expires := hexpires
  outstanding := by
    intro op' hmem hout
    obtain ⟨op, hop, hout', hserver⟩ := hcarries op' hmem hout
    rw [hremoved, hediting, hreg, hcommit, hsend, ← hserver]
    exact h.outstanding op hop hout'

theorem removed_send (s : Registration) (i expires : Nat) :
    (s.send i expires).removed = s.removed ∧ (s.send i expires).editing = s.editing := by
  unfold send
  cases s.ops[i]? with
  | none => exact ⟨rfl, rfl⟩
  | some op => exact ⟨rfl, rfl⟩

theorem Kept.send (h : s.Kept) {i : Nat} {own : RegisterOp} {r : Refresher}
    (hop : s.cfg.op = some i) (hown : s.ops[i]? = some own) (hr : own.refresher = some r)
    (hgoes : own.hasAuthPending = true ∨ r.started = true) : (s.send i r.expires).Kept :=
  h.carries (h.expires.carries_send hop hown hr hgoes) (ownExpires_send hop hown _)
    (removed_send s i _).1 (removed_send s i _).2 (by rw [cfg_send]) (by rw [cfg_send])
    (by rw [cfg_send])

theorem Kept.setState (h : s.Kept) (state : LinphoneRegistrationState) : (s.setState state).Kept :=
  h.carries (Carries.refl s) h.expires rfl rfl rfl rfl rfl

theorem Kept.refresherFires (h : s.Kept) : s.refresherFires.Kept := by
  rcases refresherFires_cases s with heq | ⟨i, own, r, hop, hown, hr, hstarted, heq⟩
  · rw [heq]
    exact h
  · rw [heq]
    exact h.send hop hown hr (Or.inr hstarted)

theorem Kept.authenticate (h : s.Kept) (sent : Bool) : (s.authenticate sent).Kept := by
  obtain ⟨state, heq | ⟨i, own, r, hop, hown, hr, hauth, heq⟩⟩ := authenticate_cases s sent
  · rw [heq]
    exact h.setState state
  · rw [heq]
    exact (h.setState state).send hop hown hr (Or.inl hauth)

theorem Kept.response (h : s.Kept) (i : Nat) (answer : RegisterAnswer) :
    (s.response i answer).Kept := by
  have hcfg : (s.response i answer).removed = s.removed ∧
      (s.response i answer).editing = s.editing ∧ (s.response i answer).cfg.reg = s.cfg.reg ∧
      (s.response i answer).cfg.commit = s.cfg.commit ∧
      (s.response i answer).cfg.regSendregister = s.cfg.regSendregister := by
    rcases response_cases s i answer with heq | ⟨op, r, state, _, _, _, heq, _⟩
    · rw [heq]
      exact ⟨rfl, rfl, rfl, rfl, rfl⟩
    · rw [heq]
      exact ⟨rfl, rfl, rfl, rfl, rfl⟩
  obtain ⟨hremoved, hediting, hreg, hcommit, hsend⟩ := hcfg
  exact h.carries (carries_response s i answer) (h.expires.response i answer) hremoved hediting
    hreg hcommit hsend

theorem carries_edit (s : Registration) : s.Carries s.edit := by
  unfold edit
  dsimp only
  split
  · intro op' hmem hout
    exact carries_modifyOp (fun op _ hout => hout.of_stopRefreshing) (fun _ => rfl) op' hmem hout
  · exact Carries.refl s

theorem edit_editing (s : Registration) : s.edit.editing = true ∧ s.edit.removed = s.removed := by
  unfold edit
  dsimp only
  split
  · exact ⟨rfl, rfl⟩
  · exact ⟨rfl, rfl⟩

theorem Kept.of_editing {s' : Registration} (hediting : s'.editing = true)
    (hremoved : s'.removed = false) (hexpires : s'.OwnExpires) : s'.Kept where
  expires := hexpires
  outstanding := fun op _ _ => ⟨hremoved, fun hnot => absurd (hediting.symm.trans hnot) (by simp)⟩

/-! ## Steps -/

theorem unregister_frame (s : Registration) (sent : Bool) :
    (s.unregister sent).removed = s.removed ∧ (s.unregister sent).editing = s.editing := by
  rcases unregister_cases s sent with ⟨heq, -⟩ | ⟨i, _, _, _, _, _, heq⟩
  · rw [heq]
    exact ⟨rfl, rfl⟩
  · rw [heq]
    exact removed_send s i 0

theorem leaveServer_frame (s : Registration) (sent : Bool) :
    (s.leaveServer sent).removed = s.removed ∧ (s.leaveServer sent).cfg.reg = s.cfg.reg ∧
      (s.leaveServer sent).cfg.regSendregister = s.cfg.regSendregister := by
  rcases leaveServer_cases s sent with ⟨heq, -⟩ | ⟨i, s', hop, hs', heq⟩
  · rw [heq]
    exact ⟨rfl, rfl, rfl⟩
  · have hsame : s'.removed = s.removed ∧ s'.cfg = s.cfg := by
      rcases hs' with rfl | ⟨-, rfl⟩
      · exact ⟨(unregister_frame s sent).1, cfg_unregister s sent⟩
      · exact ⟨rfl, rfl⟩
    rw [heq, hsame.2]
    exact ⟨hsame.1, rfl, rfl⟩

theorem releaseOp_frame (s : Registration) :
    s.releaseOp.removed = s.removed ∧ s.releaseOp.editing = s.editing := by
  unfold releaseOp
  cases s.cfg.op with
  | none => exact ⟨rfl, rfl⟩
  | some i => exact ⟨rfl, rfl⟩

theorem salRegister_frame (s : Registration) (sent : Bool) :
    (s.salRegister sent).removed = s.removed ∧ (s.salRegister sent).editing = s.editing ∧
      (s.salRegister sent).cfg.reg = s.cfg.reg ∧
      (s.salRegister sent).cfg.regSendregister = s.cfg.regSendregister := by
  unfold salRegister
  cases sent with
  | false => exact ⟨rfl, rfl, rfl, rfl⟩
  | true =>
      simp only [if_true]
      refine ⟨(removed_send _ _ _).1, (removed_send _ _ _).2, ?_, ?_⟩
      · simp only [setState, cfg_send]
      · simp only [setState, cfg_send]

theorem register_frame (s : Registration) (sent : Bool) :
    (s.register sent).removed = s.removed ∧ (s.register sent).editing = s.editing ∧
      (s.register sent).cfg.reg = s.cfg.reg ∧
      (s.register sent).cfg.regSendregister = s.cfg.regSendregister := by
  rcases register_cases s sent with ⟨-, heq⟩ | ⟨-, state, heq, -⟩
  · rw [heq]
    obtain ⟨hremoved, hediting, hreg, hsendregister⟩ := salRegister_frame s.releaseOp sent
    rw [cfg_releaseOp] at hreg hsendregister
    exact ⟨hremoved.trans (releaseOp_frame s).1, hediting.trans (releaseOp_frame s).2, hreg,
      hsendregister⟩
  · rw [heq, cfg_unregister]
    exact ⟨(unregister_frame _ sent).1, (unregister_frame _ sent).2, rfl, rfl⟩

theorem Kept.done (h : s.Kept) {sent : Bool} (hremoved : s.removed = false)
    (hsettles : s.Settles (.done sent)) : (s.done sent).Kept := by
  by_cases hcheck : s.check = true
  · refine ⟨h.expires.done sent, fun op' hmem hout => ?_⟩
    obtain ⟨hsame, hreg, _⟩ := leaveServer_frame s sent
    unfold Registration.done at hmem ⊢
    simp only [hcheck, if_true] at hmem ⊢
    obtain ⟨op, hop, hout', hserver, hnot⟩ := outstanding_leaveServer hmem hout
    refine ⟨hsame.trans hremoved, fun _ => ⟨?_, fun hcommit => absurd hcommit (by simp)⟩⟩
    rw [hreg, ← hserver]
    exact (hsettles hcheck op hop hout').resolve_right hnot
  · unfold Registration.done
    rw [if_neg hcheck]
    exact h

theorem Kept.update (h : s.Kept) {sent : Bool} (hremoved : s.removed = false)
    (hsettles : s.Settles (.update sent)) : (s.update sent).Kept := by
  by_cases hcommit : s.cfg.commit = true
  · refine ⟨h.expires.update sent, fun op' hmem hout => ?_⟩
    obtain ⟨hremoved', hediting, hreg, hsendregister⟩ := register_frame s sent
    unfold Registration.update at hmem ⊢
    simp only [hcommit, if_true] at hmem ⊢
    rw [hremoved', hediting, hreg, hsendregister]
    refine ⟨hremoved, fun hediting => ?_⟩
    cases hsend : s.cfg.regSendregister with
    | true =>
        refine ⟨?_, fun _ => rfl⟩
        rcases outstanding_register_enabled hsend hmem hout with ⟨op, hop, hout', hserver⟩ | hserver
        · rw [← hserver]
          exact ((h.outstanding op hop hout').2 hediting).1
        · rw [hserver]
          exact ServerConfig.Same.refl s.cfg.reg
    | false =>
        obtain ⟨op, hop, hout', hserver, hnot⟩ := outstanding_register_disabled hsend hmem hout
        exact absurd (hsettles hcommit hediting hsend op hop hout') hnot
  · unfold Registration.update
    rw [if_neg hcommit]
    exact h

theorem Kept.refreshRegister (h : s.Kept) {sent : Bool} (hremoved : s.removed = false)
    (hsettles : s.Settles (.refreshRegister sent)) : (s.refreshRegister sent).Kept := by
  rcases refreshRegister_cases s sent with heq | ⟨i, own, r, hop, hown, hr, hsend, heq⟩
  · rw [heq]
    exact h
  · have hsent : (s.send i s.cfg.expires).Kept := by
      refine ⟨ownExpires_send hop hown _, fun op' hmem hout => ?_⟩
      rw [cfg_send, (removed_send s i _).1, (removed_send s i _).2]
      refine ⟨hremoved, fun hediting => ⟨?_, fun _ => hsend⟩⟩
      rcases outstanding_send hown hmem hout with ⟨op, hop', hout', hserver, _⟩ | ⟨_, hserver⟩
      · rw [← hserver]
        exact ((h.outstanding op hop' hout').2 hediting).1
      · rw [hserver]
        exact hsettles hediting i own hop hown
    rw [heq]
    exact hsent.setState .progress

theorem Kept.releaseOps (h : s.Kept) : s.releaseOps.Kept := by
  refine h.carries (carries_releaseOp s) (ownExpires_of_none rfl) (releaseOp_frame s).1
    (releaseOp_frame s).2 ?_ ?_ ?_
  · show s.releaseOp.cfg.reg = s.cfg.reg
    rw [cfg_releaseOp]
  · show s.releaseOp.cfg.commit = s.cfg.commit
    rw [cfg_releaseOp]
  · show s.releaseOp.cfg.regSendregister = s.cfg.regSendregister
    rw [cfg_releaseOp]

/-- The proxy config is edited, and its registration disabled: it can unregister what it could. -/
theorem Unregisters.disabled {server : ServerConfig} {sent : Bool}
    (h : s.Unregisters server sent) :
    (s.edit.enableRegister false).Unregisters server sent := by
  obtain ⟨hok, hsent, i, own, r, hop, hown, hr, hsame⟩ := h
  have hedit : s.edit = ({ s with
      cfg := { s.cfg with saved := s.cfg.reg }, editing := true } : Registration).modifyOp i
        (·.stopRefreshing) := by
    unfold edit
    simp only [hop]
  refine ⟨?_, hsent, i, own.stopRefreshing, { r with started := false }, ?_, ?_, ?_, hsame⟩
  · rw [hedit]
    exact hok
  · rw [hedit]
    exact hop
  · rw [hedit]
    show (s.ops.modify i (·.stopRefreshing))[i]? = some own.stopRefreshing
    rw [List.getElem?_modify, hown]
    simp
  · simp [RegisterOp.stopRefreshing, hr]

theorem cfg_edit (s : Registration) : s.edit.cfg = { s.cfg with saved := s.cfg.reg } := by
  unfold edit
  dsimp only
  split
  · rfl
  · rfl

theorem isServerConfigChanged_self (a : ServerConfig) : isServerConfigChanged a a = .equal := by
  have hequal : ∀ a : Option SalAddress, addressEqual a a = .equal := by
    intro a
    cases a with
    | none => rfl
    | some a => simp [addressEqual]
  simp [isServerConfigChanged, hequal]

theorem outstanding_update_disabled {sent : Bool} {op' : RegisterOp}
    (hsend : s.cfg.regSendregister = false) (hmem : op' ∈ (s.update sent).ops)
    (hout : op'.Outstanding) :
    ∃ op ∈ s.ops, op.Outstanding ∧ op.server = op'.server ∧
      ¬ (s.cfg.commit = true ∧ s.Unregisters op.server sent) := by
  unfold Registration.update at hmem
  by_cases hcommit : s.cfg.commit = true
  · rw [if_pos hcommit] at hmem
    obtain ⟨op, hop, hout', hserver, hnot⟩ := outstanding_register_disabled hsend hmem hout
    exact ⟨op, hop, hout', hserver, fun h => hnot h.2⟩
  · rw [if_neg hcommit] at hmem
    exact ⟨op', hmem, hout, rfl, fun h => hcommit h.1⟩

theorem done_unchanged (sent : Bool) (hsaved : s.cfg.saved = s.cfg.reg) :
    s.done sent =
      if s.check then { s with cfg := { s.cfg with commit := true }, editing := false } else s := by
  have hleave : s.leaveServer sent = s := by
    unfold leaveServer
    rw [hsaved, isServerConfigChanged_self]
    rfl
  unfold Registration.done
  rw [hleave]

/-- **A removal.** What is outstanding after it was so before, and could not be unregistered. -/
theorem outstanding_remove {sent : Bool} {op' : RegisterOp} (hmem : op' ∈ (s.remove sent).ops)
    (hout : op'.Outstanding) :
    ∃ op ∈ s.ops, op.Outstanding ∧ op.server = op'.server ∧
      ¬ (s.check = true ∧ s.Unregisters op.server sent) := by
  unfold Registration.remove at hmem
  by_cases hok : s.cfg.state = .ok
  · simp only [hok, if_true] at hmem
    set deleted : Registration := { s with removed := true } with hdeleted
    set disabled := deleted.edit.enableRegister false with hdisabled
    have hcfg : disabled.cfg = { s.cfg with saved := s.cfg.reg, regSendregister := false } := by
      rw [hdisabled]
      show { deleted.edit.cfg with regSendregister := false } = _
      rw [cfg_edit]
    have hcheck : disabled.check = s.check := by
      unfold check
      rw [hcfg]
    rw [done_unchanged sent (by rw [hcfg]), hcheck] at hmem
    have hcarries : deleted.Carries disabled := carries_edit deleted
    cases hvalid : s.check with
    | true =>
        rw [if_pos hvalid] at hmem
        obtain ⟨op₁, hop₁, hout₁, hserver₁, hnot⟩ :=
          outstanding_update_disabled (by rw [hcfg]) hmem hout
        obtain ⟨op, hop, hout', hserver⟩ := hcarries op₁ hop₁ hout₁
        refine ⟨op, hop, hout', hserver.trans hserver₁, fun ⟨_, hunregisters⟩ => hnot ⟨rfl, ?_⟩⟩
        have hthere : deleted.Unregisters op.server sent := hunregisters
        rw [← hserver]
        exact hthere.disabled
    | false =>
        rw [if_neg (by rw [hvalid]; exact Bool.false_ne_true)] at hmem
        obtain ⟨op₁, hop₁, hout₁, hserver₁, _⟩ :=
          outstanding_update_disabled (by rw [hcfg]) hmem hout
        obtain ⟨op, hop, hout', hserver⟩ := hcarries op₁ hop₁ hout₁
        exact ⟨op, hop, hout', hserver.trans hserver₁, fun h => Bool.false_ne_true h.1⟩
  · simp only [hok, if_false] at hmem
    exact ⟨op', hmem, hout, rfl, fun hunregisters => hok hunregisters.2.1⟩

theorem Kept.remove (h : s.Kept) {sent : Bool} (hsettles : s.Settles (.remove sent)) :
    (s.remove sent).Kept := by
  refine ⟨h.expires.remove sent, fun op' hmem hout => ?_⟩
  obtain ⟨op, hop, hout', _, hnot⟩ := outstanding_remove hmem hout
  exact absurd (hsettles op hop hout') hnot

/-- **What is outstanding is kept at the server of the proxy config by each event.** -/
theorem Kept.step (h : s.Kept) {event : ProxyEvent} (hallowed : s.Allowed event)
    (hsettles : s.Settles event) : (s.step event).Kept := by
  cases event with
  | edit =>
      exact Kept.of_editing (edit_editing s).1 ((edit_editing s).2.trans hallowed) h.expires.edit
  | setServerAddr proxy => exact Kept.of_editing hallowed.1 hallowed.2 h.expires
  | setIdentity identity => exact Kept.of_editing hallowed.1 hallowed.2 h.expires
  | enableRegister val => exact Kept.of_editing hallowed.1 hallowed.2 h.expires
  | setExpires expires => exact Kept.of_editing hallowed.1 hallowed.2 h.expires
  | done sent => exact h.done hallowed hsettles
  | update sent => exact h.update hallowed hsettles
  | refreshRegister sent => exact h.refreshRegister hallowed hsettles
  | remove sent => exact h.remove hsettles
  | releaseOps => exact h.releaseOps
  | refresherFires => exact h.refresherFires
  | authenticate sent => exact h.authenticate sent
  | response i answer => exact h.response i answer

theorem Kept.run (h : s.Kept) {events : List ProxyEvent} (hallowed : Along Allowed s events)
    (hsettles : Along Settles s events) : (s.run events).Kept := by
  induction events generalizing s with
  | nil => exact h
  | cons event events ih =>
      exact ih (h.step hallowed.1 hsettles.1) hallowed.2 hsettles.2

end Registration

/-! ## Every run -/

section

variable (reg saved : ServerConfig) (sendregister : Bool) (expires : Nat)

theorem ownPointer_add :
    (linphoneCoreAddProxyConfig reg saved sendregister expires).OwnPointer := by
  intro i op hi
  cases hi

theorem kept_add : (linphoneCoreAddProxyConfig reg saved sendregister expires).Kept where
  expires := Registration.ownExpires_of_none rfl
  outstanding := by
    intro op hmem
    cases hmem

end

open Registration in
/-- **Registrations.** In every run one operation at most has the proxy config as its user pointer,
and a response to another operation changes nothing of the proxy config. When what is outstanding
can be unregistered at each change of server, disabling and removal, nothing is left at a former
server. -/
theorem registrations_unregistered (reg saved : ServerConfig) (sendregister : Bool) (expires : Nat)
    (events : List ProxyEvent)
    (hallowed : Along Allowed (linphoneCoreAddProxyConfig reg saved sendregister expires) events)
    (hsettles : Along Settles (linphoneCoreAddProxyConfig reg saved sendregister expires) events) :
    let s := (linphoneCoreAddProxyConfig reg saved sendregister expires).run events
    s.OnePointer ∧ (∀ i answer, s.cfg.op ≠ some i → (s.response i answer).cfg = s.cfg) ∧
      s.NoneLeft := by
  intro s
  have hpointer : s.OwnPointer := (ownPointer_add reg saved sendregister expires).run events
  exact ⟨hpointer.onePointer, fun i answer hother => hpointer.cfg_response hother answer,
    ((kept_add reg saved sendregister expires).run hallowed hsettles).noneLeft⟩

/-- `sip:user@host`, or `sip:host` -/
def sipAddress (user : Option String) (host : String) : SalAddress where
  uri := .sip { user := user, host := some host }

/-- `sip:al@a.org`, registered at `sip:a.org` -/
def alConfig : ServerConfig where
  identity := some (sipAddress (some "al") "a.org")
  proxy := some (sipAddress none "a.org")

/-- A registration is accepted, and the server changed. -/
def movedEvents : List ProxyEvent :=
  [.update true, .response 0 (.success true), .edit,
    .setServerAddr (some (sipAddress none "b.org")), .done true, .update true,
    .response 1 (.success true)]

theorem moved_unregistered :
    let s := (linphoneCoreAddProxyConfig alConfig alConfig true 3600).run movedEvents
    s.OnePointer ∧ (∀ i answer, s.cfg.op ≠ some i → (s.response i answer).cfg = s.cfg) ∧
      s.NoneLeft := by
  refine registrations_unregistered alConfig alConfig true 3600 movedEvents
    ⟨rfl, trivial, rfl, ⟨rfl, rfl⟩, rfl, rfl, trivial, trivial⟩
    ⟨?_, trivial, trivial, trivial, ?_, ?_, trivial, trivial⟩
  · intro _ _ hsend
    cases hsend
  · intro _ op hop _
    obtain rfl := List.mem_singleton.mp hop
    exact Or.inr ⟨by decide, rfl, rfl, 0, _, _, rfl, rfl, rfl, ServerConfig.Same.refl _⟩
  · intro _ _ hsend
    cases hsend

/-- The server is changed while the registration is in progress, and it is accepted later. -/
def movedEarlyEvents : List ProxyEvent :=
  [.update true, .edit, .setServerAddr (some (sipAddress none "b.org")), .done true, .update true,
    .response 0 (.success true)]

/-- **A registration that was in progress is left at the former server.** -/
theorem moved_early_left :
    let s := linphoneCoreAddProxyConfig alConfig alConfig true 3600
    Registration.Along Registration.Allowed s movedEarlyEvents ∧
      ¬ (s.run movedEarlyEvents).NoneLeft := by
  refine ⟨⟨rfl, rfl, ⟨rfl, rfl⟩, rfl, rfl, trivial, trivial⟩, fun hnone => ?_⟩
  have hleft := hnone _ (List.mem_cons_self ..) rfl rfl
  exact absurd (hleft.2 rfl).1 (by decide)

end Linphone
