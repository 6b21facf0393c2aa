import Linphone.Call.Transfer

/-!
# Transfers that are reported

The events of a transfer, each under its condition. A referred call is `Waiting` until its outcome
is known and `Done` then, a transfer `Reports` when its NOTIFYs agree with that, and `Settled` holds
of the original call with all of its transfers: the earlier ones are done, and a task is queued when
the last one failed.

`transfers_told`: what is expected holds in each state of a run whose events are reported.
-/

namespace Linphone

/-! ## The new call -/

namespace ReferedCall

variable {c : ReferedCall} {x : CallState}

/-- The call waits for its outcome: its start is deferred, or its INVITE unanswered. -/
structure Waiting (c : ReferedCall) : Prop where
  live : c.terminating = false
  dialog : c.dialog = .null ∨ c.dialog = .early
  place : c.vars.state = .outgoingInit ∧ c.inviteOpen = false ∨
    c.inviteOpen = true ∧
      (c.vars.state = .outgoingProgress ∨ c.vars.state = .outgoingRinging ∨
        c.vars.state = .outgoingEarlyMedia ∨
        c.vars.state = .earlyUpdating ∧
          (c.vars.prevstate = .outgoingRinging ∨ c.vars.prevstate = .outgoingEarlyMedia))

/-- The call has been answered or refused, and is not to be started. -/
structure Done (c : ReferedCall) : Prop where
  answered : c.inviteOpen = false
  state : c.vars.state ≠ .outgoingInit
  prevstate : c.vars.prevstate ≠ .outgoingInit

theorem Done.setState (h : c.Done) (hx : x ≠ .outgoingInit) : (c.setState x).Done := by
  rcases Run.setState_cases c.vars x with ⟨_, heq⟩ | ⟨_, _, heq⟩ | ⟨_, _, _, heq⟩
  · exact ⟨h.answered, by rw [ReferedCall.setState, heq]; exact h.state,
      by rw [ReferedCall.setState, heq]; exact h.prevstate⟩
  · exact ⟨h.answered, by rw [ReferedCall.setState, heq]; exact h.state,
      by rw [ReferedCall.setState, heq]; exact h.state⟩
  · exact ⟨h.answered, by rw [ReferedCall.setState, heq]; exact hx,
      by rw [ReferedCall.setState, heq]; exact h.state⟩

theorem setState_eq (hne : x ≠ c.vars.state) (hx : x ≠ .refered)
    (hended : c.vars.state.ended = false) :
    (c.setState x).vars = { state := x, prevstate := c.vars.state } := by
  rcases Run.setState_cases c.vars x with ⟨heq, _⟩ | ⟨_, href | hspurious, _⟩ | ⟨_, _, _, heq⟩
  · exact absurd heq hne
  · exact absurd href hx
  · rw [hended] at hspurious
    exact absurd hspurious.1 (by simp)
  · exact heq

/-- Where a call that waits for a response may be. -/
def InviteState (vars : StateVars) : Prop :=
  vars.state = .outgoingProgress ∨ vars.state = .outgoingRinging ∨
    vars.state = .outgoingEarlyMedia ∨
    vars.state = .earlyUpdating ∧
      (vars.prevstate = .outgoingRinging ∨ vars.prevstate = .outgoingEarlyMedia)

theorem InviteState.not_ended {vars : StateVars} (h : InviteState vars) :
    vars.state.ended = false ∧ vars.state ≠ .outgoingInit := by
  rcases h with h | h | h | ⟨h, _⟩ <;> rw [h] <;> decide

theorem Waiting.inviteState (h : c.Waiting) (hopen : c.inviteOpen = true) : InviteState c.vars := by
  rcases h.place with ⟨_, hclosed⟩ | ⟨_, hstate⟩
  · rw [hopen] at hclosed
    cases hclosed
  · exact hstate

theorem Waiting.not_ended (h : c.Waiting) : c.vars.state.ended = false := by
  rcases h.place with ⟨hinit, _⟩ | ⟨_, hstate⟩
  · rw [hinit]
    decide
  · exact (InviteState.not_ended hstate).1

/-- A ringing state is taken. -/
theorem InviteState.ringing {vars : StateVars} (h : InviteState vars)
    (hx : x = .outgoingRinging ∨ x = .outgoingEarlyMedia) : InviteState (vars.setState x).1 := by
  rcases Run.setState_cases vars x with ⟨_, heq⟩ | ⟨_, href | hspurious, _⟩ | ⟨_, _, _, heq⟩
  · rw [heq]
    exact h
  · rcases hx with rfl | rfl <;> cases href
  · rw [h.not_ended.1] at hspurious
    exact absurd hspurious.1 (by simp)
  · rw [heq]
    rcases hx with rfl | rfl
    · exact Or.inr (Or.inl rfl)
    · exact Or.inr (Or.inr (Or.inl rfl))

/-- The INVITE of a call which is in no other state is sent. -/
theorem waiting_startInvite (hlive : c.terminating = false)
    (hdialog : c.dialog = .null ∨ c.dialog = .early) (hended : c.vars.state.ended = false) :
    (c.startInvite true).Waiting := by
  have hstate : (c.startInvite true).vars.state = .outgoingProgress := by
    show (c.vars.setState .outgoingProgress).1.state = .outgoingProgress
    rcases Run.setState_cases c.vars .outgoingProgress with
      ⟨hsame, heq⟩ | ⟨_, href | hspurious, _⟩ | ⟨_, _, _, heq⟩
    · rw [heq]
      exact hsame.symm
    · cases href
    · rw [hended] at hspurious
      exact absurd hspurious.1 (by simp)
    · rw [heq]
  exact ⟨hlive, hdialog, Or.inr ⟨rfl, Or.inl hstate⟩⟩

end ReferedCall

/-! ## NOTIFYs -/

theorem neverBack_of_provisional {codes : List Nat} (h : ∀ code ∈ codes, code < 200) :
    NeverBack codes := by
  refine List.pairwise_of_forall_mem_list fun code hcode later _ hfinal => ?_
  exact absurd (h code hcode) (by omega)

theorem neverBack_append {codes : List Nat} (h : ∀ code ∈ codes, code < 200) (final : Nat) :
    NeverBack (codes ++ [final]) := by
  refine List.pairwise_append.mpr ⟨neverBack_of_provisional h, List.pairwise_singleton _ _, ?_⟩
  intro code hcode later _ hfinal
  exact absurd (h code hcode) (by omega)

/-- The NOTIFYs of a transfer agree with what is known of it. -/
def Transfer.Reports (t : Transfer) (dialogUp : Bool) : Prop :=
  match t.outcome with
  | none => (∀ code ∈ t.codes, code < 200) ∧ ∃ c, t.call = some c ∧ c.Waiting
  | some connected =>
      NeverBack t.codes ∧ (dialogUp = true → LastTells connected t.codes) ∧
        ∀ c, t.call = some c → c.Done

theorem Transfer.Reports.neverBack {t : Transfer} {dialogUp : Bool} (h : t.Reports dialogUp) :
    NeverBack t.codes := by
  unfold Reports at h
  cases houtcome : t.outcome with
  | none =>
      rw [houtcome] at h
      exact neverBack_of_provisional h.1
  | some connected =>
      rw [houtcome] at h
      exact h.1

/-- A dialog that ends leaves nothing more to tell. -/
theorem Transfer.Reports.down {t : Transfer} {dialogUp : Bool} (h : t.Reports dialogUp) :
    t.Reports false := by
  unfold Reports at h ⊢
  cases houtcome : t.outcome with
  | none =>
      rw [houtcome] at h
      exact h
  | some connected =>
      rw [houtcome] at h
      exact ⟨h.1, fun hup => absurd hup (by simp), h.2.2⟩

/-- A final NOTIFY after provisional ones. -/
theorem Transfer.reports_final {t : Transfer} {dialogUp connected : Bool} {code : Nat}
    {codes : List Nat} (hprovisional : ∀ code ∈ codes, code < 200)
    (houtcome : t.outcome = some connected)
    (hcodes : t.codes = if dialogUp then codes ++ [code] else codes)
    (hcode : if connected = true then code = 200 else 300 ≤ code)
    (hdone : ∀ c, t.call = some c → c.Done) : t.Reports dialogUp := by
  unfold Reports
  rw [houtcome]
  cases dialogUp with
  | true =>
      rw [if_pos rfl] at hcodes
      rw [hcodes]
      refine ⟨neverBack_append hprovisional code, fun _ => ⟨code, ?_, hcode⟩, hdone⟩
      rw [List.getLast?_concat]
  | false =>
      rw [if_neg Bool.false_ne_true] at hcodes
      rw [hcodes]
      exact ⟨neverBack_of_provisional hprovisional, fun hup => absurd hup (by simp), hdone⟩

/-! ## The original call -/

namespace Transferee

variable {s : Transferee} {k : Nat} {t : Transfer} {c c' : ReferedCall} {f : Transfer → Transfer}

/-- What holds after each event that is reported. -/
structure Settled (s : Transferee) : Prop where
  pending : s.referPending = false
  once : ∀ t ∈ s.transfers, t.started ≤ 1
  each : ∀ t ∈ s.transfers, t.Reports s.dialogUp
  waits : ∀ k, s.Waits k → k + 1 = s.transfers.length
  onlyFailed : ∀ outcome ∈ s.resumes, outcome = some false
  tasks : 0 < s.tasks → s.lastOutcome = some false
  whenFailed : s.lastOutcome = some false → s.pausedForTransfer = true → 0 < s.tasks
  paused : s.pausedForTransfer = true → s.wasAutomaticallyPaused = true ∧ held s.vars.state = true

theorem Settled.isTold (h : s.Settled) : s.Told where
  once := h.once
  neverBack := fun t ht => (h.each t ht).neverBack
  told := by
    intro hup t ht connected houtcome
    have hreports := h.each t ht
    unfold Transfer.Reports at hreports
    rw [houtcome] at hreports
    exact hreports.2.1 hup
  onlyFailed := h.onlyFailed
  whenFailed := h.whenFailed

theorem Waits.lastOutcome (hlast : k + 1 = s.transfers.length) (ht : s.transfers[k]? = some t) :
    s.lastOutcome = t.outcome := by
  unfold Transferee.lastOutcome
  rw [List.getLast?_eq_getElem?, ← hlast, Nat.add_sub_cancel, ht]
  rfl

/-- What becomes of the outcome of one transfer, and the tasks that are queued with it. -/
def OutcomeMove (outcome outcome' : Option Bool) (tasks : Nat) : Prop :=
  outcome' = outcome ∧ tasks = 0 ∨ outcome = none ∧ outcome' = some true ∧ tasks = 0 ∨
    outcome = none ∧ outcome' = some false ∧ tasks = 1

/-- The last outcome, after a change of one transfer. -/
theorem lastOutcome_modify (ht : s.transfers[k]? = some t) (f : Transfer → Transfer) (tasks : Nat) :
    ({ s with transfers := s.transfers.modify k f, tasks := tasks } : Transferee).lastOutcome =
      if k + 1 = s.transfers.length then (f t).outcome else s.lastOutcome := by
  unfold lastOutcome
  rw [List.getLast?_eq_getElem?, List.length_modify, List.getElem?_modify,
    List.getLast?_eq_getElem?]
  have hlt : k < s.transfers.length := (List.getElem?_eq_some_iff.mp ht).1
  by_cases hk : k + 1 = s.transfers.length
  · have hindex : s.transfers.length - 1 = k := by omega
    rw [if_pos hk, hindex, ht]
    simp
  · have hindex : k ≠ s.transfers.length - 1 := by omega
    rw [if_neg hk]
    simp only [hindex, if_false]
    cases s.transfers[s.transfers.length - 1]? <;> rfl

theorem getElem?_modify_cases {t t' : Transfer} {j : Nat} (ht : s.transfers[k]? = some t)
    (hj : (s.transfers.modify k f)[j]? = some t') :
    j = k ∧ t' = f t ∨ j ≠ k ∧ s.transfers[j]? = some t' := by
  rw [List.getElem?_modify] at hj
  obtain ⟨t₀, ht₀, rfl⟩ := Option.map_eq_some_iff.mp hj
  by_cases hkj : k = j
  · subst hkj
    rw [if_pos rfl, Option.some.inj (ht₀.symm.trans ht)]
    exact Or.inl ⟨rfl, rfl⟩
  · rw [if_neg hkj]
    exact Or.inr ⟨fun heq => hkj heq.symm, ht₀⟩

/-- **A change of one transfer**, with the task it queues. -/
theorem Settled.modify (h : s.Settled) (ht : s.transfers[k]? = some t) {n : Nat}
    (hstarted : (f t).started = t.started) (hreports : (f t).Reports s.dialogUp)
    (hmove : OutcomeMove t.outcome (f t).outcome n) :
    ({ s with
      transfers := s.transfers.modify k f, tasks := s.tasks + n } : Transferee).Settled := by
  have hlast : t.outcome = none → k + 1 = s.transfers.length ∧ s.lastOutcome = none := by
    intro hnone
    have hk := h.waits k ⟨t, ht, hnone⟩
    exact ⟨hk, (Waits.lastOutcome hk ht).trans hnone⟩
  have hidle : s.lastOutcome = none → s.tasks = 0 := by
    intro hnone
    by_contra hpos
    rw [h.tasks (Nat.pos_of_ne_zero hpos)] at hnone
    cases hnone
  have houtcome := lastOutcome_modify ht f (s.tasks + n)
  have hmem : ∀ t' ∈ s.transfers.modify k f, t' ∈ s.transfers ∨ t' = f t := by
    intro t' hmem
    obtain ⟨j, hj⟩ := List.mem_iff_getElem?.mp hmem
    rcases getElem?_modify_cases ht hj with ⟨_, heq⟩ | ⟨_, hold⟩
    · exact Or.inr heq
    · exact Or.inl (List.mem_of_getElem? hold)
  refine ⟨h.pending, ?_, ?_, ?_, h.onlyFailed, ?_, ?_, h.paused⟩
  · intro t' ht'
    rcases hmem t' ht' with hold | rfl
    · exact h.once t' hold
    · rw [hstarted]
      exact h.once t (List.mem_of_getElem? ht)
  · intro t' ht'
    rcases hmem t' ht' with hold | rfl
    · exact h.each t' hold
    · exact hreports
  · rintro j ⟨t', hj, hnone⟩
    show j + 1 = (s.transfers.modify k f).length
    rw [List.length_modify]
    rcases getElem?_modify_cases ht hj with ⟨rfl, rfl⟩ | ⟨_, hold⟩
    · rcases hmove with ⟨hsame, _⟩ | ⟨_, htrue, _⟩ | ⟨_, hfalse, _⟩
      · exact (hlast (hsame.symm.trans hnone)).1
      · rw [hnone] at htrue
        cases htrue
      · rw [hnone] at hfalse
        cases hfalse
    · exact h.waits j ⟨t', hold, hnone⟩
  · intro hpos
    rw [houtcome]
    rcases hmove with ⟨hsame, rfl⟩ | ⟨hnone, _, rfl⟩ | ⟨hnone, hfalse, _⟩
    · split
      · rename_i hk
        rw [hsame, ← Waits.lastOutcome hk ht]
        exact h.tasks hpos
      · exact h.tasks hpos
    · have hpos' : 0 < s.tasks := hpos
      rw [hidle (hlast hnone).2] at hpos'
      exact absurd hpos' (Nat.lt_irrefl 0)
    · rw [if_pos (hlast hnone).1, hfalse]
  · intro hfailed hpaused
    rw [houtcome] at hfailed
    show 0 < s.tasks + n
    rcases hmove with ⟨hsame, rfl⟩ | ⟨hnone, htrue, _⟩ | ⟨_, _, rfl⟩
    · refine h.whenFailed ?_ hpaused
      by_cases hk : k + 1 = s.transfers.length
      · rw [if_pos hk, hsame] at hfailed
        exact (Waits.lastOutcome hk ht).trans hfailed
      · rw [if_neg hk] at hfailed
        exact hfailed
    · rw [if_pos (hlast hnone).1, htrue] at hfailed
      cases hfailed
    · exact Nat.succ_pos _

theorem Settled.modifyTransfer (h : s.Settled) (ht : s.transfers[k]? = some t)
    (hstarted : (f t).started = t.started) (hreports : (f t).Reports s.dialogUp)
    (hmove : OutcomeMove t.outcome (f t).outcome 0) : (s.modifyTransfer k f).Settled :=
  h.modify ht hstarted hreports hmove

theorem notifyReferState_eq (s : Transferee) (k : Nat) (c : ReferedCall) :
    s.notifyReferState k c = s.modifyTransfer k fun t =>
      { t with codes := if s.dialogUp then t.codes ++ [c.notifyCode] else t.codes } := by
  unfold notifyReferState
  cases s.dialogUp with
  | true => rfl
  | false =>
      unfold modifyTransfer
      simp only [Bool.false_eq_true, if_false]
      rw [show (fun t : Transfer => { t with codes := t.codes }) = id from rfl, List.modify_id]

theorem modifyTransfer_modifyTransfer (s : Transferee) (k : Nat) (f g : Transfer → Transfer) :
    (s.modifyTransfer k f).modifyTransfer k g = s.modifyTransfer k (g ∘ f) := by
  unfold modifyTransfer
  rw [List.modify_modify_eq]

theorem referedCall_some (h : s.referedCall k = some c) :
    ∃ t, s.transfers[k]? = some t ∧ t.call = some c := by
  obtain ⟨hcall, _⟩ := Option.filter_eq_some_iff.mp h
  exact Option.bind_eq_some_iff.mp hcall

/-- A call that waits goes on waiting. -/
theorem Settled.waiting (h : s.Settled) (ht : s.transfers[k]? = some t) (hnone : t.outcome = none)
    (hwaiting : c.Waiting) (hf : f t = { t with call := some c }) :
    (s.modifyTransfer k f).Settled := by
  refine h.modifyTransfer ht (by rw [hf]) ?_ (Or.inl ⟨by rw [hf], rfl⟩)
  have hreports := h.each t (List.mem_of_getElem? ht)
  unfold Transfer.Reports at hreports ⊢
  rw [hnone] at hreports
  simp only [hf, hnone]
  exact ⟨hreports.1, c, rfl, hwaiting⟩

/-- A call that is done stays done. -/
theorem Settled.done (h : s.Settled) {connected : Bool} (ht : s.transfers[k]? = some t)
    (hsome : t.outcome = some connected) (hdone : c.Done) (hf : f t = { t with call := some c }) :
    (s.modifyTransfer k f).Settled := by
  refine h.modifyTransfer ht (by rw [hf]) ?_ (Or.inl ⟨by rw [hf], rfl⟩)
  have hreports := h.each t (List.mem_of_getElem? ht)
  unfold Transfer.Reports at hreports ⊢
  rw [hsome] at hreports
  simp only [hf, hsome]
  refine ⟨hreports.1, hreports.2.1, fun c' hc' => ?_⟩
  rw [← Option.some.inj hc']
  exact hdone

/-! ## Calls that are done -/

/-- A failure of a call that is being paused, resumed or updated is not fatal. -/
theorem callFailure_restorable (hrestorable : c.restorable = true) (reason : SalReason)
    (sent : Bool) :
    s.callFailure k c reason false false sent = s.modifyTransfer k fun t =>
      { t with
        call := some (c.setState c.vars.prevstate)
        outcome := t.outcome.or (some false) } := by
  have hrestarts : c.restarts reason false false = false := by
    unfold ReferedCall.restarts
    split <;> simp
  have hfail : c.fail reason = (c.setState c.vars.prevstate, false) := by
    unfold ReferedCall.fail
    rw [if_pos (Or.inr hrestorable)]
  unfold callFailure
  simp only [hrestarts, hfail, Bool.false_eq_true, if_false]

/-- **Events of a call that is done** tell nothing. -/
theorem Settled.referedStep_done (h : s.Settled) {connected : Bool} (ht : s.transfers[k]? = some t)
    (hsome : t.outcome = some connected) (hdone : c.Done) {event : ReferedEvent}
    (hreported : s.Reported (.refered k event)) : (s.referedStep k c event).Settled := by
  have hset : ∀ {c' : ReferedCall}, c'.Done → (s.setCall k c').Settled := fun hdone' =>
    h.done ht hsome hdone' rfl
  have hclosed : c.inviteOpen = false := hdone.answered
  cases event with
  | proceed sent =>
      have hnot : ¬ (c.vars.state = .outgoingInit ∧ c.inviteOpen = false) :=
        fun hinit => hdone.state hinit.1
      simp only [referedStep, proceed, if_neg hnot]
      exact h
  | provisional code tagged media =>
      simp [referedStep, provisional, hclosed]
      exact h
  | accepted media =>
      simp [referedStep, accepted, hclosed]
      exact h
  | refused code contact retryable sent =>
      simp [referedStep, refused, hclosed]
      exact h
  | noResponse io =>
      simp [referedStep, noResponse, hclosed]
      exact h
  | earlyUpdate =>
      unfold referedStep earlyUpdate
      dsimp only
      split
      · exact hset (ReferedCall.Done.setState ⟨hclosed, hdone.state, hdone.prevstate⟩ (by decide))
      · exact h
  | earlyUpdateAnswered code =>
      unfold referedStep earlyUpdateAnswered
      dsimp only
      split
      · refine hset ?_
        split
        · exact ReferedCall.Done.setState ⟨hclosed, hdone.state, hdone.prevstate⟩ hdone.prevstate
        · exact ⟨hclosed, hdone.state, hdone.prevstate⟩
      · exact h
  | terminate =>
      unfold referedStep terminate
      dsimp only
      split
      · refine h.done ht hsome (c := ReferedCall.setState _ .end) ?_ (by rw [hsome]; rfl)
        refine ReferedCall.Done.setState ?_ (by decide)
        split
        · exact ⟨rfl, hdone.state, hdone.prevstate⟩
        · split
          · exact ⟨hclosed, hdone.state, hdone.prevstate⟩
          · exact ⟨hclosed, hdone.state, hdone.prevstate⟩
      · exact h
  | terminatedByPeer =>
      unfold referedStep terminatedByPeer
      dsimp only
      split
      · exact hset (ReferedCall.Done.setState ⟨hclosed, hdone.state, hdone.prevstate⟩ (by decide))
      · exact h
  | endedAnswered code =>
      have hcode : ¬ 300 ≤ code := Nat.not_le_of_lt hreported
      unfold referedStep endedAnswered
      simp only [if_neg hcode]
      split
      · exact hset ⟨hclosed, hdone.state, hdone.prevstate⟩
      · exact h
  | reinvite next =>
      unfold referedStep reinvite
      dsimp only
      split
      · rename_i hnext
        refine hset (ReferedCall.Done.setState ⟨hclosed, hdone.state, hdone.prevstate⟩ ?_)
        rcases hnext.2.2 with rfl | rfl | rfl <;> decide
      · exact h
  | reinviteAnswered code dir =>
      unfold referedStep reinviteAnswered
      dsimp only
      split
      · rename_i hopen
        have hdone' : ({ c with lastResponse := some code } : ReferedCall).Done :=
          ⟨hclosed, hdone.state, hdone.prevstate⟩
        split
        · have hrestore : s.callFailure k { c with lastResponse := some code }
              (salReasonFromSipCode code) false false false =
              s.modifyTransfer k fun t =>
                { t with
                  call := some (ReferedCall.setState { c with lastResponse := some code }
                    c.vars.prevstate)
                  outcome := t.outcome.or (some false) } :=
            callFailure_restorable (c := { c with lastResponse := some code }) hopen.2.2 _ _
          rw [hrestore]
          exact h.done ht hsome (hdone'.setState hdone.prevstate) (by rw [hsome]; rfl)
        · exact hset (hdone'.setState (by cases dir <;> decide))
      · exact h
  | released =>
      unfold referedStep callReleased
      dsimp only
      split
      · exact hset (hdone.setState (by decide))
      · exact h

/-! ## Calls that wait -/

theorem responded_frame (c : ReferedCall) (code : Nat) :
    (c.responded code).terminating = c.terminating ∧ (c.responded code).dialog = c.dialog ∧
      (c.responded code).inviteOpen = c.inviteOpen ∧ (c.responded code).vars = c.vars ∧
      (c.responded code).inviteTrans = c.inviteTrans := by
  unfold ReferedCall.responded
  split
  · exact ⟨rfl, rfl, rfl, rfl, rfl⟩
  · exact ⟨rfl, rfl, rfl, rfl, rfl⟩

/-- **A provisional response** leaves the call waiting. -/
theorem Settled.provisional (h : s.Settled) (ht : s.transfers[k]? = some t)
    (hnone : t.outcome = none) (hwaiting : c.Waiting) (code : Nat) (tagged media : Bool) :
    (s.provisional k c code tagged media).Settled := by
  have hset : ∀ {c' : ReferedCall}, c'.Waiting → (s.setCall k c').Settled := fun hwaiting' =>
    h.waiting ht hnone hwaiting' rfl
  unfold Transferee.provisional
  split
  · rename_i hopen
    obtain ⟨hterminating, hdialog, hinvite, hvars, _⟩ := responded_frame c code
    have hstate := hwaiting.inviteState hopen.1
    dsimp only
    set c₁ : ReferedCall :=
      if tagged = true then { c.responded code with dialog := .early } else c.responded code
      with hc₁
    have hframe : c₁.terminating = false ∧ (c₁.dialog = .null ∨ c₁.dialog = .early) ∧
        c₁.inviteOpen = true ∧ c₁.vars = c.vars := by
      rw [hc₁]
      split
      · exact ⟨hterminating.trans hwaiting.live, Or.inr rfl, hinvite.trans hopen.1, hvars⟩
      · exact ⟨hterminating.trans hwaiting.live, hdialog ▸ hwaiting.dialog,
          hinvite.trans hopen.1, hvars⟩
    obtain ⟨hlive, hdialog', hopen', hvars'⟩ := hframe
    split
    · refine hset ⟨hlive, hdialog', Or.inr ⟨hopen', ?_⟩⟩
      show ReferedCall.InviteState (c₁.vars.setState _).1
      rw [hvars']
      refine hstate.ringing ?_
      cases media with
      | false => exact Or.inl rfl
      | true => exact Or.inr rfl
    · refine hset ⟨hlive, hdialog', Or.inr ⟨hopen', ?_⟩⟩
      rw [hvars']
      exact hstate
  · exact h

/-- **An acceptance**: the referer is told 200. -/
theorem Settled.accepted (h : s.Settled) (ht : s.transfers[k]? = some t) (hnone : t.outcome = none)
    (hwaiting : c.Waiting) (hcodes : ∀ code ∈ t.codes, code < 200)
    (hstate : c.vars.state ≠ .earlyUpdating) (media : Option SalStreamDir) :
    (s.accepted k c media).Settled := by
  unfold Transferee.accepted
  split
  · rename_i hopen
    obtain ⟨hterminating, _, _, hvars, _⟩ := responded_frame c 200
    obtain ⟨c₁, hc₁⟩ : ∃ c₁ : ReferedCall,
        c₁ = { c.responded 200 with inviteOpen := false, dialog := .confirmed } := ⟨_, rfl⟩
    have hlive : c₁.terminating = false := by
      rw [hc₁]
      exact hterminating.trans hwaiting.live
    have hclosed : c₁.inviteOpen = false := by rw [hc₁]
    have hconfirmed : c₁.dialog = .confirmed := by rw [hc₁]
    have hvars₁ : c₁.vars = c.vars := by
      rw [hc₁]
      exact hvars
    rw [← hc₁]
    dsimp only
    have hplace : c₁.vars.state = .outgoingProgress ∨ c₁.vars.state = .outgoingRinging ∨
        c₁.vars.state = .outgoingEarlyMedia := by
      rw [hvars₁]
      rcases hwaiting.inviteState hopen with hat | hat | hat | ⟨hat, _⟩
      · exact Or.inl hat
      · exact Or.inr (Or.inl hat)
      · exact Or.inr (Or.inr hat)
      · exact absurd hat hstate
    have hconnected : (c₁.setState .connected).vars =
        { state := .connected, prevstate := c₁.vars.state } := by
      rcases hplace with hat | hat | hat <;>
        exact ReferedCall.setState_eq (by rw [hat]; decide) (by decide) (by rw [hat]; decide)
    have hdone : (c₁.setState .connected).Done := by
      refine ⟨hclosed, fun hinit => ?_, ?_⟩
      · rw [hconnected] at hinit
        cases hinit
      · rw [hconnected]
        rcases hplace with hat | hat | hat <;> rw [hat] <;> decide
    -- the call is told of, and goes on with its media or is aborted
    have htold : ∀ {c' : ReferedCall}, c'.Done →
        (((s.modifyTransfer k fun t => { t with outcome := t.outcome.or (some true) })
          |>.notifyReferState k (c₁.setState .connected)).setCall k c').Settled := by
      intro c' hdone'
      rw [notifyReferState_eq, setCall, modifyTransfer_modifyTransfer,
        modifyTransfer_modifyTransfer]
      refine h.modifyTransfer ht rfl ?_ (Or.inr (Or.inl ⟨hnone, by simp [hnone], rfl⟩))
      have houtcome : t.outcome.or (some true) = some true := by rw [hnone]; rfl
      have hcode : (c₁.setState .connected).notifyCode = 200 := by
        unfold ReferedCall.notifyCode
        rw [show (c₁.setState .connected).dialog = .confirmed from hconfirmed]
      refine Transfer.reports_final hcodes houtcome rfl (by rw [if_pos rfl]; exact hcode) ?_
      intro c'' hc''
      rw [← Option.some.inj hc'']
      exact hdone'
    rw [hlive, if_neg Bool.false_ne_true]
    cases media with
    | some dir =>
        have hnext := htold (hdone.setState (x := acceptedState dir) (by cases dir <;> decide))
        rcases hplace with hat | hat | hat
        · simpa only [hat] using hnext
        · simpa only [hat] using hnext
        · simpa only [hat] using hnext
    | none =>
        have haborted : (ReferedCall.setState
            { c₁.setState .connected with terminating := true } .error).Done :=
          ReferedCall.Done.setState ⟨hdone.1, hdone.2, hdone.3⟩ (by decide)
        have hnext := htold haborted
        rcases hplace with hat | hat | hat
        · simpa only [hat] using hnext
        · simpa only [hat] using hnext
        · simpa only [hat] using hnext
  · exact h

/-- The failure of a call that is neither restarted nor restored. -/
theorem callFailure_told {reason : SalReason} {contact retryable : Bool} (sent : Bool)
    (hrestarts : c.restarts reason contact retryable = false) (hreason : reason ≠ .requestPending)
    (hstate : ReferedCall.InviteState c.vars) :
    ∃ x, (x = .end ∨ x = .error) ∧
      s.callFailure k c reason contact retryable sent =
        { (s.modifyTransfer k fun t =>
            { t with
              call := some (c.setState x)
              outcome := t.outcome.or (some false)
              codes :=
                if s.dialogUp then t.codes ++ [(c.setState x).notifyCode] else t.codes }) with
          tasks := s.tasks + 1 } := by
  have hrestorable : c.restorable = false := by
    unfold ReferedCall.restorable
    rcases hstate with hat | hat | hat | ⟨hat, _⟩ <;> rw [hat] <;> decide
  have hnot : ¬ (reason = .requestPending ∨ c.restorable = true) := by
    rintro (hpending | hrestore)
    · exact hreason hpending
    · rw [hrestorable] at hrestore
      cases hrestore
  refine ⟨if reason = .declined then .end else .error, ?_, ?_⟩
  · split
    · exact Or.inl rfl
    · exact Or.inr rfl
  · unfold callFailure ReferedCall.fail
    simp only [hrestarts, Bool.false_eq_true, if_false, if_neg hnot, hstate.not_ended.1, if_true]
    rw [notifyReferState_eq, modifyTransfer_modifyTransfer]
    rfl

/-- **A refusal**: the call is restarted, or the referer is told the code and the original call is
to be resumed. -/
theorem Settled.refused (h : s.Settled) (ht : s.transfers[k]? = some t) (hnone : t.outcome = none)
    (hwaiting : c.Waiting) (hcodes : ∀ code ∈ t.codes, code < 200) {code : Nat}
    {contact retryable sent : Bool} (hreason : salReasonFromSipCode code ≠ .requestPending)
    (htrans : c.inviteTrans = true)
    (hsent : c.restarts (salReasonFromSipCode code) contact retryable = true → sent = true) :
    (s.refused k c code contact retryable sent).Settled := by
  unfold Transferee.refused
  split
  · rename_i hopen
    obtain ⟨hterminating, _, _, hvars, _⟩ := responded_frame c code
    have hresponse : (c.responded code).lastResponse = some code := by
      unfold ReferedCall.responded
      rw [if_pos htrans]
    obtain ⟨c₁, hc₁⟩ : ∃ c₁ : ReferedCall,
        c₁ = { c.responded code with
          inviteOpen := false
          dialog := if c.dialog = .early then .terminated else c.dialog } := ⟨_, rfl⟩
    have hvars₁ : c₁.vars = c.vars := by
      rw [hc₁]
      exact hvars
    have hdialog : c₁.dialog = .null ∨ c₁.dialog = .terminated := by
      rw [hc₁]
      show (if c.dialog = .early then DialogState.terminated else c.dialog) = .null ∨
        (if c.dialog = .early then DialogState.terminated else c.dialog) = .terminated
      rcases hwaiting.dialog with hat | hat <;> rw [hat] <;> decide
    have hstate : ReferedCall.InviteState c₁.vars := by
      rw [hvars₁]
      exact hwaiting.inviteState hopen.1
    have hgoes : ¬ (c.responded code).terminating = true := by
      rw [hterminating, hwaiting.live]
      exact Bool.false_ne_true
    dsimp only at hc₁ ⊢
    rw [if_neg hgoes, ← hc₁]
    cases hrestarts : c₁.restarts (salReasonFromSipCode code) contact retryable with
    | true =>
        have hsame : c.restarts (salReasonFromSipCode code) contact retryable = true := by
          unfold ReferedCall.restarts at hrestarts ⊢
          rw [hvars₁] at hrestarts
          exact hrestarts
        have hrestart : (c₁.restartInvite true).Waiting :=
          ReferedCall.waiting_startInvite (c := { vars := c₁.vars }) rfl (Or.inl rfl)
            hstate.not_ended.1
        unfold callFailure
        rw [hrestarts, hsent hsame]
        exact h.waiting ht hnone hrestart rfl
    | false =>
        obtain ⟨x, hx, heq⟩ := callFailure_told (s := s) (k := k) sent hrestarts hreason
          hstate
        rw [heq]
        have hx' : x ≠ c₁.vars.state ∧ x ≠ .refered := by
          rcases hx with rfl | rfl <;>
            rcases hstate with hat | hat | hat | ⟨hat, _⟩ <;> rw [hat] <;> decide
        have hafter := ReferedCall.setState_eq hx'.1 hx'.2 hstate.not_ended.1
        have hdone : (c₁.setState x).Done := by
          refine ⟨by rw [ReferedCall.setState, hc₁], ?_, ?_⟩
          · rw [hafter]
            rcases hx with rfl | rfl <;> exact CallState.noConfusion
          · rw [hafter]
            exact hstate.not_ended.2
        have hcode : (c₁.setState x).notifyCode = code := by
          have hlast : (c₁.setState x).lastResponse = some code := by
            rw [ReferedCall.setState, hc₁]
            exact hresponse
          unfold ReferedCall.notifyCode
          rcases hdialog with hat | hat
          · rw [show (c₁.setState x).dialog = .null from hat, hlast]
            rfl
          · rw [show (c₁.setState x).dialog = .terminated from hat, hlast]
            rfl
        refine h.modify ht (n := 1) rfl ?_ (Or.inr (Or.inr ⟨hnone, by simp [hnone], rfl⟩))
        have houtcome : t.outcome.or (some false) = some false := by rw [hnone]; rfl
        refine Transfer.reports_final hcodes houtcome rfl ?_ ?_
        · rw [hcode]
          exact hopen.2
        · intro c' hc'
          rw [← Option.some.inj hc']
          exact hdone
  · exact h

/-- **Events of a call that waits**: it goes on waiting, or its outcome is told. -/
theorem Settled.referedStep_waiting (h : s.Settled) (ht : s.transfers[k]? = some t)
    (hnone : t.outcome = none) (hcall : s.referedCall k = some c) (hwaiting : c.Waiting)
    (hcodes : ∀ code ∈ t.codes, code < 200) {event : ReferedEvent}
    (hreported : s.Reported (.refered k event)) : (s.referedStep k c event).Settled := by
  have hwaits : s.Waits k := ⟨t, ht, hnone⟩
  have hset : ∀ {c' : ReferedCall}, c'.Waiting → (s.setCall k c').Settled := fun hwaiting' =>
    h.waiting ht hnone hwaiting' rfl
  have hconfirmed : c.dialog ≠ .confirmed := by
    rcases hwaiting.dialog with hat | hat <;> rw [hat] <;> decide
  cases event with
  | proceed sent =>
      have hsent : sent = true := hreported hwaits
      unfold referedStep Transferee.proceed
      dsimp only
      split
      · refine h.waiting ht hnone (c := c.startInvite sent) ?_ (by rw [hsent])
        rw [hsent]
        exact ReferedCall.waiting_startInvite hwaiting.live hwaiting.dialog hwaiting.not_ended
      · exact h
  | provisional code tagged media => exact h.provisional ht hnone hwaiting code tagged media
  | accepted media => exact h.accepted ht hnone hwaiting hcodes (hreported hwaits c hcall) media
  | refused code contact retryable sent =>
      obtain ⟨hreason, hcond⟩ := hreported hwaits
      obtain ⟨htrans, hsent⟩ := hcond c hcall
      exact h.refused ht hnone hwaiting hcodes hreason htrans hsent
  | noResponse io => exact absurd hwaits hreported
  | earlyUpdate =>
      unfold referedStep Transferee.earlyUpdate
      dsimp only
      split
      · rename_i hringing
        have hopen : c.inviteOpen = true := by
          rcases hwaiting.place with ⟨hinit, _⟩ | ⟨hopen, _⟩
          · rw [hinit] at hringing
            rcases hringing with hat | hat <;> cases hat
          · exact hopen
        refine hset ⟨hwaiting.live, hwaiting.dialog, Or.inr ⟨hopen, Or.inr (Or.inr (Or.inr ?_))⟩⟩
        have hafter : (ReferedCall.setState
            { c with inviteTrans := false, lastResponse := none } .earlyUpdating).vars =
              { state := .earlyUpdating, prevstate := c.vars.state } := by
          refine ReferedCall.setState_eq ?_ (by decide) hwaiting.not_ended
          show CallState.earlyUpdating ≠ c.vars.state
          rcases hringing with hat | hat <;> rw [hat] <;> decide
        rw [hafter]
        exact ⟨rfl, hringing⟩
      · exact h
  | earlyUpdateAnswered code =>
      unfold referedStep Transferee.earlyUpdateAnswered
      dsimp only
      split
      · rename_i hupdating
        have hopen : c.inviteOpen = true := by
          rcases hwaiting.place with ⟨hinit, _⟩ | ⟨hopen, _⟩
          · rw [hinit] at hupdating
            cases hupdating.2.2
          · exact hopen
        have hstate := hwaiting.inviteState hopen
        refine hset ?_
        split
        · refine ⟨hwaiting.live, hwaiting.dialog, Or.inr ⟨hopen, ?_⟩⟩
          refine hstate.ringing ?_
          rcases hstate with hat | hat | hat | ⟨_, hprev⟩
          · rw [hupdating.2.2] at hat
            cases hat
          · rw [hupdating.2.2] at hat
            cases hat
          · rw [hupdating.2.2] at hat
            cases hat
          · exact hprev
        · exact ⟨hwaiting.live, hwaiting.dialog, Or.inr ⟨hopen, hstate⟩⟩
      · exact h
  | terminate => exact absurd hwaits hreported
  | terminatedByPeer =>
      simp only [referedStep, terminatedByPeer, if_neg hconfirmed]
      exact h
  | endedAnswered code =>
      simp only [referedStep, endedAnswered, hwaiting.live, Bool.false_eq_true, false_and, if_false]
      exact h
  | reinvite next =>
      simp only [referedStep, reinvite, hconfirmed, false_and, if_false]
      exact h
  | reinviteAnswered code dir =>
      simp only [referedStep, reinviteAnswered, hconfirmed, false_and, if_false]
      exact h
  | released =>
      simp only [referedStep, callReleased, hwaiting.not_ended, Bool.false_eq_true, if_false]
      exact h

/-- **Events of a referred call.** -/
theorem Settled.refered (h : s.Settled) {event : ReferedEvent}
    (hreported : s.Reported (.refered k event)) : (s.step (.refered k event)).Settled := by
  unfold step
  dsimp only
  cases hcall : s.referedCall k with
  | none => exact h
  | some c =>
      obtain ⟨t, ht, htc⟩ := referedCall_some hcall
      have hreports := h.each t (List.mem_of_getElem? ht)
      unfold Transfer.Reports at hreports
      cases houtcome : t.outcome with
      | none =>
          rw [houtcome] at hreports
          obtain ⟨hcodes, c', hc', hwaiting⟩ := hreports
          rw [← Option.some.inj (htc.symm.trans hc')] at hwaiting
          exact h.referedStep_waiting ht houtcome hcall hwaiting hcodes hreported
      | some connected =>
          rw [houtcome] at hreports
          exact h.referedStep_done ht houtcome (hreports.2.2 c htc) hreported

/-! ## A REFER -/

/-- A pause made for a transfer is in force, and known as an automatic one. -/
def HeldBack (s : Transferee) : Prop :=
  s.pausedForTransfer = true → s.wasAutomaticallyPaused = true ∧ held s.vars.state = true

theorem HeldBack.setState (h : s.HeldBack) (x : CallState) : (s.setState x).HeldBack := by
  intro hpaused
  obtain ⟨hbefore, hheld⟩ := Bool.and_eq_true_iff.mp hpaused
  exact ⟨(h hbefore).1, hheld⟩

theorem HeldBack.pauseCall (h : s.HeldBack) (pausable : Bool) :
    ({ s.pauseCall pausable with wasAutomaticallyPaused := true } : Transferee).HeldBack := by
  intro hpaused
  refine ⟨rfl, ?_⟩
  unfold Transferee.pauseCall at hpaused ⊢
  split
  · rename_i hrunning
    show held (s.vars.setState .pausing).1.state = true
    rcases Run.setState_cases s.vars .pausing with ⟨hsame, heq⟩ | ⟨_, href | hended, _⟩ |
      ⟨_, _, _, heq⟩
    · rw [heq, ← hsame]
      decide
    · cases href
    · rcases hrunning.1 with hat | hat <;>
        · rw [hat] at hended
          exact absurd hended.1 (by decide)
    · rw [heq]
      rfl
  · rename_i hstays
    rw [if_neg hstays] at hpaused
    exact (h hpaused).2

/-- The original call, as `linphone_core_start_refered_call` leaves it before the new call. -/
def madeReady (s : Transferee) (env : StartEnv) : Transferee :=
  { (if s.vars.state ≠ .paused then
      { s.pauseCall env.pausable with wasAutomaticallyPaused := true }
    else s) with referPending := false }

theorem HeldBack.madeReady (h : s.HeldBack) (env : StartEnv) : (s.madeReady env).HeldBack := by
  unfold Transferee.madeReady
  split
  · exact h.pauseCall env.pausable
  · exact h

theorem madeReady_frame (s : Transferee) (env : StartEnv) :
    (s.madeReady env).transfers = s.transfers ∧ (s.madeReady env).dialogUp = s.dialogUp ∧
      (s.madeReady env).tasks = s.tasks ∧ (s.madeReady env).resumes = s.resumes ∧
      (s.madeReady env).referPending = false := by
  unfold madeReady pauseCall
  split
  · split
    · exact ⟨rfl, rfl, rfl, rfl, rfl⟩
    · exact ⟨rfl, rfl, rfl, rfl, rfl⟩
  · exact ⟨rfl, rfl, rfl, rfl, rfl⟩

/-- The start of a call that is made, and not refused at once. -/
theorem startReferedCall_eq (s : Transferee) {env : StartEnv} (hcreated : env.created = true)
    (hstarts : env.deferred = true ∨ env.sent = true) :
    s.startReferedCall env =
      (s.madeReady env).modifyTransfer ((s.madeReady env).transfers.length - 1) fun t =>
        { t with
          started := t.started + 1
          call := some (newCall env)
          outcome := none
          codes :=
            if (s.madeReady env).dialogUp then t.codes ++ [(newCall env).notifyCode]
            else t.codes } := by
  have hboth : (env.deferred || env.sent) = true := by
    rw [Bool.or_eq_true]
    exact hstarts
  unfold startReferedCall
  dsimp only
  rw [if_pos hcreated, notifyReferState_eq, modifyTransfer_modifyTransfer]
  simp only [hboth, if_true]
  rfl

theorem startReferedCall_pending (s : Transferee) (env : StartEnv) :
    (s.startReferedCall env).referPending = false := by
  unfold startReferedCall
  dsimp only
  split
  · rw [notifyReferState_eq]
    rfl
  · rfl

/-- The call is started once, by the application or by `refer_received`. -/
theorem refer_eq (target byApplication : Bool) (env : StartEnv) :
    s.refer target byApplication env =
      if target ∧ s.dialogUp then
        (Transferee.setState
          { s with referPending := true, transfers := s.transfers ++ [({} : Transfer)] }
          .refered).startReferedCall env
      else s := by
  unfold refer
  split
  · dsimp only
    cases byApplication && !s.vars.state.ended with
    | true =>
        rw [if_pos rfl, startReferedCall_pending, if_neg Bool.false_ne_true]
    | false =>
        rw [if_neg Bool.false_ne_true]
        rfl
  · rfl

theorem newCall_waiting {env : StartEnv} (hstarts : env.deferred = true ∨ env.sent = true) :
    (newCall env).Waiting ∧ (newCall env).notifyCode = 100 := by
  obtain ⟨pausable, created, deferred, sent⟩ := env
  cases deferred with
  | true => exact ⟨⟨rfl, Or.inl rfl, Or.inl ⟨rfl, rfl⟩⟩, rfl⟩
  | false =>
      cases sent with
      | true => exact ⟨⟨rfl, Or.inl rfl, Or.inr ⟨rfl, Or.inl rfl⟩⟩, rfl⟩
      | false => rcases hstarts with hstarts | hstarts <;> cases hstarts

theorem modify_concat {α : Type*} (l : List α) (x : α) (f : α → α) :
    (l ++ [x]).modify l.length f = l ++ [f x] := by
  induction l with
  | nil => rfl
  | cons y l ih => rw [List.cons_append, List.length_cons, List.modify_succ_cons, ih]; rfl

/-- **A REFER**, when the transfers before it are settled. -/
theorem Settled.refer (h : s.Settled) {target byApplication : Bool} {env : StartEnv}
    (hreported : s.Reported (.refer target byApplication env)) :
    (s.refer target byApplication env).Settled := by
  obtain ⟨hcreated, hstarts, htasks, hsettled⟩ := hreported
  rw [refer_eq]
  split
  · rename_i hgoes
    obtain ⟨s₁, hs₁⟩ : ∃ s₁ : Transferee, s₁ = Transferee.setState
        { s with referPending := true, transfers := s.transfers ++ [({} : Transfer)] }
          .refered := ⟨_, rfl⟩
    have hback : s₁.HeldBack := by
      rw [hs₁]
      exact HeldBack.setState h.paused _
    obtain ⟨htransfers, hdialog, htasks₁, hresumes, hpending⟩ := madeReady_frame s₁ env
    rw [← hs₁, startReferedCall_eq s₁ hcreated hstarts]
    have hready := hback.madeReady env
    generalize s₁.madeReady env = s₂ at htransfers hdialog htasks₁ hresumes hpending hready ⊢
    rw [hs₁] at htransfers hdialog htasks₁ hresumes
    have htransfers₂ : s₂.transfers = s.transfers ++ [({} : Transfer)] := htransfers
    have hdialog₂ : s₂.dialogUp = s.dialogUp := hdialog
    have hlength : s₂.transfers.length - 1 = s.transfers.length := by
      rw [htransfers₂, List.length_append]
      rfl
    obtain ⟨hwaiting, hcode⟩ := newCall_waiting hstarts
    obtain ⟨f, hf⟩ : ∃ f : Transfer → Transfer, f = fun t =>
        { t with
          started := t.started + 1
          call := some (newCall env)
          outcome := none
          codes := if s₂.dialogUp then t.codes ++ [(newCall env).notifyCode] else t.codes } :=
      ⟨_, rfl⟩
    rw [← hf]
    have hmodified : (s₂.modifyTransfer (s₂.transfers.length - 1) f).transfers =
        s.transfers ++ [f {}] := by
      show s₂.transfers.modify (s₂.transfers.length - 1) f = _
      rw [hlength, htransfers₂, modify_concat]
    have hnone : (f {}).outcome = none := by rw [hf]
    have hstarted : (f {}).started = 1 := by rw [hf]
    have hlast : (s₂.modifyTransfer (s₂.transfers.length - 1) f).lastOutcome = none := by
      unfold lastOutcome
      rw [hmodified, List.getLast?_concat]
      exact hnone
    have hidle : (s₂.modifyTransfer (s₂.transfers.length - 1) f).tasks = 0 :=
      htasks₁.trans htasks
    have hnew : (f {}).Reports s.dialogUp := by
      unfold Transfer.Reports
      rw [hnone]
      refine ⟨fun code hmem => ?_, newCall env, by rw [hf], hwaiting⟩
      rw [hf, hdialog₂, hgoes.2, hcode] at hmem
      rw [List.mem_singleton.mp hmem]
      decide
    refine ⟨hpending, ?_, ?_, ?_, ?_, ?_, ?_, hready⟩
    · rw [hmodified]
      intro t ht
      rcases List.mem_append.mp ht with hold | hnewest
      · exact h.once t hold
      · rw [List.mem_singleton.mp hnewest]
        exact Nat.le_of_eq hstarted
    · rw [hmodified]
      intro t ht
      show t.Reports s₂.dialogUp
      rw [hdialog₂]
      rcases List.mem_append.mp ht with hold | hnewest
      · exact h.each t hold
      · rw [List.mem_singleton.mp hnewest]
        exact hnew
    · rintro j ⟨t, ht, houtcome⟩
      rw [hmodified] at ht ⊢
      rw [List.length_append]
      by_cases hj : j < s.transfers.length
      · rw [List.getElem?_append_left hj] at ht
        exact absurd houtcome (hsettled t (List.mem_of_getElem? ht))
      · have hbound := (List.getElem?_eq_some_iff.mp ht).1
        rw [List.length_append] at hbound
        have hone : ([f {}] : List Transfer).length = 1 := rfl
        omega
    · intro outcome hmem
      exact h.onlyFailed outcome (hresumes ▸ hmem)
    · intro hpos
      rw [hidle] at hpos
      exact absurd hpos (Nat.lt_irrefl 0)
    · intro hfailed
      rw [hlast] at hfailed
      cases hfailed
  · exact h

/-! ## The original call -/

theorem Settled.setState (h : s.Settled) (x : CallState) : (s.setState x).Settled where
  pending := h.pending
  once := h.once
  each := h.each
  waits := h.waits
  onlyFailed := h.onlyFailed
  tasks := h.tasks
  whenFailed := fun hfailed hpaused => h.whenFailed hfailed (Bool.and_eq_true_iff.mp hpaused).1
  paused := HeldBack.setState h.paused x

/-- A call that is resumed is not held any more. -/
theorem setState_resuming (hpaused : s.vars.state = .paused) :
    (s.setState .resuming).vars.state = .resuming ∧
      (s.setState .resuming).pausedForTransfer = false := by
  have hstate : (s.vars.setState .resuming).1.state = .resuming := by
    rcases Run.setState_cases s.vars .resuming with ⟨hsame, heq⟩ | ⟨_, href | hended, _⟩ |
      ⟨_, _, _, heq⟩
    · rw [hpaused] at hsame
      cases hsame
    · cases href
    · rw [hpaused] at hended
      exact absurd hended.1 (by decide)
    · rw [heq]
  refine ⟨hstate, ?_⟩
  show (s.pausedForTransfer && held (s.vars.setState .resuming).1.state) = false
  rw [hstate]
  exact Bool.and_false _

/-- `linphone_core_resume_call` gives up the pause of a transfer, or leaves it as it is. -/
theorem resumeCall_frame (soundFree sent : Bool) :
    (s.resumeCall soundFree sent).transfers = s.transfers ∧
      (s.resumeCall soundFree sent).dialogUp = s.dialogUp ∧
      (s.resumeCall soundFree sent).tasks = s.tasks ∧
      (s.resumeCall soundFree sent).resumes = s.resumes ∧
      (s.resumeCall soundFree sent).referPending = s.referPending := by
  unfold resumeCall
  split
  · dsimp only
    split
    · exact ⟨rfl, rfl, rfl, rfl, rfl⟩
    · exact ⟨rfl, rfl, rfl, rfl, rfl⟩
  · exact ⟨rfl, rfl, rfl, rfl, rfl⟩

theorem resumeCall_pausedForTransfer {soundFree sent : Bool}
    (hsent : s.pausedForTransfer = true → s.vars.state = .paused → soundFree = true → sent = true)
    (hpaused : (s.resumeCall soundFree sent).pausedForTransfer = true) :
    s.resumeCall soundFree sent = s := by
  unfold resumeCall at hpaused ⊢
  by_cases hgoes : s.vars.state = .paused ∧ soundFree
  · rw [if_pos hgoes] at hpaused
    cases sent with
    | true =>
        have hresumed := (setState_resuming (s := { s with wasAutomaticallyPaused := false })
          hgoes.1).2
        exact absurd (hresumed.symm.trans hpaused) Bool.false_ne_true
    | false => exact absurd (hsent hpaused hgoes.1 hgoes.2) Bool.false_ne_true
  · rw [if_neg hgoes]

/-- **A resumption by the user** gives up the pause of a transfer. -/
theorem Settled.resumeCall (h : s.Settled) {soundFree sent : Bool}
    (hsent : s.pausedForTransfer = true → s.vars.state = .paused → soundFree = true →
      sent = true) : (s.resumeCall soundFree sent).Settled := by
  by_cases hpaused : (s.resumeCall soundFree sent).pausedForTransfer = true
  · rw [resumeCall_pausedForTransfer hsent hpaused]
    exact h
  · obtain ⟨htransfers, hdialog, htasks, hresumes, hpending⟩ :=
      resumeCall_frame (s := s) soundFree sent
    have hlast : (s.resumeCall soundFree sent).lastOutcome = s.lastOutcome := by
      unfold lastOutcome
      rw [htransfers]
    refine ⟨hpending.trans h.pending, ?_, ?_, ?_, ?_, ?_, fun _ hpaused' => absurd hpaused' hpaused,
      fun hpaused' => absurd hpaused' hpaused⟩
    · rw [htransfers]
      exact h.once
    · rw [htransfers, hdialog]
      exact h.each
    · rintro k ⟨t, ht, hnone⟩
      rw [htransfers] at ht ⊢
      exact h.waits k ⟨t, ht, hnone⟩
    · rw [hresumes]
      exact h.onlyFailed
    · rw [htasks, hlast]
      exact h.tasks

/-- A task that is done with, when the call is not to be resumed. -/
theorem Settled.taskDone (h : s.Settled) (hpaused : s.pausedForTransfer = false)
    {resumes : List (Option Bool)} (honly : ∀ outcome ∈ resumes, outcome = some false) :
    ({ s with tasks := s.tasks - 1, resumes := resumes } : Transferee).Settled where
  pending := h.pending
  once := h.once
  each := h.each
  waits := h.waits
  onlyFailed := honly
  tasks := fun hpos => h.tasks (Nat.lt_of_lt_of_le hpos (Nat.sub_le _ _))
  whenFailed := fun _ hpaused' => absurd (hpaused.symm.trans hpaused') Bool.false_ne_true
  paused := fun hpaused' => absurd (hpaused.symm.trans hpaused') Bool.false_ne_true

/-- **The task** resumes the call when the last transfer failed. -/
theorem Settled.resumeTask (h : s.Settled) {idle soundFree sent : Bool}
    (hreported : s.Reported (.resumeTask idle soundFree sent)) :
    (s.resumeTask idle soundFree sent).Settled := by
  by_cases hnone : s.tasks = 0
  · rw [Transferee.resumeTask, if_pos hnone]
    exact h
  have hfailed : s.lastOutcome = some false := h.tasks (Nat.pos_of_ne_zero hnone)
  by_cases hpausing : s.wasAutomaticallyPaused ∧ s.vars.state = .pausing
  · rw [Transferee.resumeTask, if_neg hnone, if_pos hpausing]
    exact h
  by_cases hpaused : s.wasAutomaticallyPaused ∧ s.vars.state = .paused
  · rw [Transferee.resumeTask, if_neg hnone, if_neg hpausing, if_pos hpaused]
    cases idle with
    | false => exact h
    | true =>
        have hsent : s.pausedForTransfer = true → s.vars.state = .paused → soundFree = true →
            sent = true := by
          intro hours _ _
          rcases hreported hours with hat | ⟨_, hfree⟩
          · exact absurd ⟨hpaused.1, hat⟩ hpausing
          · exact (hfree rfl).2
        have hgivenUp : (s.resumeCall soundFree sent).pausedForTransfer = false := by
          by_contra hkept
          have hkept' := eq_true_of_ne_false hkept
          have hsame := resumeCall_pausedForTransfer hsent hkept'
          rw [hsame] at hkept'
          rcases hreported hkept' with hat | ⟨_, hfree⟩
          · exact hpausing ⟨hpaused.1, hat⟩
          · obtain ⟨hsound, hgone⟩ := hfree rfl
            have hresumed := (setState_resuming (s := { s with wasAutomaticallyPaused := false })
              hpaused.2).2
            unfold Transferee.resumeCall at hkept
            rw [if_pos ⟨hpaused.2, hsound⟩, hgone] at hkept
            exact hkept hresumed
        obtain ⟨_, _, htasks, _, _⟩ := resumeCall_frame (s := s) soundFree sent
        rw [if_pos rfl, ← htasks]
        refine (h.resumeCall hsent).taskDone hgivenUp fun outcome hmem => ?_
        split at hmem
        · rcases List.mem_append.mp hmem with hold | hnewest
          · exact h.onlyFailed outcome hold
          · rw [List.mem_singleton.mp hnewest]
            exact hfailed
        · exact h.onlyFailed outcome hmem
  · rw [Transferee.resumeTask, if_neg hnone, if_neg hpausing, if_neg hpaused]
    have hnotOurs : s.pausedForTransfer = false := by
      by_contra hours
      have hours' := eq_true_of_ne_false hours
      have hauto := (h.paused hours').1
      rcases hreported hours' with hat | ⟨hat, _⟩
      · exact hpausing ⟨hauto, hat⟩
      · exact hpaused ⟨hauto, hat⟩
    exact h.taskDone hnotOurs h.onlyFailed

theorem Settled.dialogEnds (h : s.Settled) :
    ({ s with dialogUp := false } : Transferee).Settled where
  pending := h.pending
  once := h.once
  each := fun t ht => (h.each t ht).down
  waits := h.waits
  onlyFailed := h.onlyFailed
  tasks := h.tasks
  whenFailed := h.whenFailed
  paused := h.paused

/-! ## Runs -/

/-- **One event**, under its condition. -/
theorem Settled.step (h : s.Settled) {event : TransferEvent} (hreported : s.Reported event) :
    (s.step event).Settled := by
  cases event with
  | refer target byApplication env => exact h.refer hreported
  | refered k event => exact h.refered hreported
  | callAccepted dir env =>
      have hidle : ¬ (acceptedState dir = .paused ∧
          (s.setState (acceptedState dir)).referPending = true) := by
        rintro ⟨_, hpending⟩
        exact absurd (h.pending.symm.trans hpending) Bool.false_ne_true
      show (s.callAccepted dir env).Settled
      unfold callAccepted
      dsimp only
      rw [if_neg hidle]
      exact h.setState _
  | callTerminated env =>
      show (s.callTerminated env).Settled
      unfold callTerminated
      rw [h.pending, if_neg Bool.false_ne_true]
      split
      · exact h
      · exact h.setState _
  | move next => exact h.setState next
  | resume soundFree sent => exact h.resumeCall hreported
  | resumeTask idle soundFree sent => exact h.resumeTask hreported
  | dialogEnds => exact h.dialogEnds

/-- **A run** whose events are reported. -/
theorem Settled.run {events : List TransferEvent} (h : s.Settled)
    (hreported : s.Along Reported events) : (s.run events).Settled := by
  induction events generalizing s with
  | nil => exact h
  | cons event events ih => exact ih (h.step hreported.1) hreported.2

/-- A call in which no transfer was asked for. -/
def fresh (vars : StateVars) (automatically : Bool) : Transferee :=
  { vars := vars, wasAutomaticallyPaused := automatically }

theorem settled_fresh (vars : StateVars) (automatically : Bool) :
    (fresh vars automatically).Settled where
  pending := rfl
  once := fun t ht => absurd ht (by exact List.not_mem_nil)
  each := fun t ht => absurd ht (by exact List.not_mem_nil)
  waits := by
    rintro k ⟨t, ht, _⟩
    cases ht
  onlyFailed := fun outcome hmem => absurd hmem (by exact List.not_mem_nil)
  tasks := fun hpos => absurd hpos (Nat.lt_irrefl 0)
  whenFailed := fun hfailed => by cases hfailed
  paused := fun hpaused => absurd hpaused Bool.false_ne_true

/-- The task that is queued resumes the call that was paused for a transfer that failed. -/
theorem Settled.resumed (h : s.Settled) (hfailed : s.lastOutcome = some false)
    (hours : s.pausedForTransfer = true) (hpaused : s.vars.state = .paused) :
    (s.step (.resumeTask true true true)).vars.state = .resuming := by
  have hpos := h.whenFailed hfailed hours
  have hnotPausing : ¬ (s.wasAutomaticallyPaused = true ∧ s.vars.state = .pausing) := by
    rintro ⟨_, hat⟩
    rw [hpaused] at hat
    cases hat
  show (s.resumeTask true true true).vars.state = .resuming
  rw [Transferee.resumeTask, if_neg (Nat.pos_iff_ne_zero.mp hpos), if_neg hnotPausing,
    if_pos ⟨(h.paused hours).1, hpaused⟩, if_pos rfl]
  show (s.resumeCall true true).vars.state = .resuming
  rw [Transferee.resumeCall, if_pos ⟨hpaused, rfl⟩]
  exact (setState_resuming (s := { s with wasAutomaticallyPaused := false }) hpaused).1

end Transferee

/-- **Transfers are told.** In a run whose events are reported, each REFER starts one call at most,
its NOTIFYs never go back and tell the outcome, and the call is resumed exactly when the transfer it
was paused for failed. -/
theorem transfers_told (vars : StateVars) (automatically : Bool) (events : List TransferEvent)
    (hreported : (Transferee.fresh vars automatically).Along Transferee.Reported events) :
    let s := (Transferee.fresh vars automatically).run events
    s.Told ∧ (s.lastOutcome = some false → s.pausedForTransfer = true → s.vars.state = .paused →
      (s.step (.resumeTask true true true)).vars.state = .resuming) := by
  have hsettled := (Transferee.settled_fresh vars automatically).run hreported
  exact ⟨hsettled.isTold, fun hfailed hours hpaused => hsettled.resumed hfailed hours hpaused⟩

/-- A call that is running, and a start of the new call that succeeds. -/
def transferredCall : Transferee :=
  Transferee.fresh { state := .streamsRunning, prevstate := .connected } false

def startsAtOnce : Transferee.StartEnv :=
  { pausable := true, created := true, deferred := false, sent := true }

/-- The new call rings, and is refused as busy once the original call is paused. -/
def busyTransfer : List TransferEvent :=
  [.refer true false startsAtOnce, .refered 0 (.provisional 180 true false),
    .callAccepted .sendOnly startsAtOnce, .refered 0 (.refused 486 false false false)]

theorem busyTransfer_reported :
    transferredCall.Along Transferee.Reported busyTransfer := by
  refine ⟨?_, ?_, ?_, ?_, trivial⟩
  · refine ⟨rfl, Or.inr rfl, rfl, ?_⟩
    intro t ht
    cases ht
  · trivial
  · trivial
  · refine fun _ => ⟨by decide, fun c hc => ?_⟩
    cases hc
    exact ⟨rfl, fun hrestarts => absurd hrestarts (by decide)⟩

theorem busyTransfer_told :
    ((transferredCall.run busyTransfer).transfers.map (·.codes) = [[100, 486]] ∧
      (transferredCall.run busyTransfer).tasks = 1) ∧
    (let s := transferredCall.run busyTransfer
     s.Told ∧ (s.lastOutcome = some false → s.pausedForTransfer = true → s.vars.state = .paused →
      (s.step (.resumeTask true true true)).vars.state = .resuming)) :=
  ⟨by decide, transfers_told _ _ _ busyTransfer_reported⟩

/-- **A target that makes no call**: the original call is paused for it, no NOTIFY is sent and no
task resumes it. -/
theorem uncallable_not_told :
    ¬ ∀ (vars : StateVars) (automatically : Bool) (events : List TransferEvent),
      ((Transferee.fresh vars automatically).run events).Told := by
  intro h
  have htold := h { state := .streamsRunning, prevstate := .connected } false
    [.refer true false { startsAtOnce with created := false }]
  exact absurd (htold.whenFailed (by decide) (by decide)) (by decide)

end Linphone
