import Linphone.Sal.CallHandlers

/-!
# Answers to INVITE and UPDATE

The server transactions `sal_call_accept` and `sal_call_decline` respond in. An operation keeps the
last INVITE and the last UPDATE it received. Accept looks at the UPDATE first and drops it, decline
looks at the INVITE first, and what was answered otherwise stays until the stack ends it.

`answeredInTurn_of_reachable`: in a run in which they find there what they should, every response
goes to the latest request without one, and no request gets two.
-/

namespace Linphone

open Reentrant SalOpCall

/-! ## The condition -/

/-- The runs in which the two slots are enough. A request comes in when no earlier one of its kind
waits for a response; accept and decline find in the slot they look at first a request that waits,
later than one that waits in the other; and a CANCEL finds its INVITE waiting. -/
def AnswersInTurn : OpAction → CallOp → Prop
  | .receive .invite, s => ∀ t ∈ s.pendingServerTrans, t ∉ s.unanswered
  | .receive .update, s => ∀ t ∈ s.pendingUpdateServerTrans, t ∉ s.unanswered
  | .respond t, s => t ∈ s.unanswered ∧
      (∀ t' ∈ s.pendingServerTrans, t' ∈ s.unanswered → t' ≤ t) ∧
      ∀ t' ∈ s.pendingUpdateServerTrans, t' ∈ s.unanswered → t' ≤ t
  | .final t, s => t ∈ s.pendingServerTrans → t ∈ s.unanswered
  | _, _ => True

instance (x : OpAction) (s : CallOp) : Decidable (AnswersInTurn x s) := by
  unfold AnswersInTurn
  split <;> infer_instance

namespace CallOp

/-- Every response of accept and decline went to the latest request without one; no request got
two; and one that waits for a response is found. -/
structure AnsweredInTurn (s : CallOp) : Prop where
  latest : ∀ r ∈ s.responses, r.2 = some r.1
  once : ∀ t, s.trace.count (.final t) ≤ 1
  found : ∀ t ∈ s.unanswered, t ∈ s.pendingServerTrans ∨ t ∈ s.pendingUpdateServerTrans

/-- What makes it so: requests wait in the order of their numbers, and have no response. -/
structure Waiting (s : CallOp) : Prop extends AnsweredInTurn s where
  sorted : s.unanswered.Pairwise (· > ·)
  bound : ∀ t ∈ s.unanswered, t < s.received
  answered : ∀ t, .final t ∈ s.trace → t < s.received ∧ t ∉ s.unanswered

/-- What the functions of the call layer can do to server transactions: respond to one that
waits. -/
structure OnlyAnswers (s s' : CallOp) : Prop where
  received : s'.received = s.received
  pendingServerTrans : s'.pendingServerTrans = s.pendingServerTrans
  unanswered : ∀ t ∈ s'.unanswered, t ∈ s.unanswered
  final : ∀ t, .final t ∈ s'.trace → .final t ∈ s.trace ∨ t ∈ s.unanswered

variable {s s' : CallOp}

theorem OnlyAnswers.refl (s : CallOp) : OnlyAnswers s s :=
  ⟨rfl, rfl, fun _ h => h, fun _ h => .inl h⟩

theorem OnlyAnswers.trans {s'' : CallOp} (h₁ : OnlyAnswers s s') (h₂ : OnlyAnswers s' s'') :
    OnlyAnswers s s'' := by
  refine ⟨h₂.received.trans h₁.received, h₂.pendingServerTrans.trans h₁.pendingServerTrans,
    fun t ht => h₁.unanswered t (h₂.unanswered t ht), fun t ht => ?_⟩
  rcases h₂.final t ht with h | h
  · exact h₁.final t h
  · exact .inr (h₁.unanswered t h)

theorem Waiting.nodup (hs : s.Waiting) : s.unanswered.Nodup :=
  hs.sorted.imp fun h => Nat.ne_of_gt h

/-- The latest request that waits is the one no other is later than. -/
theorem Waiting.head (hs : s.Waiting) {t : TransId} (ht : t ∈ s.unanswered)
    (hmax : ∀ t' ∈ s.unanswered, t' ≤ t) : s.unanswered.head? = some t := by
  have hsorted := hs.sorted
  cases hl : s.unanswered with
  | nil =>
      rw [hl] at ht
      cases ht
  | cons a l =>
      rw [hl] at ht hmax hsorted
      rcases List.mem_cons.mp ht with rfl | hmem
      · rfl
      · have hlt : a > t := List.rel_of_pairwise_cons hsorted hmem
        exact absurd hlt (Nat.not_lt.mpr (hmax a List.mem_cons_self))

/-- A final response to a request that has none. -/
theorem Waiting.responded (hs : s.Waiting) {t : TransId} (ht : t < s.received)
    (hnew : .final t ∉ s.trace) {responses : List (TransId × Option TransId)}
    (hresponses : ∀ r ∈ responses, r.2 = some r.1) :
    Waiting { s.record (.final t) with
      responses := responses
      unanswered := s.unanswered.erase t } where
  latest := hresponses
  once t' := by
    change (Trace.final t :: s.trace).count _ ≤ 1
    by_cases h : t' = t
    · have hone : (Trace.final t :: s.trace).count (.final t) = 1 := by
        rw [List.count_cons_self, List.count_eq_zero.mpr hnew]
      subst h
      exact Nat.le_of_eq hone
    · have hne : Trace.final t ≠ .final t' := fun heq => h (Trace.final.inj heq).symm
      rw [List.count_cons_of_ne hne]
      exact hs.once t'
  found t' h := hs.found t' (List.mem_of_mem_erase h)
  sorted := hs.sorted.sublist List.erase_sublist
  bound t' h := hs.bound t' (List.mem_of_mem_erase h)
  answered t' h := by
    rcases List.mem_cons.mp h with h | h
    · cases h
      exact ⟨ht, hs.nodup.not_mem_erase⟩
    · exact ⟨(hs.answered t' h).1, fun hmem => (hs.answered t' h).2 (List.mem_of_mem_erase hmem)⟩

end CallOp

/-! ## Actions -/

/-- The contract of the functions of the call layer. -/
def inTurn : Contract opSig where
  Inv := CallOp.Waiting
  Rel := CallOp.OnlyAnswers
  Idle := CallOp.Waiting
  Ok := AnswersInTurn
  refl := CallOp.OnlyAnswers.refl
  trans := CallOp.OnlyAnswers.trans
  inv_of_idle h := h
  idle_of_rel _ h _ := h

/-- Actions on no server transaction, and the response of accept and decline. -/
def OpAction.mayRespond : OpAction → Prop
  | .receive _ | .clearUpdateTrans | .endTrans _ | .final _ => False
  | _ => True

/-- Changes to other fields. -/
theorem CallOp.Waiting.congr {s s' : CallOp} (hs : s.Waiting)
    (hresponses : s'.responses = s.responses) (hunanswered : s'.unanswered = s.unanswered)
    (hreceived : s'.received = s.received)
    (hinvite : s'.pendingServerTrans = s.pendingServerTrans)
    (hupdate : s'.pendingUpdateServerTrans = s.pendingUpdateServerTrans)
    (htrace : ∀ t, s'.trace.count (.final t) = s.trace.count (.final t)) :
    s'.Waiting ∧ CallOp.OnlyAnswers s s' := by
  have hmem : ∀ t, .final t ∈ s'.trace ↔ .final t ∈ s.trace := by
    intro t
    rw [← List.count_pos_iff, htrace, List.count_pos_iff]
  refine ⟨⟨⟨?_, ?_, ?_⟩, ?_, ?_, ?_⟩, hreceived, hinvite, ?_, ?_⟩
  · rw [hresponses]
    exact hs.latest
  · intro t
    rw [htrace]
    exact hs.once t
  · rw [hunanswered, hinvite, hupdate]
    exact hs.found
  · rw [hunanswered]
    exact hs.sorted
  · rw [hunanswered, hreceived]
    exact hs.bound
  · intro t ht
    rw [hunanswered, hreceived]
    exact hs.answered t ((hmem t).mp ht)
  · intro t ht
    rwa [hunanswered] at ht
  · exact fun t ht => .inl ((hmem t).mp ht)

/-- **One action** of a function of the call layer. -/
theorem respects_mayRespond : inTurn.Respects (fun _ => True) OpAction.mayRespond := by
  intro x s hx hs _ hok
  cases x with
  | respond t =>
      obtain ⟨ht, hinvite, hupdate⟩ := hok
      have hnew : .final t ∉ s.trace := fun h => (hs.answered t h).2 ht
      have hhead : s.unanswered.head? = some t := by
        refine hs.head ht fun t' ht' => ?_
        rcases hs.found t' ht' with h | h
        · exact hinvite t' h ht'
        · exact hupdate t' h ht'
      refine ⟨hs.responded (hs.bound t ht) hnew ?_, rfl, rfl,
        fun t' h => List.mem_of_mem_erase h, fun t' h => ?_⟩
      · intro r hr
        rcases List.mem_cons.mp hr with rfl | hr
        · exact hhead
        · exact hs.latest r hr
      · rcases List.mem_cons.mp h with h | h
        · cases h
          exact .inr ht
        · exact .inl h
  | receive m => exact absurd hx id
  | clearUpdateTrans => exact absurd hx id
  | endTrans t => exact absurd hx id
  | final t => exact absurd hx id
  | arrive r =>
      rw [OpAction.apply_arrive]
      cases r.inviteOk with
      | true => exact hs.congr rfl rfl rfl rfl rfl fun t => List.count_cons_of_ne (by simp)
      | false => exact hs.congr rfl rfl rfl rfl rfl fun t => rfl
  | send m => exact hs.congr rfl rfl rfl rfl rfl fun t => List.count_cons_of_ne (by simp)
  | resend m => exact hs.congr rfl rfl rfl rfl rfl fun t => List.count_cons_of_ne (by simp)
  | ack => exact hs.congr rfl rfl rfl rfl rfl fun t => List.count_cons_of_ne (by simp)
  | terminate => exact hs.congr rfl rfl rfl rfl rfl fun t => List.count_cons_of_ne (by simp)
  | provisional t =>
      exact hs.congr rfl rfl rfl rfl rfl fun t => List.count_cons_of_ne (by simp)
  | tell u => exact hs.congr rfl rfl rfl rfl rfl fun t => List.count_cons_of_ne (by simp)
  | process r => exact hs.congr rfl rfl rfl rfl rfl fun t => rfl
  | setState x => exact hs.congr rfl rfl rfl rfl rfl fun t => rfl
  | activate => exact hs.congr rfl rfl rfl rfl rfl fun t => rfl
  | setDialog d => exact hs.congr rfl rfl rfl rfl rfl fun t => rfl
  | moveDialog d x => exact hs.congr rfl rfl rfl rfl rfl fun t => rfl
  | keepEarlyResponse d code => exact hs.congr rfl rfl rfl rfl rfl fun t => rfl
  | countAuth n => exact hs.congr rfl rfl rfl rfl rfl fun t => rfl
  | media f => exact hs.congr rfl rfl rfl rfl rfl fun t => rfl
  | attach m sdp => exact hs.congr rfl rfl rfl rfl rfl fun t => rfl
  | read => exact hs.congr rfl rfl rfl rfl rfl fun t => rfl
  | markReleased => exact hs.congr rfl rfl rfl rfl rfl fun t => rfl
  | scheduleRelease b => exact hs.congr rfl rfl rfl rfl rfl fun t => rfl
  | detach => exact hs.congr rfl rfl rfl rfl rfl fun t => rfl
  | addTimer => exact hs.congr rfl rfl rfl rfl rfl fun t => rfl
  | dropTimer => exact hs.congr rfl rfl rfl rfl rfl fun t => rfl

theorem keeps_of_mayRespond {α : Type} {p : OpProg α} (hp : p.Acts OpAction.mayRespond) :
    inTurn.Keeps (fun _ => True) p :=
  respects_mayRespond.keeps Contract.stable_true hp

/-- The UPDATE in the slot is dropped, which has its response. -/
theorem CallOp.Waiting.cleared {s : CallOp} (hs : s.Waiting)
    (hdone : ∀ t ∈ s.pendingUpdateServerTrans, t ∉ s.unanswered) :
    CallOp.Waiting { s with pendingUpdateServerTrans := none } ∧
      CallOp.OnlyAnswers s { s with pendingUpdateServerTrans := none } := by
  refine ⟨{ hs with found := fun t ht => ?_ }, rfl, rfl, fun _ h => h, fun _ h => .inl h⟩
  rcases hs.found t ht with h | h
  · exact .inl h
  · exact absurd ht (hdone t h)

/-! ## Functions of the call layer -/

section acts

theorem acts_of_plain {α : Type} {p : OpProg α} (hp : p.Acts OpAction.plain) :
    p.Acts OpAction.mayRespond := by
  refine hp.mono fun x hx => ?_
  cases x <;> first | exact hx | trivial

theorem acts_of_answers {α : Type} {p : OpProg α} (hp : p.Acts OpAction.answers) :
    p.Acts OpAction.mayRespond := by
  refine hp.mono fun x hx => ?_
  cases x <;> first | exact absurd hx id | trivial

theorem acts_fillInvite (m : SipMethod) : (do
    let created ← SalOpCall.query (.created m)
    Prog.when created do
      attach fun _ m => m.fillInvite
      SalOpCall.perform (.send m)
    pure created : OpProg Bool).Acts OpAction.mayRespond := by
  refine Prog.Acts.bind (fun _ => trivial) fun created => ?_
  refine Prog.Acts.bind (Prog.Acts.when ?_) fun _ => trivial
  exact (acts_of_answers (acts_attach _)).bind fun _ => ⟨trivial, trivial⟩

theorem acts_update (noUserConsent : Bool) : (update noUserConsent).Acts OpAction.mayRespond := by
  refine Prog.Acts.bind (fun _ => trivial) fun s => ?_
  cases s.dialog with
  | none => trivial
  | some d =>
      dsimp only
      cases s.dialogState d with
      | null => trivial
      | terminated => trivial
      | early => exact acts_fillInvite .update
      | confirmed => exact acts_fillInvite _

/-- `sal_call_accept` drops the UPDATE it has responded to. -/
theorem keeps_accept : inTurn.Keeps (fun _ => True) accept := by
  refine Contract.keeps_current fun s hs _ => ?_
  cases hslot : s.pendingUpdateServerTrans <|> s.pendingServerTrans with
  | none => exact ⟨hs, inTurn.refl s⟩
  | some t =>
      intro lib hattach hok hclear
      obtain ⟨h₁, r₁⟩ := respects_mayRespond (.attach _ _) s trivial hs trivial hattach
      obtain ⟨h₂, r₂⟩ := respects_mayRespond (.respond t) _ trivial h₁ trivial hok
      obtain ⟨h₃, r₃⟩ := h₂.cleared (by
        intro t' ht' hmem
        have heq : t' = t := by
          have hupdate : s.pendingUpdateServerTrans = some t' := ht'
          rw [hupdate] at hslot
          exact Option.some.inj hslot
        rw [heq] at hmem
        exact (h₂.answered t List.mem_cons_self).2 hmem)
      exact ⟨h₃, (r₁.trans r₂).trans r₃⟩

/-- **The functions of the call layer** keep to the contract. -/
theorem keeps_salCall (a : SalCall) : inTurn.Keeps (fun _ => True) a.program := by
  have hignore : ∀ {α : Type} {p : OpProg α}, p.Acts OpAction.mayRespond →
      (SalCall.ignore p).Acts OpAction.mayRespond := fun hp => hp.bind fun _ => trivial
  cases a with
  | accept => exact keeps_accept
  | call => exact keeps_of_mayRespond (hignore (acts_fillInvite .invite))
  | setLocalMediaDescription desc => exact keeps_of_mayRespond ⟨trivial, trivial⟩
  | getFinalMediaDescription =>
      exact keeps_of_mayRespond (acts_of_answers acts_getFinal)
  | notifyRinging earlyMedia =>
    exact keeps_of_mayRespond (acts_of_answers (acts_notifyRinging earlyMedia))
  | decline => exact keeps_of_mayRespond (acts_of_answers acts_decline)
  | update noUserConsent => exact keeps_of_mayRespond (hignore (acts_update noUserConsent))
  | sendInDialog m => exact keeps_of_mayRespond (acts_of_plain (acts_sendInDialog m))
  | terminate => exact keeps_of_mayRespond (hignore (acts_of_plain acts_terminate))
  | release => exact keeps_of_mayRespond (acts_of_plain acts_release)

end acts

/-! ## Responses -/

section responses

variable (r : SalResponse)

theorem acts_callAccepted : (upcall .callAccepted).Acts OpAction.mayRespond :=
  acts_of_plain (acts_upcall .callAccepted)

theorem acts_responseEarly : (responseEarly r).Acts OpAction.mayRespond := by
  have hfailed : (do
      callSetError
      let s ← getOp
      Prog.when s.dialog.isNone callSetReleased : OpProg Unit).Acts OpAction.plain :=
    (acts_upcall .callFailure).bind fun _ _ => Prog.Acts.when acts_callSetReleased
  refine Prog.Acts.bind (fun _ => trivial) fun s => Prog.Acts.ite ?_ ?_
  · refine Prog.Acts.ite (acts_of_plain (acts_responseTerminating r)) ?_
    exact Prog.Acts.ite (acts_of_answers (acts_responseRinging r))
      (Prog.Acts.when (acts_of_plain hfailed))
  · exact Prog.Acts.when
      ((acts_of_answers (acts_handleSdpFromResponse r)).bind fun _ => acts_callAccepted)

theorem acts_responseInviteOk : (responseInviteOk r).Acts OpAction.mayRespond := by
  refine (acts_of_answers (acts_handleSdpFromResponse r)).bind fun _ => Prog.Acts.when ?_
  refine (acts_of_answers (acts_attach _)).bind fun _ => ⟨trivial, ?_⟩
  exact acts_callAccepted.bind fun _ => ⟨trivial, trivial⟩

theorem acts_responseConfirmed : (responseConfirmed r).Acts OpAction.mayRespond := by
  have hfailed := acts_of_plain (acts_upcall .callFailure)
  have hrunning : (if r.method = .invite then
      if 200 ≤ r.code ∧ r.code < 300 then responseInviteOk r
      else Prog.when (300 ≤ r.code) callSetError
    else if r.method = .info then
      Prog.when (r.code = 491 && r.vfu) (SalOpCall.perform .addTimer)
    else Prog.when (r.method = .update) (upcall .callAccepted) : OpProg Unit).Acts
      OpAction.mayRespond := by
    refine Prog.Acts.ite (Prog.Acts.ite (acts_responseInviteOk r) (Prog.Acts.when hfailed)) ?_
    refine Prog.Acts.ite (Prog.Acts.when ?_) (Prog.Acts.when acts_callAccepted)
    exact ⟨trivial, trivial⟩
  refine Prog.Acts.bind (fun _ => trivial) fun s => ?_
  cases s.state with
  | early => exact hrunning
  | active => exact hrunning
  | terminating => exact acts_of_plain (acts_send .bye)
  | terminated => trivial

theorem acts_callProcessResponse : (callProcessResponse r).Acts OpAction.mayRespond := by
  refine ⟨trivial, trivial, ?_⟩
  cases (r.dialog.map Prod.snd).getD .null with
  | null => exact acts_responseEarly r
  | early => exact acts_responseEarly r
  | confirmed => exact acts_responseConfirmed r
  | terminated => exact Prog.Acts.when (acts_of_plain (acts_upcall .callFailure))

theorem acts_passResponse : (passResponse r).Acts OpAction.mayRespond := by
  refine Prog.Acts.bind (Prog.Acts.when ?_) fun _ => acts_callProcessResponse r
  exact ⟨trivial, trivial⟩

/-- **Responses** touch no server transaction, unless the call layer does in an upcall. -/
theorem acts_processResponseEvent : (processResponseEvent r).Acts OpAction.mayRespond := by
  have hother := acts_of_plain (acts_upcall .other)
  have hrest : (filterResponse r).Acts OpAction.mayRespond := by
    refine Prog.Acts.bind (fun _ => trivial) fun s => Prog.Acts.ite trivial ?_
    refine Prog.Acts.ite ⟨trivial, Prog.Acts.ite ?_ (Prog.Acts.when ?_)⟩ ?_
    · exact hother.bind fun _ => acts_passResponse r
    · exact ⟨trivial, trivial⟩
    · exact (Prog.Acts.when hother).bind fun _ => acts_passResponse r
  unfold processResponseEvent
  cases r.dialog with
  | none => exact ⟨trivial, hrest⟩
  | some dx => exact ⟨trivial, trivial, hrest⟩

end responses

/-! ## Requests -/

/-- The transaction of a request that was just received. -/
structure CallOp.Received (q : SalRequest) (t : TransId) (s : CallOp) : Prop where
  bound : t < s.received
  new : .final t ∉ s.trace
  apart : q.method ≠ .invite → q.method ≠ .update → t ∉ s.unanswered
  slot : q.method = .update → s.pendingUpdateServerTrans = some t

theorem CallOp.Waiting.receive {s : CallOp} (hs : s.Waiting) (q : SalRequest)
    (hok : AnswersInTurn (.receive q.method) s) :
    CallOp.Waiting (OpAction.apply (.receive q.method) s) ∧
      CallOp.Received q s.received (OpAction.apply (.receive q.method) s) := by
  have hnew : .final s.received ∉ s.trace := fun h => Nat.lt_irrefl _ (hs.answered _ h).1
  have hlast : s.received ∉ s.unanswered := fun h => Nat.lt_irrefl _ (hs.bound _ h)
  have hnext : s.received < s.received + 1 := Nat.lt_succ_self _
  have hbound : ∀ t ∈ s.unanswered, t < s.received + 1 := fun t ht =>
    Nat.lt_succ_of_lt (hs.bound t ht)
  have hbound' : ∀ t ∈ s.received :: s.unanswered, t < s.received + 1 := by
    intro t ht
    rcases List.mem_cons.mp ht with rfl | ht
    · exact hnext
    · exact hbound t ht
  have hsorted : (s.received :: s.unanswered).Pairwise (· > ·) :=
    List.pairwise_cons.mpr ⟨fun t ht => hs.bound t ht, hs.sorted⟩
  have hanswered : ∀ t, .final t ∈ s.trace →
      t < s.received + 1 ∧ t ∉ s.received :: s.unanswered := by
    intro t ht
    obtain ⟨hlt, hdone⟩ := hs.answered t ht
    refine ⟨Nat.lt_succ_of_lt hlt, fun hmem => ?_⟩
    rcases List.mem_cons.mp hmem with h | h
    · exact Nat.ne_of_lt hlt h
    · exact hdone h
  by_cases hinvite : q.method = .invite
  · rw [hinvite] at hok ⊢
    refine ⟨⟨⟨hs.latest, hs.once, fun t ht => ?_⟩, hsorted, hbound', hanswered⟩,
      hnext, hnew, fun h => absurd hinvite h, fun h => ?_⟩
    · rcases List.mem_cons.mp ht with rfl | ht
      · exact .inl rfl
      · rcases hs.found t ht with h | h
        · exact absurd ht (hok t h)
        · exact .inr h
    · rw [hinvite] at h
      cases h
  · by_cases hupdate : q.method = .update
    · rw [hupdate] at hok ⊢
      refine ⟨⟨⟨hs.latest, hs.once, fun t ht => ?_⟩, hsorted, hbound', hanswered⟩,
        hnext, hnew, fun _ h => absurd hupdate h, fun _ => rfl⟩
      rcases List.mem_cons.mp ht with rfl | ht
      · exact .inr rfl
      · rcases hs.found t ht with h | h
        · exact .inl h
        · exact absurd ht (hok t h)
    · have heq : OpAction.apply (.receive q.method) s = { s with received := s.received + 1 } := by
        rw [OpAction.apply, if_neg hinvite, if_neg hupdate,
          if_neg (not_or_intro hinvite hupdate)]
      rw [heq]
      refine ⟨⟨⟨hs.latest, hs.once, hs.found⟩, hs.sorted, hbound, fun t ht => ?_⟩,
        hnext, hnew, fun _ _ => hlast, fun h => absurd h hupdate⟩
      exact ⟨Nat.lt_succ_of_lt (hs.answered t ht).1, (hs.answered t ht).2⟩

/-- A program that ends in the invariant. -/
abbrev Ends (p : OpProg Unit) (s : CallOp) : Prop :=
  inTurn.wp p (fun _ s' => s'.Waiting) s

theorem ends_of_acts {p : OpProg Unit} (hp : p.Acts OpAction.mayRespond) {s : CallOp}
    (hs : s.Waiting) : Ends p s :=
  (keeps_of_mayRespond hp).idle hs trivial

theorem waiting_final {t : TransId} {s : CallOp} (hs : s.Waiting) (ht : t < s.received)
    (hnew : .final t ∉ s.trace) : (OpAction.apply (.final t) s).Waiting :=
  hs.responded ht hnew hs.latest

section requests

variable {q : SalRequest} {t : TransId} {s : CallOp}

/-- What an upcall leaves of a transaction that is neither of an INVITE nor of an UPDATE. -/
theorem CallOp.Received.after {s' : CallOp} (hr : CallOp.Received q t s)
    (h : CallOp.OnlyAnswers s s') (hinvite : q.method ≠ .invite) (hupdate : q.method ≠ .update) :
    t < s'.received ∧ .final t ∉ s'.trace := by
  refine ⟨by rw [h.received]; exact hr.bound, fun ht => ?_⟩
  rcases h.final t ht with h | h
  · exact hr.new h
  · exact hr.apart hinvite hupdate h

theorem ends_final (hs : s.Waiting) (hr : CallOp.Received q t s) :
    Ends (SalOpCall.perform (.final t)) s :=
  fun _ => waiting_final hs hr.bound hr.new

theorem ends_final_seq (hs : s.Waiting) (hr : CallOp.Received q t s) {p : OpProg Unit}
    (hp : p.Acts OpAction.mayRespond) :
    Ends (do
      SalOpCall.perform (.final t)
      p) s :=
  fun _ => ends_of_acts hp (waiting_final hs hr.bound hr.new)

/-- An ACK gets no response. -/
theorem acts_requestInDialog_ack (hm : q.method = .ack) :
    (requestInDialog q t).Acts OpAction.mayRespond := by
  have hearly : (requestEarly q t).Acts OpAction.mayRespond := by
    rw [requestEarly, hm]
    trivial
  refine Prog.Acts.bind (fun _ => trivial) fun s => ?_
  cases s.currentDialogState with
  | null =>
      change Prog.Acts _ (if q.method = .invite then _ else _)
      rw [if_neg (by rw [hm]; decide)]
      exact hearly
  | early => exact hearly
  | confirmed =>
      change Prog.Acts _ (requestConfirmed q t)
      rw [requestConfirmed, hm]
      exact acts_of_answers (acts_requestAck q)
  | terminated => trivial

theorem ends_requestCancel (hs : s.Waiting) (hr : CallOp.Received q t s) :
    Ends (requestCancel q t) s := by
  change Ends (if q.matched then _ else _) s
  split
  · cases hslot : s.pendingServerTrans with
    | none => trivial
    | some invite =>
        intro _ htell
        have h₁ := waiting_final hs hr.bound hr.new
        have htold := respects_mayRespond (.tell .callTerminated) _ trivial h₁ trivial htell
        refine ⟨htold.1, fun s' hs' hrel hok => ?_⟩
        have hwaits : invite ∈ s'.unanswered := hok (hrel.pendingServerTrans.trans hslot)
        exact waiting_final hs' (hs'.bound invite hwaits) fun h => (hs'.answered invite h).2 hwaits
  · exact ends_final hs hr

theorem ends_requestEarly (hs : s.Waiting) (hr : CallOp.Received q t s) :
    Ends (requestEarly q t) s := by
  unfold requestEarly
  cases q.method with
  | cancel => exact ends_requestCancel hs hr
  | update => exact ends_of_acts (acts_of_answers (acts_requestUpdating q)) hs
  | ack => trivial
  | _ => exact ends_final hs hr

theorem ends_requestConfirmed (hs : s.Waiting) (hr : CallOp.Received q t s) :
    Ends (requestConfirmed q t) s := by
  have hother := acts_of_plain (acts_upcall .other)
  unfold requestConfirmed
  cases hm : q.method with
  | ack =>
      refine ends_of_acts ?_ hs
      exact acts_of_answers (acts_requestAck q)
  | bye =>
      refine ends_final_seq hs hr ?_
      exact (acts_of_plain (acts_upcall .callTerminated)).bind fun _ => ⟨trivial, trivial⟩
  | invite => exact ends_of_acts (acts_of_answers (acts_requestUpdating q)) hs
  | update =>
      cases q.body with
      | empty =>
          intro _ _
          refine ((waiting_final hs hr.bound hr.new).cleared fun t' ht' hmem => ?_).1
          have heq : t' = t := Option.some.inj (ht'.symm.trans (hr.slot hm))
          rw [heq] at hmem
          exact hs.nodup.not_mem_erase hmem
      | _ => exact ends_of_acts (acts_of_answers (acts_requestUpdating q)) hs
  | info =>
      intro _
      obtain ⟨h₁, r₁⟩ := respects_mayRespond (.tell .other) s trivial hs trivial trivial
      refine ⟨h₁, fun s' hs' hrel _ => ?_⟩
      obtain ⟨hbound, hnew⟩ := hr.after (r₁.trans hrel) (by rw [hm]; decide) (by rw [hm]; decide)
      exact waiting_final hs' hbound hnew
  | refer => exact ends_final_seq hs hr hother
  | notify => exact ends_final_seq hs hr hother
  | message => exact ends_of_acts hother hs
  | _ => exact ends_final hs hr

theorem ends_requestInDialog (hs : s.Waiting) (hr : CallOp.Received q t s) :
    Ends (requestInDialog q t) s := by
  rw [Ends, requestInDialog, wp_getOp]
  cases s.currentDialogState with
  | null =>
      change Ends (if q.method = .invite then _ else _) s
      split
      · exact ends_of_acts (acts_of_answers (acts_requestInvite q)) hs
      · exact ends_requestEarly hs hr
  | early => exact ends_requestEarly hs hr
  | confirmed => exact ends_requestConfirmed hs hr
  | terminated => exact hs

theorem ends_when {b : Bool} {x : OpAction} {p : OpProg Unit} (hno : Ends p s)
    (hyes : Ends p (x.apply s)) :
    Ends (do
      Prog.when b (SalOpCall.perform x)
      p) s := by
  cases b with
  | true => exact fun _ => hyes
  | false => exact hno

/-- The request in its dialog, whatever became of the SDP and of the dialog before. -/
theorem ends_requestReceived (b b' : Bool) {f : OpMedia → OpMedia} {d : Option DialogId}
    (h : ∀ s' : CallOp, s'.responses = s.responses → s'.unanswered = s.unanswered →
      s'.received = s.received → s'.pendingServerTrans = s.pendingServerTrans →
      s'.pendingUpdateServerTrans = s.pendingUpdateServerTrans → s'.trace = s.trace →
      Ends (requestInDialog q t) s') :
    Ends (do
      Prog.when b (SalOpCall.perform (.media f))
      Prog.when b' (SalOpCall.perform (.setDialog d))
      requestInDialog q t) s := by
  refine ends_when (ends_when ?_ ?_) (ends_when ?_ ?_)
  · exact h _ rfl rfl rfl rfl rfl rfl
  · exact h _ rfl rfl rfl rfl rfl rfl
  · exact h _ rfl rfl rfl rfl rfl rfl
  · exact h _ rfl rfl rfl rfl rfl rfl

theorem ends_callProcessRequest (hs : s.Waiting) : Ends (callProcessRequest q) s := by
  by_cases hm : q.method = .ack
  · have hno : decide (q.method ≠ .ack) = false := by
      rw [hm]
      rfl
    change Ends (Prog.when (q.method ≠ .ack) (SalOpCall.perform (.receive q.method)) >>= fun _ =>
      _) s
    rw [hno]
    refine ends_requestReceived _ _ fun s' h₁ h₂ h₃ h₄ h₅ h₆ => ?_
    have hs' := (hs.congr h₁ h₂ h₃ h₄ h₅ fun t => by rw [h₆]).1
    exact ends_of_acts (acts_requestInDialog_ack hm) hs'
  · have hyes : decide (q.method ≠ .ack) = true := decide_eq_true hm
    change Ends (Prog.when (q.method ≠ .ack) (SalOpCall.perform (.receive q.method)) >>= fun _ =>
      _) s
    rw [hyes]
    intro hok
    obtain ⟨hs₁, hr⟩ := hs.receive q hok
    refine ends_requestReceived _ _ fun s' h₁ h₂ h₃ h₄ h₅ h₆ => ?_
    have hs' := (hs₁.congr h₁ h₂ h₃ h₄ h₅ fun t => by rw [h₆]).1
    refine ends_requestInDialog hs' ⟨?_, ?_, ?_, ?_⟩
    · rw [h₃]
      exact hr.bound
    · rw [h₆]
      exact hr.new
    · rw [h₂]
      exact hr.apart
    · rw [h₅]
      exact hr.slot

/-- **Requests**, with all they lead to. -/
theorem ends_processRequestEvent (hs : s.Waiting) : Ends (processRequestEvent q) s := by
  intro _
  have hmoved := respects_mayRespond (.moveDialog q.dialog.1 q.dialog.2) s trivial hs trivial
    trivial
  change inTurn.wp (Prog.when _ (callProcessRequest q)) _ _
  rw [Contract.wp_when]
  split
  · exact ends_callProcessRequest hmoved.1
  · exact hmoved.1

end requests

/-! ## Runs -/

/-- The end of a transaction leaves neither of the two slots with it. -/
theorem CallOp.Waiting.ended {s : CallOp} (hs : s.Waiting) (t : TransId) :
    (OpAction.apply (.endTrans t) s).Waiting := by
  have hne : ∀ t' ∈ s.unanswered.erase t, t' ≠ t := by
    rintro t' ht' rfl
    exact hs.nodup.not_mem_erase ht'
  refine ⟨⟨hs.latest, hs.once, fun t' ht' => ?_⟩, hs.sorted.sublist List.erase_sublist,
    fun t' ht' => hs.bound t' (List.mem_of_mem_erase ht'), fun t' ht' => ?_⟩
  · have hkeep : ∀ o : Option TransId, t' ∈ o → t' ∈ o.filter (· ≠ t) := by
      intro o ho
      rw [Option.mem_filter_iff]
      exact ⟨ho, decide_eq_true (hne t' ht')⟩
    exact (hs.found t' (List.mem_of_mem_erase ht')).imp (hkeep _) (hkeep _)
  · obtain ⟨hlt, hdone⟩ := hs.answered t' ht'
    exact ⟨hlt, fun h => hdone (List.mem_of_mem_erase h)⟩

theorem ends_salEvent (e : SalEvent) {s : CallOp} (hs : s.Waiting) : Ends e.program s := by
  by_cases hresponse : ∃ r, e = .response r
  · obtain ⟨r, rfl⟩ := hresponse
    exact ends_of_acts (acts_processResponseEvent r) hs
  by_cases hrequest : ∃ q, e = .request q
  · obtain ⟨q, rfl⟩ := hrequest
    exact ends_processRequestEvent hs
  by_cases hend : ∃ m code t, e = .transactionTerminated m code (some t)
  · obtain ⟨m, code, t, rfl⟩ := hend
    intro _
    have hrest : Ends (Prog.when (s.state = .terminating && m = .bye && code ≠ some 401 &&
        code ≠ some 407 && s.dialog.isNone) callSetReleased) (OpAction.apply (.endTrans t) s) :=
      ends_of_acts (Prog.Acts.when (acts_of_plain acts_callSetReleased)) (hs.ended t)
    exact hrest
  · refine ends_of_acts (acts_of_plain (e.acts_program ?_ ?_ ?_)) hs
    · exact fun r h => hresponse ⟨r, h⟩
    · exact fun q h => hrequest ⟨q, h⟩
    · exact fun m code t h => hend ⟨m, code, t, h⟩

theorem meets_inTurn : Meets inTurn (opSystem AnswersInTurn) where
  init := by
    rintro s ⟨dir, handling, cnx, one, authInfo, rfl⟩
    refine ⟨⟨nofun, fun t => Nat.zero_le 1, nofun⟩, .nil, nofun, nofun⟩
  ok _ _ h := h
  api := by
    rintro s _ ⟨a, -, rfl⟩ hs
    exact keeps_salCall a s hs trivial
  event := by
    rintro s _ ⟨e, -, rfl⟩ hs
    exact ends_salEvent e hs

/-- **Answers go where they belong.** In every run in which the two slots are enough, accept and
decline respond to the latest request without a response, which they find, and no request gets
two. -/
theorem answeredInTurn_of_reachable {cfg : Config opSig}
    (hr : Reachable (opSystem AnswersInTurn) cfg) (ho : cfg.Observed) :
    CallOp.AnsweredInTurn cfg.state :=
  (meets_inTurn.inv_of_reachable hr ho).toAnsweredInTurn

/-! ## An UPDATE after the INVITE -/

/-- The INVITE comes in. -/
def invitedOp : CallOp :=
  opAfter (fun x s => AnswersInTurn x s) (offered .invite .null).program
    (.fresh .incoming .normal false false false)

/-- It is accepted. -/
def acceptedOp : CallOp := opAfter (fun x s => AnswersInTurn x s) SalCall.accept.program invitedOp

/-- An UPDATE comes in, and the transaction of the INVITE is still there. -/
def updatedOp : CallOp :=
  opAfter (fun x s => AnswersInTurn x s) (offered .update .confirmed).program acceptedOp

theorem reachable_updatedOp {ok : OpAction → CallOp → Prop}
    (hok : ∀ x s, AnswersInTurn x s → ok x s) : Reachable (opSystem ok) ⟨[], updatedOp⟩ := by
  have hok' : ∀ x s, decide (AnswersInTurn x s) = true → ok x s :=
    fun x s h => hok x s (of_decide_eq_true h)
  have hinvited := reachable_afterEvent hok' (reachable_fresh ok .incoming)
    (offered .invite .null) trivial rfl
  have haccepted := reachable_afterCall hok' hinvited .accept rfl rfl
  exact reachable_afterEvent hok' haccepted (offered .update .confirmed) trivial rfl

/-- When the UPDATE is accepted, it is the one that is answered. -/
theorem answeredInTurn_of_accept :
    CallOp.AnsweredInTurn (opAfter (fun x s => AnswersInTurn x s) SalCall.accept.program
      updatedOp) := by
  have hok : ∀ x s, decide (AnswersInTurn x s) = true → AnswersInTurn x s :=
    fun x s h => of_decide_eq_true h
  have hr := reachable_afterCall hok (reachable_updatedOp fun x s h => h) .accept rfl rfl
  exact answeredInTurn_of_reachable hr (.inl rfl)

/-- When it is declined, the INVITE gets a second final response. -/
theorem declined_update_answers_invite : ¬∀ cfg : Config opSig,
    Reachable (opSystem fun _ _ => True) cfg → cfg.Observed →
      CallOp.AnsweredInTurn cfg.state := by
  intro h
  have hdeclined := reachable_afterCall (b := fun _ _ => true) (fun _ _ _ => trivial)
    (reachable_updatedOp fun _ _ _ => trivial) .decline rfl rfl
  have hresponse := (h _ hdeclined (.inl rfl)).latest (0, some 1) List.mem_cons_self
  exact absurd hresponse (by decide)

end Linphone
