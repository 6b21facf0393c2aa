import Linphone.Sal.Authentication

/-!
# What becomes of a challenge

The runs of `SalAuth`: what holds of the operations after any sequence of responses and credentials,
as long as an operation that waits is left alone and the stack does what it is asked.
-/

namespace Linphone

namespace SalAuth

/-! ## What is promised -/

/-- An operation waits for credentials: it is listed once, with the transaction that was
challenged. -/
def Waits (sal : SalAuth) (op : Nat) (tr : ChallengedTrans) : Prop :=
  sal.kind op = .handled ∧ sal.pendingAuths.count op = 1 ∧
    (sal.ops op).pendingAuthTransaction = some tr

/-- A challenge leads to one of three: the request is sent again, the operation waits, or the
failure is delivered to the handlers of the operation. -/
def Settled (sal : SalAuth) (out : List AuthOutput) (op : Nat) (tr : ChallengedTrans)
    (code : Nat) : Prop :=
  (resents op out = [tr] ∧ op ∉ sal.pendingAuths ∧ .delivered op code ∉ out) ∨
    (resents op out = [] ∧ sal.Waits op tr ∧ .delivered op code ∉ out) ∨
    (resents op out = [] ∧ op ∉ sal.pendingAuths ∧ .delivered op code ∈ out)

/-- What is promised of a step. -/
structure Good (sal : SalAuth) (event : AuthEvent) (sal' : SalAuth) (out : List AuthOutput) :
    Prop where
  challenge : ∀ op tr code env retry, event = .response op tr code env retry →
    isChallenge code = true → challenged (sal.ops op) tr = true → Settled sal' out op tr code
  /-- A request that waits is kept until it is sent again. -/
  waits : ∀ op tr, sal.Waits op tr →
    sal'.Waits op tr ∨ resents op out = [tr] ∨ event = .freed op
  /-- Credentials resume the request. -/
  credentials : ∀ c, event = .credentials c → ∀ op tr, sal.Waits op tr →
    (sal.ops op).authInfo.any c.finds = true → (c.resend op).authorized = true →
      resents op out = [tr] ∧ op ∉ sal'.pendingAuths

/-! ## The condition -/

/-- An operation that waits for credentials has no other request answered. -/
def NotWaiting (sal : SalAuth) (op : Nat) : Prop :=
  sal.kind op = .handled → (sal.ops op).hasAuthPending = false

/-- The steps on which the promises depend. -/
def Careful (sal : SalAuth) : AuthEvent → Prop
  | .response op tr code env retry =>
      (isChallenge code = true → challenged (sal.ops op) tr = true →
        sal.kind op = .handled ∧ sal.NotWaiting op ∧
          ((sal.ops op).authRequests < 2 → env.Works (sal.ops op) tr)) ∧
        (resetsAuthRequests code = true → (sal.ops op).state ≠ .terminated → sal.NotWaiting op) ∧
        ∀ c ∈ retry, sal.CredentialsWork c
  | .ioError op => sal.NotWaiting op
  | .credentials c => sal.CredentialsWork c
  | .registerAnswered _ _ _ _ retry => ∀ c ∈ retry, sal.CredentialsWork c
  | .changed _ _ _ => True
  | .freed _ => True

/-! ## Runs -/

/-- What happened, the latest first. -/
abbrev AuthTrace : Type := List (AuthEvent × List AuthOutput)

/-- Runs in which every step meets the condition. -/
inductive CarefulRun (kind : Nat → AuthOpKind) : SalAuth → AuthTrace → Prop
  | start : CarefulRun kind { kind := kind } []
  | step {sal sal' : SalAuth} {trace : AuthTrace} {event : AuthEvent} {out : List AuthOutput}
      (run : CarefulRun kind sal trace) (careful : sal.Careful event)
      (eq : sal.step event = some (sal', out)) : CarefulRun kind sal' ((event, out) :: trace)

/-- Another kind of response, or none at all. -/
def AuthEvent.endsRow (op : Nat) : AuthEvent → Bool
  | .response p _ code _ _ => p = op && !isChallenge code
  | .ioError p => p = op
  | _ => false

/-- The requests of an operation that were sent again in a row. -/
def rowOf (op : Nat) : AuthTrace → Nat
  | [] => 0
  | (event, out) :: trace =>
      (if event.endsRow op then 0 else rowOf op trace) + (resents op out).length

/-- Of two attempts in a row, those that were made and the one that is waited for are counted. -/
def RowInv (k : AuthOpKind) (o : AuthOp) (row : Nat) : Prop :=
  row + (if k = .handled ∧ o.hasAuthPending = true then 1 else 0) ≤ min 2 o.authRequests

theorem RowInv.resumed {k : AuthOpKind} {o : AuthOp} {row : Nat} (h : RowInv k o row)
    (c : Credentials) (p : Nat) :
    RowInv k (SalAuth.resumed c k p o) (row + (resumedTrans c k p o).length) := by
  unfold SalAuth.resumed resumedTrans
  cases hr : resumes c k p o with
  | false => simpa using h
  | true =>
    simp only [resumes, Bool.and_eq_true, decide_eq_true_eq] at hr
    obtain ⟨⟨⟨hk, hflag⟩, -⟩, -⟩ := hr
    have hlen : o.pendingAuthTransaction.toList.length ≤ 1 := by
      cases o.pendingAuthTransaction with
      | none => simp
      | some tr => simp
    simp only [RowInv, hk, hflag, and_self, if_true] at h
    simp only [RowInv, if_true, Bool.false_eq_true, and_false, if_false]
    omega

theorem RowInv.mono {k : AuthOpKind} {o : AuthOp} {row row' : Nat} (h : RowInv k o row)
    (hrow : row' ≤ row) : RowInv k o row' := by
  unfold RowInv at h ⊢
  omega

/-- What holds of every state of a run. -/
structure AuthInv (sal : SalAuth) (trace : AuthTrace) : Prop where
  linked : sal.Linked
  ops : ∀ op, AuthOpInv (sal.kind op) (sal.ops op)
  rows : ∀ op, RowInv (sal.kind op) (sal.ops op) (rowOf op trace)

/-! ## One step -/

variable {sal sal' : SalAuth} {trace : AuthTrace} {event : AuthEvent} {op : Nat} {o : AuthOp}
  {tr : ChallengedTrans} {retry : Option Credentials}

theorem Linked.waits_iff (h : sal.Linked) :
    sal.Waits op tr ↔ sal.kind op = .handled ∧ (sal.ops op).hasAuthPending = true ∧
      (sal.ops op).pendingAuthTransaction = some tr := by
  unfold Waits
  rw [h op]
  by_cases hflag : (sal.ops op).hasAuthPending = true
  · simp [hflag]
  · simp [hflag]

/-- A step keeps the invariant and the promises. -/
def Sound (sal : SalAuth) (trace : AuthTrace) (event : AuthEvent) : Prop :=
  ∃ sal' out, sal.step event = some (sal', out) ∧ sal'.AuthInv ((event, out) :: trace) ∧
    Good sal event sal' out

/-- The row of an operation before what a step sends again. -/
def rowBefore (op : Nat) (event : AuthEvent) (trace : AuthTrace) : Nat :=
  if event.endsRow op then 0 else rowOf op trace

theorem rowBefore_le (op : Nat) (event : AuthEvent) (trace : AuthTrace) :
    rowBefore op event trace ≤ rowOf op trace := by
  unfold rowBefore
  split
  · exact Nat.zero_le _
  · exact Nat.le_refl _

theorem AuthInv.rowBefore (h : sal.AuthInv trace) (op : Nat) (event : AuthEvent) :
    RowInv (sal.kind op) (sal.ops op) (SalAuth.rowBefore op event trace) :=
  (h.rows op).mono (rowBefore_le op event trace)

theorem sound_of (out : List AuthOutput) {f : Nat → AuthOp}
    (hstep : sal.step event = some (sal', out)) (hbecomes : sal.Becomes sal' f)
    (hops : ∀ op, AuthOpInv (sal.kind op) (f op))
    (hrows : ∀ op, RowInv (sal.kind op) (f op)
      (rowBefore op event trace + (resents op out).length))
    (hgood : Good sal event sal' out) : Sound sal trace event := by
  refine ⟨sal', out, hstep, ⟨hbecomes.linked, fun op => ?_, fun op => ?_⟩, hgood⟩
  · rw [hbecomes.kind, hbecomes.ops]
    exact hops op
  · rw [hbecomes.kind, hbecomes.ops]
    exact hrows op

/-- Nothing is sent again, and an operation changes in what the list does not depend on. -/
theorem sound_of_set (h : sal.AuthInv trace) (op : Nat) (o : AuthOp) (out : List AuthOutput)
    (hstep : sal.step event = some (sal.set op o, out))
    (hflag : o.hasAuthPending = (sal.ops op).hasAuthPending)
    (htr : o.pendingAuthTransaction = (sal.ops op).pendingAuthTransaction)
    (hinfo : o.authInfo = (sal.ops op).authInfo)
    (hrow : RowInv (sal.kind op) o (rowBefore op event trace)) (hout : ∀ p, resents p out = [])
    (hchallenge : ∀ p tr code env retry, event = .response p tr code env retry →
      isChallenge code = true → challenged (sal.ops p) tr = true → False)
    (hcredentials : ∀ c, event ≠ .credentials c) : Sound sal trace event := by
  have hbecomes := h.linked.becomes_set op hflag
  refine sound_of _ hstep hbecomes ?_ ?_ ⟨?_, ?_, ?_⟩
  · intro p
    by_cases hp : p = op
    · subst hp
      rw [Function.update_self]
      refine ⟨?_, ?_, ?_⟩
      · rw [hflag, hinfo]
        exact (h.ops p).asked
      · rw [hflag]
        exact (h.ops p).answered
      · rw [hflag, hinfo, htr]
        exact (h.ops p).retained
    · rw [Function.update_of_ne hp]
      exact h.ops p
  · intro p
    rw [hout p]
    by_cases hp : p = op
    · subst hp
      rw [Function.update_self]
      exact hrow
    · rw [Function.update_of_ne hp]
      exact h.rowBefore p event
  · intro p tr code env retry heq hcode hchallenged
    exact (hchallenge p tr code env retry heq hcode hchallenged).elim
  · intro p tr hwaits
    left
    rw [hbecomes.linked.waits_iff, hbecomes.kind, hbecomes.ops]
    rw [h.linked.waits_iff] at hwaits
    by_cases hp : p = op
    · subst hp
      rw [Function.update_self, hflag, htr]
      exact hwaits
    · rw [Function.update_of_ne hp]
      exact hwaits
  · intro c heq
    exact absurd heq (hcredentials c)

/-- Credentials: a request that waits is kept, or is sent again. -/
theorem waits_of_resumed (h : sal.Linked) {f : Nat → AuthOp} {c : Credentials}
    (hbecomes : sal.Becomes sal' f) (hf : f op = resumed c (sal.kind op) op (sal.ops op))
    {out : List AuthOutput} (hout : resents op out = resumedTrans c (sal.kind op) op (sal.ops op))
    (hwaits : sal.Waits op tr) : sal'.Waits op tr ∨ resents op out = [tr] := by
  rw [h.waits_iff] at hwaits
  cases hr : resumes c (sal.kind op) op (sal.ops op) with
  | true =>
    right
    rw [hout, resumedTrans, if_pos hr, hwaits.2.2]
    rfl
  | false =>
    left
    rw [hbecomes.linked.waits_iff, hbecomes.kind, hbecomes.ops, hf, resumed]
    simpa [hr] using hwaits

theorem sound_self (h : sal.AuthInv trace) (out : List AuthOutput)
    (hstep : sal.step event = some (sal, out)) (hout : ∀ p, resents p out = [])
    (hchallenge : ∀ p tr code env retry, event = .response p tr code env retry →
      isChallenge code = true → challenged (sal.ops p) tr = true → False)
    (hcredentials : ∀ c, event ≠ .credentials c) : Sound sal trace event := by
  have hself : sal.set 0 (sal.ops 0) = sal := by
    simp [set, Function.update_eq_self]
  rw [← hself] at hstep
  exact sound_of_set h _ _ out (by rw [hself] at hstep ⊢; exact hstep) rfl rfl rfl
    (h.rowBefore 0 event) hout hchallenge hcredentials

theorem resumes_of_not_flagged (c : Credentials) (k : AuthOpKind) (p : Nat)
    (h : o.hasAuthPending = false) : resumes c k p o = false := by
  simp [resumes, h]

theorem not_flagged {k : AuthOpKind} (h : o.hasAuthPending = false) : AuthOpInv k o :=
  ⟨by simp [h], by simp [h], by simp [h]⟩

/-- Third challenge in a row: the failure is delivered. -/
theorem sound_gives_up (h : sal.AuthInv trace) {code : Nat} {env : Resend}
    (hkind : sal.kind op = .handled) (hcode : isChallenge code = true)
    (hchallenged : challenged (sal.ops op) tr = true) (hflag : (sal.ops op).hasAuthPending = false)
    (hc : ∀ c ∈ retry, sal.CredentialsWork c) (hmany : (sal.ops op).authRequests + 1 > 2) :
    Sound sal trace (.response op tr code env retry) := by
  let o : AuthOp :=
    { sal.ops op with
      pendingAuthTransaction := none, authRequests := (sal.ops op).authRequests + 1 }
  let c := retry.getD noCredentials
  have hset : sal.Becomes (sal.set op o) (Function.update sal.ops op o) :=
    h.linked.becomes_set op rfl
  have hinv : ∀ p, AuthOpInv ((sal.set op o).kind p) ((sal.set op o).ops p) := by
    intro p
    rw [set_kind, set_ops]
    by_cases hp : p = op
    · subst hp
      rw [Function.update_self]
      exact not_flagged hflag
    · rw [Function.update_of_ne hp]
      exact h.ops p
  have hwork : ∀ c ∈ retry, (sal.set op o).CredentialsWork c := by
    intro c hmem p tr hpkind hpflag hfound htr
    rw [set_ops] at hpflag hfound htr ⊢
    by_cases hp : p = op
    · subst hp
      rw [Function.update_self] at hpflag
      exact absurd hpflag (by simp [o, hflag])
    · rw [Function.update_of_ne hp] at hpflag hfound htr ⊢
      exact hc c hmem p tr hpkind hpflag hfound htr
  obtain ⟨sal₁, out, hfail, hbecomes, hres, hdel⟩ := authFailure_eq hset.linked hinv op hwork
  have hremoved := hbecomes.linked.becomes_removePendingAuth op
  have hstep : sal.step (.response op tr code env retry) =
      some (sal₁.removePendingAuth op, out ++ [.delivered op code]) := by
    have hstate : (sal.ops op).state ≠ .terminated := by
      simp only [challenged, Bool.and_eq_true, decide_eq_true_eq] at hchallenged
      exact hchallenged.1
    have hreset : resetsAuthRequests code = false := by simp [resetsAuthRequests, hcode]
    simp only [step, processResponseEvent, hstate, hkind, hcode, hchallenged, processChallenge,
      hmany, ne_eq, not_true_eq_false, if_true]
    rw [show sal.set op { sal.ops op with
      pendingAuthTransaction := none, authRequests := (sal.ops op).authRequests + 1 } =
        sal.set op o from rfl, hfail]
    simp [deliver, hreset]
  have hno : ∀ k, resumes c k op o = false := fun k => resumes_of_not_flagged c k op hflag
  let f : Nat → AuthOp :=
    Function.update (fun p => resumed c (sal.kind p) p (sal.ops p)) op o
  have hf : sal.Becomes (sal₁.removePendingAuth op) f := by
    refine ⟨hremoved.linked, hremoved.kind.trans hbecomes.kind, ?_⟩
    have hat : sal₁.ops op = o := by
      rw [hbecomes.ops]
      show resumed c _ op (Function.update sal.ops op o op) = o
      rw [Function.update_self, resumed, if_neg (by simp [hno])]
    have hsame : { o with hasAuthPending := false } = o := by
      rw [show false = o.hasAuthPending from hflag.symm]
    rw [hremoved.ops]
    funext p
    by_cases hp : p = op
    · subst hp
      rw [Function.update_self, hat, hsame]
      simp [f]
    · rw [Function.update_of_ne hp, hbecomes.ops]
      simp [f, hp, c]
  have hout : ∀ p, resents p (out ++ [.delivered op code]) =
      if p = op then [] else resumedTrans c (sal.kind p) p (sal.ops p) := by
    intro p
    rw [resents_append, hres p, resents_delivered, List.append_nil]
    by_cases hp : p = op
    · subst hp
      rw [set_ops, Function.update_self, resumedTrans, if_neg (by simp [c, hno]), if_pos rfl]
    · rw [set_ops, Function.update_of_ne hp, if_neg hp]
      rfl
  refine sound_of _ hstep hf ?_ ?_ ⟨?_, ?_, ?_⟩
  · intro p
    by_cases hp : p = op
    · subst hp
      have hfp : f p = o := by simp [f]
      rw [hfp]
      exact not_flagged hflag
    · simpa [f, hp] using (h.ops p).resumed
  · intro p
    rw [hout p]
    by_cases hp : p = op
    · subst hp
      have hrow := h.rowBefore p (.response p tr code env retry)
      simp only [RowInv, hflag] at hrow
      simp only [f, o, RowInv, Function.update_self, hflag, if_true, List.length_nil]
      omega
    · simpa [f, hp] using
        (h.rowBefore p (.response op tr code env retry)).resumed c p
  · intro p tr' code' env' retry' heq _ _
    injection heq with hp htr' hcode'
    subst hp htr' hcode'
    refine Or.inr (Or.inr ⟨by rw [hout, if_pos rfl], ?_, by simp⟩)
    rw [hf.linked.mem_iff, hf.ops]
    simp [f, o, hflag]
  · intro p tr' hwaits
    by_cases hp : p = op
    · subst hp
      rw [h.linked.waits_iff, hflag] at hwaits
      exact absurd hwaits.2.1 (by simp)
    · have hfp : f p = resumed c (sal.kind p) p (sal.ops p) := by simp [f, hp]
      have houtp := hout p
      rw [if_neg hp] at houtp
      exact (waits_of_resumed h.linked hf hfp houtp hwaits).imp_right Or.inl
  · intro c' heq
    simp at heq

/-- First or second challenge in a row: the operation is authenticated. -/
theorem sound_authenticates (h : sal.AuthInv trace) {code : Nat} {env : Resend}
    (hkind : sal.kind op = .handled) (hcode : isChallenge code = true)
    (hchallenged : challenged (sal.ops op) tr = true) (hflag : (sal.ops op).hasAuthPending = false)
    (hfew : (sal.ops op).authRequests < 2) (henv : env.Works (sal.ops op) tr) :
    Sound sal trace (.response op tr code env retry) := by
  let o : AuthOp :=
    { sal.ops op with
      pendingAuthTransaction := some tr, authRequests := (sal.ops op).authRequests + 1 }
  have hset : sal.Becomes (sal.set op o) (Function.update sal.ops op o) :=
    h.linked.becomes_set op rfl
  have hat : (sal.set op o).ops op = o := by simp
  have htr : ((sal.set op o).ops op).pendingAuthTransaction = some tr := by rw [hat]
  have henv' : env.Works ((sal.set op o).ops op) tr := by
    rw [hat]
    exact ⟨henv.newRequest, henv.sent, henv.challenge⟩
  obtain ⟨sal₁, heq, hbecomes⟩ := processAuthentication_eq hset.linked htr henv'
  let o' : AuthOp := { o with hasAuthPending := !env.authorized, authInfo := tr.challenge }
  have hf : sal.Becomes sal₁ (Function.update sal.ops op o') := by
    refine ⟨hbecomes.linked, hbecomes.kind, ?_⟩
    rw [hbecomes.ops, hat, set_ops, Function.update_idem]
  let out : List AuthOutput := if env.authorized then [.resent op tr] else []
  have hstep : sal.step (.response op tr code env retry) = some (sal₁, out) := by
    have hstate : (sal.ops op).state ≠ .terminated := by
      simp only [challenged, Bool.and_eq_true, decide_eq_true_eq] at hchallenged
      exact hchallenged.1
    have hmany : ¬(sal.ops op).authRequests + 1 > 2 := by omega
    simp only [step, processResponseEvent, hstate, hkind, hcode, hchallenged, processChallenge,
      hmany, ne_eq, not_true_eq_false, if_false, if_true]
    exact heq
  have hout : ∀ p, resents p out = if p = op ∧ env.authorized = true then [tr] else [] := by
    intro p
    by_cases hp : p = op
    · subst hp
      cases hauth : env.authorized with
      | true => simp [out, hauth]
      | false => simp [out, hauth]
    · cases hauth : env.authorized with
      | true => simpa [out, hauth, hp] using resents_resent_ne (fun heq => hp heq.symm) tr
      | false => simp [out, hauth]
  have hdel : .delivered op code ∉ out := by
    cases hauth : env.authorized with
    | true => simp [out, hauth]
    | false => simp [out, hauth]
  refine sound_of _ hstep hf ?_ ?_ ⟨?_, ?_, ?_⟩
  · intro p
    by_cases hp : p = op
    · subst hp
      rw [Function.update_self]
      refine ⟨?_, ?_, ?_⟩
      · intro hpending
        have hauth : env.authorized = false := by simpa [o'] using hpending
        simpa [hauth] using henv.challenge
      · intro _
        rw [hkind]
        simp
      · intro _ _
        exact ⟨tr, rfl, rfl⟩
    · rw [Function.update_of_ne hp]
      exact h.ops p
  · intro p
    rw [hout p]
    by_cases hp : p = op
    · subst hp
      have hrow := h.rowBefore p (.response p tr code env retry)
      simp only [RowInv, hflag, Bool.false_eq_true, and_false, if_false] at hrow
      rw [Function.update_self]
      cases hauth : env.authorized with
      | true =>
        simp only [RowInv, o', o, hauth]
        simp
        omega
      | false =>
        simp only [RowInv, o', o, hauth, hkind]
        simp
        omega
    · rw [Function.update_of_ne hp]
      simpa [hp] using h.rowBefore p (.response op tr code env retry)
  · intro p tr' code' env' retry' heq _ _
    injection heq with hp htr' hcode'
    subst hp htr' hcode'
    cases hauth : env.authorized with
    | true =>
      left
      refine ⟨by simp [hout, hauth], ?_, hdel⟩
      rw [hf.linked.mem_iff, hf.ops]
      simp [o', hauth]
    | false =>
      right
      left
      refine ⟨by simp [hout, hauth], ?_, hdel⟩
      rw [hf.linked.waits_iff, hf.kind, hf.ops]
      simp [o', o, hauth, hkind]
  · intro p tr' hwaits
    by_cases hp : p = op
    · subst hp
      rw [h.linked.waits_iff, hflag] at hwaits
      exact absurd hwaits.2.1 (by simp)
    · left
      rw [hf.linked.waits_iff, hf.kind, hf.ops, Function.update_of_ne hp]
      exact h.linked.waits_iff.mp hwaits
  · intro c' heq
    simp at heq

/-- Credentials are supplied in the course of a step, which changes nothing else. -/
theorem sound_of_resumed (h : sal.AuthInv trace) (out : List AuthOutput) {c : Credentials}
    (hstep : sal.step event = some (sal', out))
    (hbecomes : sal.Becomes sal' (fun p => resumed c (sal.kind p) p (sal.ops p)))
    (hout : ∀ p, resents p out = resumedTrans c (sal.kind p) p (sal.ops p))
    (hchallenge : ∀ p tr code env retry, event = .response p tr code env retry →
      isChallenge code = true → False)
    (hcredentials : ∀ c', event = .credentials c' → c' = c) : Sound sal trace event := by
  refine sound_of _ hstep hbecomes (fun p => (h.ops p).resumed) ?_ ⟨?_, ?_, ?_⟩
  · intro p
    rw [hout p]
    exact (h.rowBefore p event).resumed c p
  · intro p tr code env retry heq hcode
    exact (hchallenge p tr code env retry heq hcode).elim
  · intro p tr hwaits
    exact (waits_of_resumed h.linked hbecomes rfl (hout p) hwaits).imp_right Or.inl
  · intro c' heq p tr hwaits hfound hauth
    have hcc := hcredentials c' heq
    subst hcc
    rw [h.linked.waits_iff] at hwaits
    obtain ⟨hkind, hflag, htr⟩ := hwaits
    have hr : resumes c' (sal.kind p) p (sal.ops p) = true := by
      simp [resumes, hkind, hflag, hfound, hauth]
    refine ⟨by rw [hout p, resumedTrans, if_pos hr, htr]; rfl, ?_⟩
    rw [hbecomes.linked.mem_iff, hbecomes.ops]
    simp [resumed, hr]

theorem sound_response (h : sal.AuthInv trace) {code : Nat} {env : Resend}
    (hcareful : sal.Careful (.response op tr code env retry)) :
    Sound sal trace (.response op tr code env retry) := by
  obtain ⟨hchallenge, hreset, hc⟩ := hcareful
  have hevent : ∀ c : Credentials, AuthEvent.response op tr code env retry ≠ .credentials c := by
    intro c
    simp
  by_cases hignored : (sal.ops op).state = .terminated ∨ sal.kind op ≠ .handled
  · refine sound_self h [] ?_ (fun _ => rfl) ?_ hevent
    · have hignored' : (decide ((sal.ops op).state = .terminated) ||
          decide (sal.kind op ≠ .handled)) = true := by simpa using hignored
      simp only [step, processResponseEvent, hignored', if_true]
    · intro p tr' code' env' retry' heq hcode hchallenged
      injection heq with hp htr' hcode'
      subst hp htr' hcode'
      rcases hignored with hstate | hkind
      · simp [challenged, hstate] at hchallenged
      · exact hkind (hchallenge hcode hchallenged).1
  · have hkind : sal.kind op = .handled := by
      by_contra hkind
      exact hignored (Or.inr hkind)
    have hstate : ((sal.ops op).state = .terminated) = False :=
      eq_false fun hstate => hignored (Or.inl hstate)
    by_cases hcode : isChallenge code = true
    · by_cases hchallenged : challenged (sal.ops op) tr = true
      · obtain ⟨-, hwaiting, henv⟩ := hchallenge hcode hchallenged
        have hflag := hwaiting hkind
        by_cases hmany : (sal.ops op).authRequests + 1 > 2
        · exact sound_gives_up h hkind hcode hchallenged hflag hc hmany
        · have hfew : (sal.ops op).authRequests < 2 := by omega
          exact sound_authenticates h hkind hcode hchallenged hflag hfew (henv hfew)
      · refine sound_self h [.delivered op code] ?_ (fun _ => rfl) ?_ hevent
        · have hno : resetsAuthRequests code = false := by simp [resetsAuthRequests, hcode]
          simp [step, processResponseEvent, hstate, hkind, hcode, hchallenged, deliver, hno]
        · intro p tr' code' env' retry' heq _ hchallenged'
          injection heq with hp htr'
          subst hp htr'
          exact hchallenged hchallenged'
    · have hnochallenge : ∀ p tr' code' env' retry', AuthEvent.response op tr code env retry =
          .response p tr' code' env' retry' → isChallenge code' = true → False := by
        intro p tr' code' env' retry' heq hcode'
        injection heq with _ _ heq
        subst heq
        exact hcode hcode'
      by_cases hforbidden : code = 403 ∧ (sal.ops op).authInfo.isSome = true
      · obtain ⟨rfl, hinfo⟩ := hforbidden
        obtain ⟨sal₁, out, hfail, hbecomes, hres, -⟩ := authFailure_eq h.linked h.ops op hc
        refine sound_of_resumed h (out ++ [.delivered op 403]) ?_ hbecomes ?_ hnochallenge ?_
        · have hno : resetsAuthRequests 403 = false := rfl
          simp [step, processResponseEvent, hstate, hkind, hcode, hinfo, hfail, deliver, hno]
        · intro p
          rw [resents_append, resents_delivered, List.append_nil]
          exact hres p
        · intro c' heq
          simp at heq
      · have hdeliver : sal.step (.response op tr code env retry) = some (sal.deliver op code) := by
          have hforbidden' : (decide (code = 403) && (sal.ops op).authInfo.isSome) = false := by
            simpa using hforbidden
          simp only [step, processResponseEvent, hstate, hkind, hcode, hforbidden', decide_false,
            ne_eq, not_true_eq_false, Bool.or_self, Bool.false_eq_true, if_false]
        cases hresets : resetsAuthRequests code with
        | false =>
          refine sound_self h [.delivered op code] ?_ (fun _ => rfl)
            (fun p tr' code' env' retry' heq hcode' _ =>
              hnochallenge p tr' code' env' retry' heq hcode') hevent
          rw [hdeliver]
          simp [deliver, hresets]
        | true =>
          have hflag := hreset hresets (fun hstate => hignored (Or.inl hstate)) hkind
          refine sound_of_set h op { sal.ops op with authRequests := 0 }
            [.delivered op code] ?_ rfl rfl rfl ?_ (fun _ => rfl)
            (fun p tr' code' env' retry' heq hcode' _ =>
              hnochallenge p tr' code' env' retry' heq hcode') hevent
          · rw [hdeliver]
            simp [deliver, hresets]
          · simp [RowInv, hflag, rowBefore, AuthEvent.endsRow, hcode]

theorem resumes_of_register {k : AuthOpKind} (hk : k = .register) (c : Credentials) (p : Nat)
    (o : AuthOp) : resumes c k p o = false := by
  simp [resumes, hk]

/-- A registration changes, and credentials are supplied. -/
theorem sound_of_register (h : sal.AuthInv trace) (hkind : sal.kind op = .register)
    {out : List AuthOutput} {c : Credentials} (hstep : sal.step event = some (sal', out))
    (hbecomes : sal.Becomes sal'
      (Function.update (fun p => resumed c (sal.kind p) p (sal.ops p)) op o))
    (hasked : o.hasAuthPending = true → o.authInfo.isSome = true)
    (hcount : o.authRequests = (sal.ops op).authRequests)
    (hout : ∀ p, resents p out = resumedTrans c (sal.kind p) p (sal.ops p))
    (hchallenge : ∀ p tr code env retry, event ≠ .response p tr code env retry)
    (hcredentials : ∀ c, event ≠ .credentials c) : Sound sal trace event := by
  have hnot : sal.kind op ≠ .handled := by simp [hkind]
  refine sound_of _ hstep hbecomes ?_ ?_ ⟨?_, ?_, ?_⟩
  · intro p
    by_cases hp : p = op
    · subst hp
      rw [Function.update_self, hkind]
      exact ⟨hasked, by simp, by simp⟩
    · rw [Function.update_of_ne hp]
      exact (h.ops p).resumed
  · intro p
    rw [hout p]
    by_cases hp : p = op
    · subst hp
      have hrow := h.rowBefore p event
      have hnone : resumedTrans c (sal.kind p) p (sal.ops p) = [] := by
        simp [resumedTrans, resumes_of_register hkind]
      rw [Function.update_self, hnone]
      simpa [RowInv, hkind, hcount] using hrow
    · rw [Function.update_of_ne hp]
      exact (h.rowBefore p event).resumed c p
  · intro p tr code env retry heq
    exact absurd heq (hchallenge p tr code env retry)
  · intro p tr hwaits
    by_cases hp : p = op
    · subst hp
      exact absurd hwaits.1 hnot
    · exact (waits_of_resumed h.linked hbecomes (Function.update_of_ne hp _ _) (hout p)
        hwaits).imp_right Or.inl
  · intro c' heq
    exact absurd heq (hcredentials c')

/-- The same, when no credentials are supplied. -/
theorem sound_of_register_set (h : sal.AuthInv trace) (hkind : sal.kind op = .register)
    (hstep : sal.step event = some (sal', []))
    (hbecomes : sal.Becomes sal' (Function.update sal.ops op o))
    (hasked : o.hasAuthPending = true → o.authInfo.isSome = true)
    (hcount : o.authRequests = (sal.ops op).authRequests)
    (hchallenge : ∀ p tr code env retry, event ≠ .response p tr code env retry)
    (hcredentials : ∀ c, event ≠ .credentials c) : Sound sal trace event := by
  refine sound_of_register h hkind (c := noCredentials) hstep ?_ hasked hcount ?_ hchallenge
    hcredentials
  · simpa [resumed] using hbecomes
  · simp [resumedTrans]

/-- A registration changes, and then its authentication fails. -/
theorem authFailure_of_register (h : sal.AuthInv trace) (hkind : sal.kind op = .register)
    (hbecomes : sal.Becomes sal' (Function.update sal.ops op o)) (hasked : o.authInfo.isSome = true)
    (hc : ∀ c ∈ retry, sal.CredentialsWork c) :
    ∃ sal'' out, sal'.authFailure op retry = some (sal'', out) ∧
      sal.Becomes sal'' (Function.update
        (fun p => resumed (retry.getD noCredentials) (sal.kind p) p (sal.ops p)) op o) ∧
      ∀ p, resents p out =
        resumedTrans (retry.getD noCredentials) (sal.kind p) p (sal.ops p) := by
  have hinv : ∀ p, AuthOpInv (sal'.kind p) (sal'.ops p) := by
    intro p
    rw [hbecomes.kind, hbecomes.ops]
    by_cases hp : p = op
    · subst hp
      rw [Function.update_self, hkind]
      exact ⟨fun _ => hasked, by simp, by simp⟩
    · rw [Function.update_of_ne hp]
      exact h.ops p
  have hwork : ∀ c ∈ retry, sal'.CredentialsWork c := by
    intro c hmem p tr hpkind hpflag hfound htr
    rw [hbecomes.kind] at hpkind
    rw [hbecomes.ops] at hpflag hfound htr ⊢
    have hp : p ≠ op := by
      intro hp
      subst hp
      simp [hkind] at hpkind
    rw [Function.update_of_ne hp] at hpflag hfound htr ⊢
    exact hc c hmem p tr hpkind hpflag hfound htr
  obtain ⟨sal'', out, heq, hafter, hres, -⟩ := authFailure_eq hbecomes.linked hinv op hwork
  refine ⟨sal'', out, heq, ⟨hafter.linked, hafter.kind.trans hbecomes.kind, ?_⟩, fun p => ?_⟩
  · rw [hafter.ops, hbecomes.kind, hbecomes.ops]
    funext p
    by_cases hp : p = op
    · subst hp
      simp [resumed, resumes_of_register hkind]
    · simp [hp]
  · rw [hres p, hbecomes.kind, hbecomes.ops]
    by_cases hp : p = op
    · subst hp
      simp [resumedTrans, resumes_of_register hkind]
    · rw [Function.update_of_ne hp]

theorem becomes_storeAuthInfo (h : sal.AuthInv trace) (op : Nat) (auth : Option AuthInfo) :
    ∃ o, sal.Becomes (sal.storeAuthInfo op auth) (Function.update sal.ops op o) ∧
      o.hasAuthPending = (sal.ops op).hasAuthPending ∧
      o.authRequests = (sal.ops op).authRequests ∧
      (o.hasAuthPending = true → o.authInfo.isSome = true) := by
  cases auth with
  | some info =>
    exact ⟨_, h.linked.becomes_set op rfl, rfl, rfl, fun _ => rfl⟩
  | none =>
    refine ⟨sal.ops op, ?_, rfl, rfl, (h.ops op).asked⟩
    simpa [storeAuthInfo] using h.linked.becomes_self

theorem Becomes.registerFailure (h : sal.Becomes sal' (Function.update sal.ops op o))
    (released : Bool) :
    ∃ o', sal.Becomes (sal'.registerFailure op released) (Function.update sal.ops op o') ∧
      o'.hasAuthPending = o.hasAuthPending ∧ o'.authRequests = o.authRequests ∧
      o'.authInfo = o.authInfo := by
  cases released with
  | false => exact ⟨o, by simpa [SalAuth.registerFailure] using h, rfl, rfl, rfl⟩
  | true =>
    have hat : sal'.ops op = o := by rw [h.ops, Function.update_self]
    have hset := h.set op (o := { o with state := .terminated }) (by simp)
    rw [Function.update_idem] at hset
    refine ⟨{ o with state := .terminated }, ?_, rfl, rfl, rfl⟩
    simpa [SalAuth.registerFailure, hat] using hset

theorem sound_registerAnswered (h : sal.AuthInv trace) {op code : Nat} {auth : Option AuthInfo}
    {released : Bool} (hc : sal.Careful (.registerAnswered op code auth released retry)) :
    Sound sal trace (.registerAnswered op code auth released retry) := by
  by_cases hkind : sal.kind op = .register
  · obtain ⟨o, hstored, hflag, hcount, hasked⟩ := becomes_storeAuthInfo h op auth
    by_cases hok : code = 200
    · have hremoved := hstored.linked.becomes_removePendingAuth op
      rw [hstored.ops, Function.update_self, Function.update_idem] at hremoved
      refine sound_of_register_set h hkind (o := { o with hasAuthPending := false }) ?_
        ⟨hremoved.linked, hremoved.kind.trans hstored.kind, hremoved.ops⟩ (by simp) hcount
        (by simp) (by simp)
      simp [step, hkind, registerAnswered, hok]
    · by_cases hfailed : 400 ≤ code
      · obtain ⟨o', hbecomes, hflag', hcount', hinfo'⟩ := hstored.registerFailure released
        have hat : ((sal.storeAuthInfo op auth).registerFailure op released).ops op = o' := by
          rw [hbecomes.ops, Function.update_self]
        by_cases hlisted : o'.state ≠ .terminated ∧ o'.authInfo.isSome = true
        · have hadded := hbecomes.linked.becomes_addPendingAuth op
          rw [hbecomes.ops, Function.update_self, Function.update_idem] at hadded
          have hadded' := hbecomes.trans hadded
          by_cases hreport : code = 403 ∨ isChallenge code = true
          · obtain ⟨sal₁, out, hfail, hafter, hres⟩ :=
              authFailure_of_register h hkind ⟨hadded.linked, hadded.kind.trans hbecomes.kind,
                hadded.ops⟩ hlisted.2 hc
            refine sound_of_register h hkind ?_ hafter (fun _ => hlisted.2)
              (hcount'.trans hcount) hres (by simp) (by simp)
            simp [step, hkind, registerAnswered, hok, hfailed, hat, hlisted, hreport, hfail]
          · refine sound_of_register_set h hkind ?_ ⟨hadded.linked,
              hadded.kind.trans hbecomes.kind, hadded.ops⟩ (fun _ => hlisted.2)
              (hcount'.trans hcount) (by simp) (by simp)
            have hquiet : code ≠ 403 ∧ isChallenge code = false := by simpa using hreport
            simp [step, hkind, registerAnswered, hok, hfailed, hat, hlisted, hquiet]
        · refine sound_of_register_set h hkind ?_ hbecomes ?_ (hcount'.trans hcount) (by simp)
            (by simp)
          · have hlisted' : o'.state ≠ .terminated → o'.authInfo = none := by
              simpa using hlisted
            simp only [step, hkind, registerAnswered, hok, hfailed, hat, if_true, if_false]
            rw [if_neg]
            simpa using hlisted'
          · rw [hflag', hinfo']
            exact hasked
      · refine sound_of_register_set h hkind ?_ hstored hasked hcount (by simp) (by simp)
        simp [step, hkind, registerAnswered, hok, hfailed]
  · refine sound_self h [] ?_ (fun _ => rfl) (by simp) (by simp)
    simp only [step, if_neg hkind]

theorem sound_freed (h : sal.AuthInv trace) (op : Nat) : Sound sal trace (.freed op) := by
  let o : AuthOp :=
    { sal.ops op with
      hasAuthPending := false, state := .terminated, pendingAuthTransaction := none
      authInfo := none }
  have hbecomes := h.linked.becomes_removePendingAuth op
  have hf : sal.Becomes (sal.freed op) (Function.update sal.ops op o) := by
    have hset := hbecomes.set op (o := { (sal.removePendingAuth op).ops op with
      state := .terminated, pendingAuthTransaction := none, authInfo := none })
      (by rw [hbecomes.ops])
    simpa [freed, hbecomes.ops] using hset
  refine sound_of [] rfl hf ?_ ?_ ⟨?_, ?_, ?_⟩
  · intro p
    by_cases hp : p = op
    · subst hp
      rw [Function.update_self]
      exact not_flagged rfl
    · rw [Function.update_of_ne hp]
      exact h.ops p
  · intro p
    rw [resents_nil, List.length_nil, Nat.add_zero]
    have hrow := h.rowBefore p (.freed op)
    by_cases hp : p = op
    · subst hp
      rw [Function.update_self]
      simp only [RowInv, o, Bool.false_eq_true, and_false, if_false, Nat.add_zero] at hrow ⊢
      omega
    · rw [Function.update_of_ne hp]
      exact hrow
  · intro p tr code env retry heq
    simp at heq
  · intro p tr hwaits
    by_cases hp : p = op
    · subst hp
      exact Or.inr (Or.inr rfl)
    · left
      rw [hf.linked.waits_iff, hf.kind, hf.ops, Function.update_of_ne hp]
      exact h.linked.waits_iff.mp hwaits
  · intro c heq
    simp at heq

/-- **One step.** Every careful step is defined, and keeps the invariant and the promises. -/
theorem step_sound (h : sal.AuthInv trace) (hcareful : sal.Careful event) :
    Sound sal trace event := by
  cases event with
  | response op tr code env retry => exact sound_response h hcareful
  | ioError op =>
    refine sound_of_set h op { sal.ops op with authRequests := 0 } [] rfl
      rfl rfl rfl ?_ (fun _ => rfl) (by simp) (by simp)
    have hflag : ¬(sal.kind op = .handled ∧ (sal.ops op).hasAuthPending = true) := by
      intro ⟨hkind, hflag⟩
      rw [hcareful hkind] at hflag
      simp at hflag
    simp [RowInv, hflag, rowBefore, AuthEvent.endsRow]
  | credentials c =>
    obtain ⟨sal₁, out, heq, hbecomes, hres, -⟩ :=
      addAuthInfo_pendingAuths h.linked h.ops hcareful
    refine sound_of_resumed h out heq hbecomes hres (by simp) ?_
    intro c' heq
    injection heq with heq
    exact heq.symm
  | registerAnswered op code auth released retry => exact sound_registerAnswered h hcareful
  | changed op state dialogConfirmed =>
    exact sound_of_set h op _ [] rfl rfl rfl rfl (h.rowBefore op
      (.changed op state dialogConfirmed))
      (fun _ => rfl) (by simp) (by simp)
  | freed op => exact sound_freed h op

/-! ## Runs -/

theorem authInv_start (kind : Nat → AuthOpKind) : AuthInv { kind := kind } [] := by
  refine ⟨?_, ?_, ?_⟩
  · intro op
    simp
  · intro op
    exact not_flagged rfl
  · intro op
    simp [RowInv, rowOf]

theorem CarefulRun.authInv {kind : Nat → AuthOpKind} (run : CarefulRun kind sal trace) :
    sal.AuthInv trace := by
  induction run with
  | start => exact authInv_start kind
  | step run careful eq ih =>
    obtain ⟨sal', out, heq, hinv, -⟩ := step_sound ih careful
    rw [eq] at heq
    injection heq with heq
    injection heq with hsal hout
    subst hsal hout
    exact hinv

/-- **Challenges in a run.** As long as an operation that waits is left alone by other responses and
the stack does what it is asked, an operation is in `pending_auths` once when its flag is set and
not otherwise, a request is sent again at most twice in a row, no authentication follows a
transaction that is not there, and every challenge is dealt with. -/
theorem auth_sound {kind : Nat → AuthOpKind} {sal : SalAuth} {trace : AuthTrace}
    (run : CarefulRun kind sal trace) :
    (∀ op, (op ∈ sal.pendingAuths ↔ (sal.ops op).hasAuthPending = true) ∧
      sal.pendingAuths.count op ≤ 1) ∧
    (∀ op, rowOf op trace ≤ 2) ∧
    ∀ event, sal.Careful event →
      ∃ sal' out, sal.step event = some (sal', out) ∧ Good sal event sal' out := by
  have hinv := run.authInv
  refine ⟨?_, ?_, ?_⟩
  · intro op
    exact ⟨hinv.linked.mem_iff op, List.nodup_iff_count.mp hinv.linked.nodup op⟩
  · intro op
    have hrow := hinv.rows op
    unfold RowInv at hrow
    omega
  · intro event hcareful
    obtain ⟨sal', out, heq, -, hgood⟩ := step_sound hinv hcareful
    exact ⟨sal', out, heq, hgood⟩

/-- An INVITE that was challenged. -/
def challengedInvite : ChallengedTrans where
  id := 1
  method := .invite
  challenge := some { realm := "sip.example.org", username := "alice", domain := "sip.example.org" }

/-- There are no credentials for it. -/
def noneFound : Resend where
  newRequest := true
  authorized := false
  sent := true

/-- The application supplies them, and they are good. -/
def allFound : Credentials where
  finds _ := true
  resend _ := { newRequest := true, authorized := true, sent := true }

/-- The operation waits. -/
def waiting : SalAuth :=
  { kind := fun _ => .handled
    ops := Function.update (fun _ => {}) 1
      { pendingAuthTransaction := some challengedInvite, authRequests := 1, hasAuthPending := true
        authInfo := challengedInvite.challenge }
    pendingAuths := [1] }

theorem auth_sound_late_credentials :
    (∃ trace, CarefulRun (fun _ => .handled) waiting trace) ∧
      ∃ sal' out, waiting.step (.credentials allFound) = some (sal', out) ∧
        resents 1 out = [challengedInvite] ∧ 1 ∉ sal'.pendingAuths := by
  have hrun : CarefulRun (fun _ => .handled) waiting
      [(.response 1 challengedInvite 401 noneFound none, [])] := by
    refine .step (.start) ?_ ?_
    · refine ⟨fun _ _ => ⟨rfl, fun _ => rfl, fun _ => ?_⟩, fun _ _ _ => rfl, by simp⟩
      exact ⟨fun _ => rfl, fun _ => rfl, Or.inr rfl⟩
    · simp [step, processResponseEvent, isChallenge, challenged, processChallenge,
        processAuthentication, addPendingAuth, noneFound, waiting, set]
  have hworks : waiting.CredentialsWork allFound := by
    intro op tr _ _ _ _
    exact ⟨fun _ => rfl, fun _ => rfl, Or.inl rfl⟩
  obtain ⟨sal', out, heq, hgood⟩ := (auth_sound hrun).2.2 (.credentials allFound) hworks
  have hwaits : waiting.Waits 1 challengedInvite := ⟨rfl, rfl, rfl⟩
  exact ⟨⟨_, hrun⟩, sal', out, heq, hgood.credentials allFound rfl 1 challengedInvite
    hwaits rfl rfl⟩

/-- In a confirmed dialog that makes no new request, a challenge is neither answered nor waited for,
and the handlers of the operation do not hear of it. -/
theorem challenge_lost :
    ∃ sal sal' out,
      step { kind := fun _ => .handled } (.changed 1 .active true) = some (sal, []) ∧
      sal.step (.response 1 challengedInvite 401 { noneFound with newRequest := false } none) =
        some (sal', out) ∧
      challenged (sal.ops 1) challengedInvite = true ∧
      ¬Settled sal' out 1 challengedInvite 401 := by
  refine ⟨_, _, _, rfl, rfl, rfl, ?_⟩
  intro hsettled
  rcases hsettled with ⟨hresent, -, -⟩ | ⟨-, hwaits, -⟩ | ⟨-, -, hdelivered⟩
  · simp at hresent
  · exact absurd hwaits.2.1 (by decide)
  · simp at hdelivered

end SalAuth

end Linphone
