import Linphone.Sal.CallOp

/-!
# Authentication of requests

What `bellesip_sal/sal_impl.c` does with a challenge, a response 401 or 407: the request is sent
again with credentials, or the operation is listed in `pending_auths` until the application supplies
them (`linphone_core_add_auth_info`, `coreapi/authentication.c`), or the failure is handed to the
handlers of the operation. The registrations are answered through a refresher, which keeps their
transactions (`register_refresher_listener`).

What the stack does is part of an event: whether a dialog makes a new request, whether there are
credentials for a challenge, whether a request is sent. A handler of an operation may change any
operation; its changes are events of their own.

`auth_sound`: as long as an operation that waits is left alone by other responses and the stack does
what it is asked, every challenge is dealt with in one of the three ways.
-/

namespace Linphone

/-! ## Data -/

/-- What of a `SalAuthInfo` is read. -/
structure AuthInfo where
  realm : String
  username : String
  domain : String
deriving DecidableEq

/-- A client transaction that was answered, and the challenge in its response: a response 401
without a challenge is possible. -/
structure ChallengedTrans where
  id : Nat
  method : SipMethod
  challenge : Option AuthInfo
deriving DecidableEq

/-- Operations by what answers their requests: the refresher of a registration, the handlers of the
operation, or nothing. -/
inductive AuthOpKind
  | register | handled | unhandled
deriving DecidableEq

structure AuthOp where
  state : SalOpState := .early
  /-- There is a dialog and it is confirmed. -/
  dialogConfirmed : Bool := false
  pendingAuthTransaction : Option ChallengedTrans := none
  authRequests : Nat := 0
  hasAuthPending : Bool := false
  authInfo : Option AuthInfo := none
deriving DecidableEq

/-- What an operation does with a response. -/
inductive AuthOutput
  /-- The request of a transaction is sent again, with credentials. -/
  | resent (op : Nat) (tr : ChallengedTrans)
  /-- `op->callbacks->process_response_event` -/
  | delivered (op code : Nat)
  | authFailure (op : Nat)
  /-- `sal_register_refresh` -/
  | refreshed (op : Nat)
deriving DecidableEq

/-- What the stack does when a request is to be sent again. -/
structure Resend where
  /-- The dialog makes a new request, at once or queued. -/
  newRequest : Bool
  /-- `belle_sip_provider_add_authorization` -/
  authorized : Bool
  sent : Bool
deriving DecidableEq

/-- The stack does what it is asked for a challenge. -/
structure Resend.Works (env : Resend) (o : AuthOp) (tr : ChallengedTrans) : Prop where
  newRequest : o.dialogConfirmed = true → env.newRequest = true
  sent : env.authorized = true → env.sent = true
  challenge : env.authorized = true ∨ tr.challenge.isSome = true

/-- A call of `linphone_core_add_auth_info`. -/
structure Credentials where
  /-- `linphone_core_find_auth_info` -/
  finds : AuthInfo → Bool
  resend : Nat → Resend

/-- The operations of a `Sal`, by a number. -/
structure SalAuth where
  kind : Nat → AuthOpKind
  ops : Nat → AuthOp := fun _ => {}
  pendingAuths : List Nat := []

namespace SalAuth

variable (sal : SalAuth) (op : Nat)

def set (o : AuthOp) : SalAuth := { sal with ops := Function.update sal.ops op o }

/-! ## Challenges -/

/-- `sal_add_pending_auth` -/
def addPendingAuth : SalAuth :=
  if op ∈ sal.pendingAuths then sal
  else
    { sal.set op { sal.ops op with hasAuthPending := true } with
      pendingAuths := sal.pendingAuths ++ [op] }

/-- `sal_remove_pending_auth` -/
def removePendingAuth : SalAuth :=
  if (sal.ops op).hasAuthPending then
    { sal.set op { sal.ops op with hasAuthPending := false } with
      pendingAuths := sal.pendingAuths.erase op }
  else sal

/-- `sal_process_authentication`. The transaction is followed. -/
def processAuthentication (env : Resend) : Option (SalAuth × List AuthOutput) :=
  match (sal.ops op).pendingAuthTransaction with
  | none => none
  | some tr =>
      -- cannot obtain new request from dialog
      if (sal.ops op).dialogConfirmed && !env.newRequest then some (sal, [])
      else
        let (sal, out) :=
          if env.authorized then
            (sal.removePendingAuth op, if env.sent then [.resent op tr] else [])
          else (sal.addPendingAuth op, [])
        some (sal.set op { sal.ops op with authInfo := tr.challenge }, out)

/-- `sal_op_authenticate` -/
def authenticate (env : Resend) : Option (SalAuth × List AuthOutput) :=
  match sal.kind op with
  | .register => some (sal, [.refreshed op])
  | _ => sal.processAuthentication op env

/-- The loop of `linphone_core_add_auth_info` over a copy of the list. What an operation asked for
is followed. -/
def addAuthInfo (c : Credentials) : List Nat → SalAuth → Option (SalAuth × List AuthOutput)
  | [], sal => some (sal, [])
  | op :: rest, sal => do
      let info ← (sal.ops op).authInfo
      let (sal, out) ← (if c.finds info then sal.authenticate op (c.resend op) else some (sal, []))
      let (sal, out') ← addAuthInfo c rest sal
      some (sal, out ++ out')

/-- The callback `auth_failure`, in which the application may supply credentials. -/
def authFailure (retry : Option Credentials) : Option (SalAuth × List AuthOutput) := do
  let (sal, out) ← (match retry with
    | none => some (sal, [])
    | some c => addAuthInfo c sal.pendingAuths sal)
  some (sal, .authFailure op :: out)

/-! ## Responses -/

def isChallenge (code : Nat) : Bool := code = 401 || code = 407

/-- Responses that are not about authentication. -/
def resetsAuthRequests (code : Nat) : Bool :=
  decide (180 ≤ code) && !isChallenge code && decide (code ≠ 403)

/-- A challenge of an operation that is not terminated; only a BYE is completed when it is
terminating. -/
def challenged (o : AuthOp) (tr : ChallengedTrans) : Bool :=
  o.state ≠ .terminated && (o.state ≠ .terminating || tr.method = .bye)

/-- The end of `process_response_event`. -/
def deliver (code : Nat) : SalAuth × List AuthOutput :=
  (if resetsAuthRequests code then sal.set op { sal.ops op with authRequests := 0 } else sal,
    [.delivered op code])

/-- A challenge in `process_response_event`. -/
def processChallenge (tr : ChallengedTrans) (code : Nat) (env : Resend)
    (retry : Option Credentials) : Option (SalAuth × List AuthOutput) :=
  let o := sal.ops op
  if o.authRequests + 1 > 2 then do
    let sal := sal.set op
      { o with pendingAuthTransaction := none, authRequests := o.authRequests + 1 }
    let (sal, out) ← sal.authFailure op retry
    let (sal, out') := (sal.removePendingAuth op).deliver op code
    some (sal, out ++ out')
  else
    (sal.set op
      { o with
        pendingAuthTransaction := some tr
        authRequests := o.authRequests + 1 }).processAuthentication op env

/-- `process_response_event` -/
def processResponseEvent (tr : ChallengedTrans) (code : Nat) (env : Resend)
    (retry : Option Credentials) : Option (SalAuth × List AuthOutput) :=
  let o := sal.ops op
  if o.state = .terminated || sal.kind op ≠ .handled then some (sal, [])
  else if isChallenge code then
    if challenged o tr then sal.processChallenge op tr code env retry
    else some (sal.deliver op code)
  else if code = 403 && o.authInfo.isSome then do
    let (sal, out) ← sal.authFailure op retry
    let (sal, out') := sal.deliver op code
    some (sal, out ++ out')
  else some (sal.deliver op code)

/-- The challenge that the refresher of a registration reports is kept. -/
def storeAuthInfo (auth : Option AuthInfo) : SalAuth :=
  match auth with
  | some info => sal.set op { sal.ops op with authInfo := some info }
  | none => sal

/-- The callback `register_failure`, which may release the operation. -/
def registerFailure (released : Bool) : SalAuth :=
  if released then sal.set op { sal.ops op with state := .terminated } else sal

/-- `register_refresher_listener`, the listener of a registration. -/
def registerAnswered (code : Nat) (auth : Option AuthInfo) (released : Bool)
    (retry : Option Credentials) : Option (SalAuth × List AuthOutput) :=
  let sal := sal.storeAuthInfo op auth
  if code = 200 then some (sal.removePendingAuth op, [])
  else if 400 ≤ code then
    let sal := sal.registerFailure op released
    if (sal.ops op).state ≠ .terminated && (sal.ops op).authInfo.isSome then
      let sal := sal.addPendingAuth op
      if code = 403 || isChallenge code then sal.authFailure op retry else some (sal, [])
    else some (sal, [])
  else some (sal, [])

/-- `sal_op_release_impl`, when nothing refers to the operation any more. -/
def freed : SalAuth :=
  let sal := sal.removePendingAuth op
  sal.set op
    { sal.ops op with state := .terminated, pendingAuthTransaction := none, authInfo := none }

inductive AuthEvent
  | response (op : Nat) (tr : ChallengedTrans) (code : Nat) (env : Resend)
      (retry : Option Credentials)
  /-- `process_io_error` -/
  | ioError (op : Nat)
  | credentials (c : Credentials)
  | registerAnswered (op code : Nat) (auth : Option AuthInfo) (released : Bool)
      (retry : Option Credentials)
  /-- The state of an operation or its dialog changes. -/
  | changed (op : Nat) (state : SalOpState) (dialogConfirmed : Bool)
  | freed (op : Nat)

/-- What an event does. There is nothing when the program leaves its defined behaviour. -/
def step : AuthEvent → Option (SalAuth × List AuthOutput)
  | .response op tr code env retry => sal.processResponseEvent op tr code env retry
  | .ioError op => some (sal.set op { sal.ops op with authRequests := 0 }, [])
  | .credentials c => addAuthInfo c sal.pendingAuths sal
  | .registerAnswered op code auth released retry =>
      if sal.kind op = .register then sal.registerAnswered op code auth released retry
      else some (sal, [])
  | .changed op state dialogConfirmed =>
      some (sal.set op { sal.ops op with state := state, dialogConfirmed := dialogConfirmed }, [])
  | .freed op => some (sal.freed op, [])

/-! ## The list and the flag -/

/-- An operation is listed, once, when its flag is set. -/
def Linked : Prop :=
  ∀ op, sal.pendingAuths.count op = if (sal.ops op).hasAuthPending then 1 else 0

variable {sal op}

theorem Linked.mem_iff (h : sal.Linked) (op : Nat) :
    op ∈ sal.pendingAuths ↔ (sal.ops op).hasAuthPending = true := by
  rw [← List.count_pos_iff, h op]
  by_cases hp : (sal.ops op).hasAuthPending = true
  · simp [hp]
  · simp [hp]

theorem Linked.nodup (h : sal.Linked) : sal.pendingAuths.Nodup := by
  rw [List.nodup_iff_count]
  intro op
  rw [h op]
  split
  · exact Nat.le_refl 1
  · exact Nat.zero_le 1

@[simp] theorem set_kind (o : AuthOp) : (sal.set op o).kind = sal.kind := rfl

@[simp] theorem set_ops (o : AuthOp) : (sal.set op o).ops = Function.update sal.ops op o := rfl

@[simp] theorem set_pendingAuths (o : AuthOp) :
    (sal.set op o).pendingAuths = sal.pendingAuths := rfl

/-- The state after a part of the program. -/
structure Becomes (sal sal' : SalAuth) (ops : Nat → AuthOp) : Prop where
  linked : sal'.Linked
  kind : sal'.kind = sal.kind
  ops : sal'.ops = ops

theorem Linked.becomes_self (h : sal.Linked) : sal.Becomes sal sal.ops := ⟨h, rfl, rfl⟩

theorem Linked.becomes_set (h : sal.Linked) (op : Nat) {o : AuthOp}
    (ho : o.hasAuthPending = (sal.ops op).hasAuthPending) :
    sal.Becomes (sal.set op o) (Function.update sal.ops op o) := by
  refine ⟨?_, rfl, rfl⟩
  intro p
  by_cases hp : p = op
  · subst hp
    simpa [ho] using h p
  · simpa [hp] using h p

theorem Linked.becomes_addPendingAuth (h : sal.Linked) (op : Nat) :
    sal.Becomes (sal.addPendingAuth op)
      (Function.update sal.ops op { sal.ops op with hasAuthPending := true }) := by
  unfold addPendingAuth
  by_cases hmem : op ∈ sal.pendingAuths
  · have hflag := (h.mem_iff op).mp hmem
    rw [if_pos hmem]
    refine ⟨h, rfl, ?_⟩
    rw [← hflag, Function.update_eq_self]
  · rw [if_neg hmem]
    refine ⟨?_, rfl, rfl⟩
    intro p
    by_cases hp : p = op
    · subst hp
      simp [List.count_eq_zero.mpr hmem]
    · have hp' : op ≠ p := fun heq => hp heq.symm
      simpa [hp, List.count_append, List.count_singleton, hp'] using h p

theorem Linked.becomes_removePendingAuth (h : sal.Linked) (op : Nat) :
    sal.Becomes (sal.removePendingAuth op)
      (Function.update sal.ops op { sal.ops op with hasAuthPending := false }) := by
  unfold removePendingAuth
  by_cases hflag : (sal.ops op).hasAuthPending = true
  · rw [if_pos hflag]
    refine ⟨?_, rfl, rfl⟩
    intro p
    by_cases hp : p = op
    · subst hp
      have hcount := h p
      rw [if_pos hflag] at hcount
      simp [List.count_erase_self, hcount]
    · simpa [hp, List.count_erase_of_ne hp] using h p
  · rw [if_neg hflag]
    refine ⟨h, rfl, ?_⟩
    have hfalse : (sal.ops op).hasAuthPending = false := by simpa using hflag
    rw [← hfalse, Function.update_eq_self]

theorem Becomes.trans {sal' sal'' : SalAuth} {ops ops' : Nat → AuthOp}
    (h : sal.Becomes sal' ops) (h' : sal'.Becomes sal'' ops') : sal.Becomes sal'' ops' :=
  ⟨h'.linked, h'.kind.trans h.kind, h'.ops⟩

theorem Becomes.set {sal' : SalAuth} {ops : Nat → AuthOp} (h : sal.Becomes sal' ops) (op : Nat)
    {o : AuthOp} (ho : o.hasAuthPending = (ops op).hasAuthPending) :
    sal.Becomes (sal'.set op o) (Function.update ops op o) := by
  have hset := h.linked.becomes_set op (o := o) (by rw [ho, h.ops])
  rw [h.ops] at hset
  exact h.trans hset

/-! ## What is sent again -/

/-- The requests of an operation that were sent again. -/
def resents (op : Nat) (out : List AuthOutput) : List ChallengedTrans :=
  out.filterMap fun
    | .resent p tr => if p = op then some tr else none
    | _ => none

@[simp] theorem resents_nil (op : Nat) : resents op [] = [] := rfl

@[simp] theorem resents_append (op : Nat) (out out' : List AuthOutput) :
    resents op (out ++ out') = resents op out ++ resents op out' := List.filterMap_append

@[simp] theorem resents_resent_self (op : Nat) (tr : ChallengedTrans) :
    resents op [.resent op tr] = [tr] := by
  simp [resents]

@[simp] theorem resents_delivered (op p code : Nat) : resents op [.delivered p code] = [] := rfl

theorem resents_resent_ne {op p : Nat} (hp : p ≠ op) (tr : ChallengedTrans) :
    resents op [.resent p tr] = [] := by
  simp [resents, hp]

@[simp] theorem resents_refreshed (op p : Nat) : resents op [.refreshed p] = [] := rfl

@[simp] theorem resents_authFailure_cons (op p : Nat) (out : List AuthOutput) :
    resents op (.authFailure p :: out) = resents op out := rfl

/-- An operation is authenticated: its request is sent again, or it is listed. -/
theorem processAuthentication_eq (h : sal.Linked) {tr : ChallengedTrans}
    (htr : (sal.ops op).pendingAuthTransaction = some tr) {env : Resend}
    (henv : env.Works (sal.ops op) tr) :
    ∃ sal', sal.processAuthentication op env =
        some (sal', if env.authorized then [.resent op tr] else []) ∧
      sal.Becomes sal' (Function.update sal.ops op
        { sal.ops op with hasAuthPending := !env.authorized, authInfo := tr.challenge }) := by
  have hnew : ((sal.ops op).dialogConfirmed && !env.newRequest) = false := by
    cases hd : (sal.ops op).dialogConfirmed with
    | false => rfl
    | true => simp [henv.newRequest hd]
  unfold processAuthentication
  rw [htr]
  simp only [hnew, Bool.false_eq_true, if_false]
  cases hauth : env.authorized with
  | true =>
    have hbecomes := h.becomes_removePendingAuth op
    refine ⟨(sal.removePendingAuth op).set op
      { (sal.removePendingAuth op).ops op with authInfo := tr.challenge }, ?_, ?_⟩
    · simp [henv.sent hauth]
    · have hset := hbecomes.set op
        (o := { (sal.removePendingAuth op).ops op with authInfo := tr.challenge })
        (by rw [hbecomes.ops])
      simpa [hbecomes.ops] using hset
  | false =>
    have hbecomes := h.becomes_addPendingAuth op
    refine ⟨(sal.addPendingAuth op).set op
      { (sal.addPendingAuth op).ops op with authInfo := tr.challenge }, ?_, ?_⟩
    · simp
    · have hset := hbecomes.set op
        (o := { (sal.addPendingAuth op).ops op with authInfo := tr.challenge })
        (by rw [hbecomes.ops])
      simpa [hbecomes.ops] using hset

/-! ## Credentials -/

/-- What a listed operation has: what it asked for, and the transaction that asked for it. -/
structure AuthOpInv (kind : AuthOpKind) (o : AuthOp) : Prop where
  asked : o.hasAuthPending = true → o.authInfo.isSome = true
  answered : o.hasAuthPending = true → kind ≠ .unhandled
  retained : o.hasAuthPending = true → kind = .handled →
    ∃ tr, o.pendingAuthTransaction = some tr ∧ o.authInfo = tr.challenge

/-- Credentials are found for an operation that waits, and are good for its challenge. -/
def resumes (c : Credentials) (kind : AuthOpKind) (op : Nat) (o : AuthOp) : Bool :=
  kind = .handled && o.hasAuthPending && o.authInfo.any c.finds && (c.resend op).authorized

/-- An operation after credentials were supplied. -/
def resumed (c : Credentials) (kind : AuthOpKind) (op : Nat) (o : AuthOp) : AuthOp :=
  if resumes c kind op o then { o with hasAuthPending := false } else o

/-- The requests of an operation that are sent again with credentials. -/
def resumedTrans (c : Credentials) (kind : AuthOpKind) (op : Nat) (o : AuthOp) :
    List ChallengedTrans :=
  if resumes c kind op o then o.pendingAuthTransaction.toList else []

/-- The stack does what it is asked when credentials are supplied. -/
def CredentialsWork (sal : SalAuth) (c : Credentials) : Prop :=
  ∀ op tr, sal.kind op = .handled → (sal.ops op).hasAuthPending = true →
    (sal.ops op).authInfo.any c.finds = true →
      (sal.ops op).pendingAuthTransaction = some tr → (c.resend op).Works (sal.ops op) tr

/-- One operation of the list. -/
theorem addAuthInfo_cons (h : sal.Linked) {c : Credentials} (hc : sal.CredentialsWork c)
    (hop : (sal.ops op).hasAuthPending = true) (hinv : AuthOpInv (sal.kind op) (sal.ops op))
    (rest : List Nat) :
    ∃ sal' out, sal.Becomes sal' (Function.update sal.ops op
          (resumed c (sal.kind op) op (sal.ops op))) ∧
      resents op out = resumedTrans c (sal.kind op) op (sal.ops op) ∧
      (∀ p ≠ op, resents p out = []) ∧ (∀ p code, .delivered p code ∉ out) ∧
      addAuthInfo c (op :: rest) sal =
        (addAuthInfo c rest sal').map fun r => (r.1, out ++ r.2) := by
  obtain ⟨info, hinfo⟩ := Option.isSome_iff_exists.mp (hinv.asked hop)
  have hmap : ∀ (sal' : SalAuth) (out : List AuthOutput),
      (do
        let (sal, out') ← addAuthInfo c rest sal'
        some (sal, out ++ out')) = (addAuthInfo c rest sal').map fun r => (r.1, out ++ r.2) := by
    intro sal' out
    cases addAuthInfo c rest sal' with
    | none => rfl
    | some r => rfl
  simp only [addAuthInfo, hinfo, Option.bind_eq_bind, Option.bind_some]
  by_cases hfind : c.finds info = true
  · rw [if_pos hfind]
    cases hkind : sal.kind op with
    | register =>
      refine ⟨sal, [.refreshed op], ?_, ?_, by simp, by simp, ?_⟩
      · simpa [resumed, resumes] using h.becomes_self
      · simp [resumedTrans, resumes]
      · simp only [authenticate, hkind, Option.bind_some]
        exact hmap sal [.refreshed op]
    | unhandled => exact absurd hkind (hinv.answered hop)
    | handled =>
      obtain ⟨tr, htr, hauth⟩ := hinv.retained hop hkind
      have hfound : (sal.ops op).authInfo.any c.finds = true := by simp [hinfo, hfind]
      obtain ⟨sal', heq, hbecomes⟩ :=
        processAuthentication_eq h htr (hc op tr hkind hop hfound htr)
      refine ⟨sal', if (c.resend op).authorized then [.resent op tr] else [], ?_, ?_, ?_, ?_, ?_⟩
      · cases hyes : (c.resend op).authorized with
        | true => simpa [resumed, resumes, hop, hfound, hyes, ← hauth] using hbecomes
        | false =>
          have hsame : { sal.ops op with hasAuthPending := true, authInfo := tr.challenge } =
              sal.ops op := by rw [← hauth, ← hop]
          have hself : resumed c .handled op (sal.ops op) = sal.ops op := by
            simp [resumed, resumes, hyes]
          rw [hyes, Bool.not_false, hsame] at hbecomes
          rwa [hself]
      · cases hyes : (c.resend op).authorized with
        | true => simp [resumedTrans, resumes, hop, hfound, hyes, htr]
        | false => simp [resumedTrans, resumes, hyes]
      · intro q hq
        cases (c.resend op).authorized with
        | true => exact resents_resent_ne (fun heq => hq heq.symm) tr
        | false => rfl
      · cases (c.resend op).authorized with
        | true => simp
        | false => simp
      · simp only [authenticate, hkind, heq, Option.bind_some]
        exact hmap sal' _
  · rw [if_neg hfind]
    refine ⟨sal, [], ?_, ?_, by simp, by simp, ?_⟩
    · simpa [resumed, resumes, hinfo, hfind] using h.becomes_self
    · simp [resumedTrans, resumes, hinfo, hfind]
    · exact hmap sal []

theorem AuthOpInv.resumed {c : Credentials} {k : AuthOpKind} {p : Nat} {o : AuthOp}
    (h : AuthOpInv k o) : AuthOpInv k (SalAuth.resumed c k p o) := by
  unfold SalAuth.resumed
  split
  · exact ⟨by simp, by simp, by simp⟩
  · exact h

theorem CredentialsWork.resumed {sal' : SalAuth} {c : Credentials} (h : sal.CredentialsWork c)
    (hbecomes : sal.Becomes sal' (Function.update sal.ops op
      (SalAuth.resumed c (sal.kind op) op (sal.ops op)))) : sal'.CredentialsWork c := by
  intro p tr hkind hflag hfound htr
  rw [hbecomes.kind] at hkind
  rw [hbecomes.ops] at hflag hfound htr ⊢
  by_cases hp : p = op
  · subst hp
    rw [Function.update_self] at hflag hfound htr ⊢
    unfold SalAuth.resumed at hflag hfound htr ⊢
    split at hflag
    · simp at hflag
    · next hno =>
      rw [if_neg hno] at hfound htr ⊢
      exact h p tr hkind hflag hfound htr
  · rw [Function.update_of_ne hp] at hflag hfound htr ⊢
    exact h p tr hkind hflag hfound htr

/-- The operations of a part of the list. -/
theorem addAuthInfo_eq {c : Credentials} (l : List Nat) :
    ∀ sal : SalAuth, sal.Linked → (∀ op, AuthOpInv (sal.kind op) (sal.ops op)) →
      sal.CredentialsWork c → l.Nodup → (∀ op ∈ l, (sal.ops op).hasAuthPending = true) →
      ∃ sal' out, addAuthInfo c l sal = some (sal', out) ∧
        sal.Becomes sal' (fun p =>
          if p ∈ l then resumed c (sal.kind p) p (sal.ops p) else sal.ops p) ∧
        (∀ p, resents p out = if p ∈ l then resumedTrans c (sal.kind p) p (sal.ops p) else []) ∧
        ∀ p code, .delivered p code ∉ out := by
  induction l with
  | nil =>
    intro sal h _ _ _ _
    refine ⟨sal, [], rfl, ?_, ?_, ?_⟩
    · simpa using h.becomes_self
    · simp
    · simp
  | cons op l ih =>
    intro sal h hinv hc hnodup hflags
    obtain ⟨hop, hnodup⟩ := List.nodup_cons.mp hnodup
    obtain ⟨sal₁, out₁, hbecomes₁, hself, hothers, hdel₁, heq₁⟩ :=
      addAuthInfo_cons h hc (hflags op List.mem_cons_self) (hinv op) l
    have hne : ∀ p ∈ l, p ≠ op := fun p hp heq => hop (heq ▸ hp)
    have hinv₁ : ∀ p, AuthOpInv (sal₁.kind p) (sal₁.ops p) := by
      intro p
      rw [hbecomes₁.kind, hbecomes₁.ops]
      by_cases hp : p = op
      · subst hp
        rw [Function.update_self]
        exact (hinv p).resumed
      · rw [Function.update_of_ne hp]
        exact hinv p
    have hflags₁ : ∀ p ∈ l, (sal₁.ops p).hasAuthPending = true := by
      intro p hp
      rw [hbecomes₁.ops, Function.update_of_ne (hne p hp)]
      exact hflags p (List.mem_cons_of_mem op hp)
    obtain ⟨sal₂, out₂, heq₂, hbecomes₂, hres₂, hdel₂⟩ :=
      ih sal₁ hbecomes₁.linked hinv₁ (hc.resumed hbecomes₁) hnodup hflags₁
    refine ⟨sal₂, out₁ ++ out₂, ?_, ?_, ?_, ?_⟩
    · rw [heq₁, heq₂]
      rfl
    · refine ⟨hbecomes₂.linked, hbecomes₂.kind.trans hbecomes₁.kind, ?_⟩
      rw [hbecomes₂.ops, hbecomes₁.kind, hbecomes₁.ops]
      funext p
      by_cases hp : p = op
      · subst hp
        simp [hop]
      · simp [hp]
    · intro p
      rw [resents_append, hres₂, hbecomes₁.kind, hbecomes₁.ops]
      by_cases hp : p = op
      · subst hp
        simp [hop, hself]
      · simp [hp, hothers p hp]
    · intro p code
      simp [hdel₁ p code, hdel₂ p code]

/-- Credentials for the whole list. -/
theorem addAuthInfo_pendingAuths (h : sal.Linked)
    (hinv : ∀ op, AuthOpInv (sal.kind op) (sal.ops op)) {c : Credentials}
    (hc : sal.CredentialsWork c) :
    ∃ sal' out, addAuthInfo c sal.pendingAuths sal = some (sal', out) ∧
      sal.Becomes sal' (fun p => resumed c (sal.kind p) p (sal.ops p)) ∧
      (∀ p, resents p out = resumedTrans c (sal.kind p) p (sal.ops p)) ∧
      ∀ p code, .delivered p code ∉ out := by
  have hunlisted : ∀ p, p ∉ sal.pendingAuths → resumes c (sal.kind p) p (sal.ops p) = false := by
    intro p hp
    have hflag : (sal.ops p).hasAuthPending = false := by
      simpa using fun heq => hp ((h.mem_iff p).mpr heq)
    simp [resumes, hflag]
  obtain ⟨sal', out, heq, hbecomes, hres, hdel⟩ :=
    addAuthInfo_eq sal.pendingAuths sal h hinv hc h.nodup fun p hp => (h.mem_iff p).mp hp
  refine ⟨sal', out, heq, ⟨hbecomes.linked, hbecomes.kind, ?_⟩, ?_, hdel⟩
  · rw [hbecomes.ops]
    funext p
    by_cases hp : p ∈ sal.pendingAuths
    · rw [if_pos hp]
    · rw [if_neg hp, resumed, hunlisted p hp]
      simp
  · intro p
    rw [hres]
    by_cases hp : p ∈ sal.pendingAuths
    · rw [if_pos hp]
    · rw [if_neg hp, resumedTrans, hunlisted p hp]
      simp

/-- Credentials that are found for nothing. -/
def noCredentials : Credentials where
  finds _ := false
  resend _ := { newRequest := true, authorized := false, sent := true }

@[simp] theorem resumes_noCredentials (k : AuthOpKind) (p : Nat) (o : AuthOp) :
    resumes noCredentials k p o = false := by
  cases h : o.authInfo with
  | none => simp [resumes, h]
  | some info => simp [resumes, h, noCredentials]

/-- The callback `auth_failure`, with what the application supplies in it. -/
theorem authFailure_eq (h : sal.Linked) (hinv : ∀ op, AuthOpInv (sal.kind op) (sal.ops op))
    (op : Nat) {retry : Option Credentials} (hc : ∀ c ∈ retry, sal.CredentialsWork c) :
    ∃ sal' out, sal.authFailure op retry = some (sal', out) ∧
      sal.Becomes sal' (fun p => resumed (retry.getD noCredentials) (sal.kind p) p (sal.ops p)) ∧
      (∀ p, resents p out =
        resumedTrans (retry.getD noCredentials) (sal.kind p) p (sal.ops p)) ∧
      ∀ p code, .delivered p code ∉ out := by
  cases retry with
  | none =>
    refine ⟨sal, [.authFailure op], rfl, ?_, ?_, ?_⟩
    · simpa [resumed] using h.becomes_self
    · simp [resumedTrans]
    · simp
  | some c =>
    obtain ⟨sal', out, heq, hbecomes, hres, hdel⟩ := addAuthInfo_pendingAuths h hinv (hc c rfl)
    refine ⟨sal', .authFailure op :: out, ?_, hbecomes, ?_, ?_⟩
    · simp [authFailure, heq]
    · simpa using hres
    · simpa using hdel

end SalAuth

end Linphone
