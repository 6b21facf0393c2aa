import Linphone.Call.Upcalls
import Linphone.Sal.CallOp

/-!
# Transfers

What a transferee makes of a REFER (`bellesip_sal/sal_op_call_transfer.c`, `refer_received`,
`call_accepted`, `call_failure` and `resume_call_after_failed_transfer` of `coreapi/callbacks.c`,
`linphone_core_start_refered_call`): the original call is paused, a new call is started to the
target, the referer is notified of it, and the original call is resumed by a task when the new call
fails.

A `Transferee` is the original call with every transfer it was asked for. `Told` is what is expected
of the NOTIFYs and of the resumption, `Reported` the condition under which each event keeps it.
-/

namespace Linphone

/-! ## The new call -/

/-- `_sal_reason_from_sip_code` -/
def salReasonFromSipCode (code : Nat) : SalReason :=
  if 100 ≤ code ∧ code < 300 then .none
  else
    match code with
    | 0 => .ioError
    | 301 => .movedPermanently
    | 302 => .redirect
    | 401 | 407 => .unauthorized
    | 403 => .forbidden
    | 404 => .notFound
    | 408 => .requestTimeout
    | 410 => .gone
    | 415 => .unsupportedContent
    | 480 => .temporarilyUnavailable
    | 481 => .noMatch
    | 484 => .addressIncomplete
    | 486 => .busy
    | 487 => .none
    | 488 => .notAcceptable
    | 491 => .requestPending
    | 501 => .notImplemented
    | 502 => .badGateway
    | 504 => .serverTimeout
    | 600 => .doNotDisturb
    | 603 => .declined
    | 503 => .serviceUnavailable
    | _ => .unknown

/-- The call a REFER leads to, with its operation. -/
structure ReferedCall where
  vars : StateVars := {}
  /-- `op->dialog` -/
  dialog : DialogState := .null
  /-- the INVITE is unanswered -/
  inviteOpen : Bool := false
  /-- `op->pending_client_trans` is the INVITE -/
  inviteTrans : Bool := true
  /-- the last response of `op->pending_client_trans` -/
  lastResponse : Option Nat := none
  /-- `SalOpStateTerminating` -/
  terminating : Bool := false
deriving DecidableEq

/-- A REFER and what came of it. -/
structure Transfer where
  /-- how often `linphone_core_start_refered_call` was called for it -/
  started : Nat := 0
  call : Option ReferedCall := none
  /-- the codes of the NOTIFYs, the first one first -/
  codes : List Nat := []
  /-- whether the new call was connected, once that is known -/
  outcome : Option Bool := none
deriving DecidableEq

/-- The original call. -/
structure Transferee where
  vars : StateVars
  wasAutomaticallyPaused : Bool := false
  referPending : Bool := false
  /-- its operation has a dialog, which is not terminated -/
  dialogUp : Bool := true
  transfers : List Transfer := []
  /-- how often `resume_call_after_failed_transfer` is queued -/
  tasks : Nat := 0
  /-- the pause it is in was made by `linphone_core_start_refered_call` -/
  pausedForTransfer : Bool := false
  /-- the outcome of the last transfer, each time the task resumed the call -/
  resumes : List (Option Bool) := []
deriving DecidableEq

namespace ReferedCall

variable (c : ReferedCall)

def setState (state : CallState) : ReferedCall := { c with vars := (c.vars.setState state).1 }

/-- `linphone_core_start_invite`; `sent` is the result of `sal_call`. -/
def startInvite (sent : Bool) : ReferedCall :=
  if sent then { c with inviteOpen := true }.setState .outgoingProgress else c.setState .error

/-- `linphone_core_restart_invite`: the call has a new operation. -/
def restartInvite (sent : Bool) : ReferedCall :=
  startInvite { vars := c.vars } sent

/-- A response of the transaction of the INVITE. -/
def responded (code : Nat) : ReferedCall :=
  if c.inviteTrans then { c with lastResponse := some code } else c

/-- The code `sal_call_notify_refer_state` sends for the call. -/
def notifyCode : Nat :=
  match c.dialog with
  | .early => 100
  | .confirmed => 200
  | .terminated | .null => c.lastResponse.getD 100

/-- `call_failure` restarts the INVITE, for a redirection or with other media. -/
def restarts (reason : SalReason) (contact retryable : Bool) : Bool :=
  match reason with
  | .redirect => c.vars.state.outgoingEarly && contact
  | .unsupportedContent | .notAcceptable => c.vars.state.outgoingEarly && retryable
  | _ => false

/-- Some call errors are not fatal. -/
def restorable : Bool :=
  c.vars.state = .updating || c.vars.state = .pausing || c.vars.state = .resuming

/-- `call_failure` for a failure that is not retried: the call, and whether the referer is told. -/
def fail (reason : SalReason) : ReferedCall × Bool :=
  if reason = .requestPending ∨ c.restorable then (c.setState c.vars.prevstate, false)
  else
    (if c.vars.state.ended then c else c.setState (if reason = .declined then .end else .error),
      true)

end ReferedCall

/-- The state `call_accepted` leaves a call in, for the direction of its media. -/
def acceptedState : SalStreamDir → CallState
  | .sendOnly | .inactive => .paused
  | .recvOnly => .pausedByRemote
  | .sendRecv => .streamsRunning

namespace Transferee

variable (s : Transferee)

/-- A pause in force, also while the call is updated. -/
def held (state : CallState) : Bool :=
  state = .pausing || state = .paused || state = .updating || state = .updatedByRemote

/-- The original call changes its state. -/
def setState (state : CallState) : Transferee :=
  let vars := (s.vars.setState state).1
  { s with vars := vars, pausedForTransfer := s.pausedForTransfer && held vars.state }

def modifyTransfer (k : Nat) (f : Transfer → Transfer) : Transferee :=
  { s with transfers := s.transfers.modify k f }

/-- `linphone_core_notify_refer_state`, for the new call of a transfer. -/
def notifyReferState (k : Nat) (c : ReferedCall) : Transferee :=
  if s.dialogUp then s.modifyTransfer k fun t => { t with codes := t.codes ++ [c.notifyCode] }
  else s

/-- What happens on the way to the new call: whether the original call can be paused, whether the
call is made, its start deferred, and its INVITE sent. -/
structure StartEnv where
  pausable : Bool
  created : Bool
  deferred : Bool
  sent : Bool

/-- `_linphone_core_pause_call` -/
def pauseCall (pausable : Bool) : Transferee :=
  if (s.vars.state = .streamsRunning ∨ s.vars.state = .pausedByRemote) ∧ pausable then
    { s.setState .pausing with pausedForTransfer := true }
  else s

/-- The call `linphone_core_invite_with_params` makes. -/
def newCall (env : StartEnv) : ReferedCall :=
  let c := ReferedCall.setState {} .outgoingInit
  if env.deferred then c else c.startInvite env.sent

/-- `linphone_core_start_refered_call` for the last transfer. -/
def startReferedCall (env : StartEnv) : Transferee :=
  let s :=
    if s.vars.state ≠ .paused then
      { s.pauseCall env.pausable with wasAutomaticallyPaused := true }
    else s
  let s := { s with referPending := false }
  let k := s.transfers.length - 1
  if env.created then
    let c := newCall env
    let s := s.modifyTransfer k fun t =>
      { t with
        started := t.started + 1
        call := some c
        outcome := if env.deferred || env.sent then none else some false }
    s.notifyReferState k c
  else
    s.modifyTransfer k fun t => { t with started := t.started + 1, outcome := some false }

/-- `sal_op_process_refer` and `refer_received`. The application may start the call itself when it
is notified. -/
def refer (target byApplication : Bool) (env : StartEnv) : Transferee :=
  if target ∧ s.dialogUp then
    let s := { s with referPending := true, transfers := s.transfers ++ [({} : Transfer)] }
    -- a call which is ended notifies nothing more
    let notified := byApplication && !s.vars.state.ended
    let s := s.setState .refered
    let s := if notified then s.startReferedCall env else s
    if s.referPending then s.startReferedCall env else s
  else s

/-! ## Responses to the new call -/

/-- `call_failure` for the new call of a transfer. -/
def callFailure (k : Nat) (c : ReferedCall) (reason : SalReason)
    (contact retryable sent : Bool) : Transferee :=
  if c.restarts reason contact retryable then
    s.modifyTransfer k fun t =>
      { t with
        call := some (c.restartInvite sent)
        outcome := if sent then t.outcome else t.outcome.or (some false) }
  else
    let (c, told) := c.fail reason
    let s := s.modifyTransfer k fun t =>
      { t with call := some c, outcome := t.outcome.or (some false) }
    if told then { s.notifyReferState k c with tasks := s.tasks + 1 } else s

/-- The new call of a transfer, while it is not released. -/
def referedCall (k : Nat) : Option ReferedCall :=
  (s.transfers[k]?.bind (·.call)).filter fun c => c.vars.state ≠ .released

def setCall (k : Nat) (c : ReferedCall) : Transferee :=
  s.modifyTransfer k fun t => { t with call := some c }

/-- A deferred start is made. -/
def proceed (k : Nat) (c : ReferedCall) (sent : Bool) : Transferee :=
  if c.vars.state = .outgoingInit ∧ c.inviteOpen = false then
    s.modifyTransfer k fun t =>
      { t with
        call := some (c.startInvite sent)
        outcome := if sent then t.outcome else t.outcome.or (some false) }
  else s

/-- A provisional response to the INVITE, with a To tag or not; from 180 on it rings, or comes with
early media. -/
def provisional (k : Nat) (c : ReferedCall) (code : Nat) (tagged media : Bool) : Transferee :=
  if c.inviteOpen ∧ 100 ≤ code ∧ code < 200 then
    let c := c.responded code
    let c := if tagged then { c with dialog := .early } else c
    if 180 ≤ code ∧ c.terminating = false then
      s.setCall k (c.setState (if media then .outgoingEarlyMedia else .outgoingRinging))
    else s.setCall k c
  else s

/-- An acceptance of the INVITE, and `call_accepted`. The media are refused, or have a direction. -/
def accepted (k : Nat) (c : ReferedCall) (media : Option SalStreamDir) : Transferee :=
  if c.inviteOpen then
    let c := { c.responded 200 with inviteOpen := false, dialog := .confirmed }
    if c.terminating then s.setCall k c
    else
      let s := s.modifyTransfer k fun t => { t with outcome := t.outcome.or (some true) }
      match c.vars.state with
      | .outgoingProgress | .outgoingRinging | .outgoingEarlyMedia =>
          let c := c.setState .connected
          let s := s.notifyReferState k c
          match media with
          | some dir => s.setCall k (c.setState (acceptedState dir))
          | none => s.setCall k ({ c with terminating := true }.setState .error)
      | .earlyUpdating => s.setCall k (c.setState c.vars.prevstate)
      | _ => s.setCall k c
  else s

/-- A refusal of the INVITE. -/
def refused (k : Nat) (c : ReferedCall) (code : Nat) (contact retryable sent : Bool) :
    Transferee :=
  if c.inviteOpen ∧ 300 ≤ code then
    let dialog := if c.dialog = .early then DialogState.terminated else c.dialog
    let c := { c.responded code with inviteOpen := false, dialog := dialog }
    if c.terminating then s.setCall k (if c.dialog = .null then c.setState .released else c)
    else s.callFailure k c (salReasonFromSipCode code) contact retryable sent
  else s

/-- No final response to the INVITE comes, or its transport fails: `call_process_timeout` and
`call_process_io_error`, and the end of an early dialog. -/
def noResponse (k : Nat) (c : ReferedCall) (io : Bool) : Transferee :=
  if c.inviteOpen then
    let c := { c with inviteOpen := false }
    if c.dialog = .null then
      let (c, told) := c.fail (if io then .ioError else .requestTimeout)
      let s := s.modifyTransfer k fun t =>
        { t with call := some (c.setState .released), outcome := t.outcome.or (some false) }
      if told then { s.notifyReferState k c with tasks := s.tasks + 1 } else s
    else
      s.modifyTransfer k fun t =>
        { t with call := some (c.setState .released), outcome := t.outcome.or (some false) }
  else s

/-! ## The new call otherwise -/

/-- `linphone_core_update_call` before the call is answered. -/
def earlyUpdate (k : Nat) (c : ReferedCall) : Transferee :=
  if c.vars.state = .outgoingRinging ∨ c.vars.state = .outgoingEarlyMedia then
    s.setCall k ({ c with inviteTrans := false, lastResponse := none }.setState .earlyUpdating)
  else s

/-- The response to an UPDATE. -/
def earlyUpdateAnswered (k : Nat) (c : ReferedCall) (code : Nat) : Transferee :=
  if c.inviteTrans = false ∧ c.dialog = .early ∧ c.vars.state = .earlyUpdating then
    let c := { c with lastResponse := some code }
    s.setCall k (if 200 ≤ code ∧ code < 300 then c.setState c.vars.prevstate else c)
  else s

/-- `linphone_core_terminate_call` for the new call. -/
def terminate (k : Nat) (c : ReferedCall) : Transferee :=
  if c.vars.state ≠ .end then
    let c :=
      if c.vars.state = .outgoingInit then { c with inviteOpen := false }
      -- a CANCEL waits for a response to the INVITE
      else if c.dialog = .null ∧ c.lastResponse = none then { c with terminating := true }
      else { c with terminating := true, inviteTrans := false, lastResponse := none }
    s.modifyTransfer k fun t =>
      { t with call := some (c.setState .end), outcome := t.outcome.or (some false) }
  else s

/-- The peer ends the call: `call_terminated`. -/
def terminatedByPeer (k : Nat) (c : ReferedCall) : Transferee :=
  if c.dialog = .confirmed then
    s.setCall k ({ c with dialog := .terminated, terminating := true }.setState .end)
  else s

/-- A response which comes when the call is ended: to its BYE, or to a request that was pending. -/
def endedAnswered (k : Nat) (c : ReferedCall) (code : Nat) : Transferee :=
  if c.terminating ∧ (c.dialog = .confirmed ∨ c.dialog = .terminated) then
    let c := { c with dialog := .terminated, inviteTrans := false, lastResponse := some code }
    if 300 ≤ code then s.callFailure k c (salReasonFromSipCode code) false false false
    else s.setCall k c
  else s

/-- A re-INVITE of the call which is established: it is paused, resumed or updated. -/
def reinvite (k : Nat) (c : ReferedCall) (next : CallState) : Transferee :=
  if c.dialog = .confirmed ∧ c.terminating = false ∧
      (next = .pausing ∨ next = .resuming ∨ next = .updating) then
    s.setCall k ({ c with inviteTrans := false, lastResponse := none }.setState next)
  else s

/-- The response to a re-INVITE. -/
def reinviteAnswered (k : Nat) (c : ReferedCall) (code : Nat) (dir : SalStreamDir) : Transferee :=
  if c.dialog = .confirmed ∧ c.terminating = false ∧ c.restorable then
    let c := { c with lastResponse := some code }
    if 300 ≤ code then s.callFailure k c (salReasonFromSipCode code) false false false
    else s.setCall k (c.setState (acceptedState dir))
  else s

/-- `call_released` -/
def callReleased (k : Nat) (c : ReferedCall) : Transferee :=
  if c.vars.state.ended then s.setCall k (c.setState .released) else s

/-! ## The original call -/

/-- `linphone_core_resume_call`; the sound may be in use, and the re-INVITE not be sent. -/
def resumeCall (soundFree sent : Bool) : Transferee :=
  if s.vars.state = .paused ∧ soundFree then
    let s := { s with wasAutomaticallyPaused := false }
    if sent then s.setState .resuming else s
  else s

/-- The outcome of the last transfer. -/
def lastOutcome : Option Bool := s.transfers.getLast?.bind (·.outcome)

/-- `resume_call_after_failed_transfer` -/
def resumeTask (idle soundFree sent : Bool) : Transferee :=
  if s.tasks = 0 then s
  else if s.wasAutomaticallyPaused ∧ s.vars.state = .pausing then s
  else if s.wasAutomaticallyPaused ∧ s.vars.state = .paused then
    if idle then
      { s.resumeCall soundFree sent with
        tasks := s.tasks - 1
        resumes := if soundFree && sent then s.resumes ++ [s.lastOutcome] else s.resumes }
    else s
  else { s with tasks := s.tasks - 1 }

/-- `call_accepted` for the original call. -/
def callAccepted (dir : SalStreamDir) (env : StartEnv) : Transferee :=
  let s := s.setState (acceptedState dir)
  if acceptedState dir = .paused ∧ s.referPending then s.startReferedCall env else s

/-- `call_terminated` for the original call. -/
def callTerminated (env : StartEnv) : Transferee :=
  if s.vars.state.ended then s
  else
    let s := if s.referPending then s.startReferedCall env else s
    s.setState .end

end Transferee

/-! ## Runs -/

/-- What happens to the new call of a transfer. -/
inductive ReferedEvent
  | proceed (sent : Bool)
  | provisional (code : Nat) (tagged media : Bool)
  | accepted (media : Option SalStreamDir)
  | refused (code : Nat) (contact retryable sent : Bool)
  | noResponse (io : Bool)
  | earlyUpdate
  | earlyUpdateAnswered (code : Nat)
  | terminate
  | terminatedByPeer
  | endedAnswered (code : Nat)
  | reinvite (next : CallState)
  | reinviteAnswered (code : Nat) (dir : SalStreamDir)
  | released

inductive TransferEvent
  | refer (target byApplication : Bool) (env : Transferee.StartEnv)
  | refered (k : Nat) (event : ReferedEvent)
  | callAccepted (dir : SalStreamDir) (env : Transferee.StartEnv)
  | callTerminated (env : Transferee.StartEnv)
  /-- any other change of the original call -/
  | move (next : CallState)
  | resume (soundFree sent : Bool)
  | resumeTask (idle soundFree sent : Bool)
  | dialogEnds

namespace Transferee

variable (s : Transferee)

def referedStep (k : Nat) (c : ReferedCall) : ReferedEvent → Transferee
  | .proceed sent => s.proceed k c sent
  | .provisional code tagged media => s.provisional k c code tagged media
  | .accepted media => s.accepted k c media
  | .refused code contact retryable sent => s.refused k c code contact retryable sent
  | .noResponse io => s.noResponse k c io
  | .earlyUpdate => s.earlyUpdate k c
  | .earlyUpdateAnswered code => s.earlyUpdateAnswered k c code
  | .terminate => s.terminate k c
  | .terminatedByPeer => s.terminatedByPeer k c
  | .endedAnswered code => s.endedAnswered k c code
  | .reinvite next => s.reinvite k c next
  | .reinviteAnswered code dir => s.reinviteAnswered k c code dir
  | .released => s.callReleased k c

def step : TransferEvent → Transferee
  | .refer target byApplication env => s.refer target byApplication env
  | .refered k event =>
      match s.referedCall k with
      | some c => s.referedStep k c event
      | none => s
  | .callAccepted dir env => s.callAccepted dir env
  | .callTerminated env => s.callTerminated env
  | .move next => s.setState next
  | .resume soundFree sent => s.resumeCall soundFree sent
  | .resumeTask idle soundFree sent => s.resumeTask idle soundFree sent
  | .dialogEnds => { s with dialogUp := false }

def run (events : List TransferEvent) : Transferee := events.foldl step s

/-- Each event of a run meets a condition, in the state it finds. -/
def Along (p : Transferee → TransferEvent → Prop) : Transferee → List TransferEvent → Prop
  | _, [] => True
  | s, event :: events => p s event ∧ Along p (s.step event) events

end Transferee

/-! ## What is promised -/

/-- After a final status there are only final ones, of the same outcome. -/
def NeverBack (codes : List Nat) : Prop :=
  codes.Pairwise fun code later => 200 ≤ code → 200 ≤ later ∧ (code < 300 ↔ later < 300)

/-- The last NOTIFY tells the outcome. -/
def LastTells (connected : Bool) (codes : List Nat) : Prop :=
  ∃ code, codes.getLast? = some code ∧ if connected then code = 200 else 300 ≤ code

namespace Transferee

/-- The call is started once for each REFER, the NOTIFYs never go back, and tell the outcome while
there is a dialog to send them in; the original call is resumed when the last transfer failed, and
then it is resumed or about to be. -/
structure Told (s : Transferee) : Prop where
  once : ∀ t ∈ s.transfers, t.started ≤ 1
  neverBack : ∀ t ∈ s.transfers, NeverBack t.codes
  told : s.dialogUp = true → ∀ t ∈ s.transfers, ∀ connected, t.outcome = some connected →
    LastTells connected t.codes
  onlyFailed : ∀ outcome ∈ s.resumes, outcome = some false
  whenFailed : s.lastOutcome = some false → s.pausedForTransfer = true → 0 < s.tasks

/-- The referred call has no outcome yet. -/
def Waits (s : Transferee) (k : Nat) : Prop := ∃ t, s.transfers[k]? = some t ∧ t.outcome = none

/-- The new call is started, and answered or refused by a final response which `call_failure` takes
for a failure; a transfer is asked for when there is none before it to settle; and the call is
resumed when that is due. -/
def Reported (s : Transferee) : TransferEvent → Prop
  | .refer _ _ env =>
      env.created = true ∧ (env.deferred = true ∨ env.sent = true) ∧ s.tasks = 0 ∧
        ∀ t ∈ s.transfers, t.outcome ≠ none
  | .refered k (.proceed sent) => s.Waits k → sent = true
  | .refered k (.accepted _) =>
      s.Waits k → ∀ c, s.referedCall k = some c → c.vars.state ≠ .earlyUpdating
  | .refered k (.refused code contact retryable sent) =>
      s.Waits k → salReasonFromSipCode code ≠ .requestPending ∧
        ∀ c, s.referedCall k = some c → c.inviteTrans = true ∧
          (c.restarts (salReasonFromSipCode code) contact retryable = true → sent = true)
  | .refered k (.noResponse _) | .refered k .terminate => ¬ s.Waits k
  | .refered _ (.endedAnswered code) => code < 300
  | .resume soundFree sent =>
      s.pausedForTransfer = true → s.vars.state = .paused → soundFree = true → sent = true
  | .resumeTask idle soundFree sent =>
      s.pausedForTransfer = true → s.vars.state = .pausing ∨
        s.vars.state = .paused ∧ (idle = true → soundFree = true ∧ sent = true)
  | _ => True

end Transferee

end Linphone
