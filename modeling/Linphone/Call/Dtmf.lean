import Linphone.Call.State
import Linphone.Lib.CString
import Linphone.Lib.Conformance

/-!
# Sending DTMF

The digits of a call (`coreapi/linphonecall.c`): single ones, and sequences whose digits a timer
sends one by one. `call->dtmf_sequence` is the rest of the sequence, and points to the argument of
`linphone_call_send_dtmf` while that function sends a single digit; `call->dtmfs_timer` tells the
two apart.

`DtmfSequencer` says what is expected: a sequence is accepted when there is none, each expiration
sends its next digit, and nothing is left when it has ended, has failed or is cancelled.
`dtmf_conforms_iff`: a call does that as long as no single digit is sent during a sequence, and the
timer expires neither at the end of a sequence (of an empty one) nor while digits are to be sent in
the audio stream and there is none.
-/

namespace Linphone

open CString (nul)

/-! ## The call -/

/-- What the core and the streams say about sending digits. -/
structure DtmfEnv where
  vars : StateVars
  audiostream : Bool
  useRfc2833 : Bool
  useInfo : Bool

/-- Digits in the audio stream or in INFO requests, and what `linphone_call_send_dtmfs` returned. -/
inductive DtmfTrace
  | rfc2833 (dtmf : Char)
  | info (dtmf : Char)
  | returned (code : Int)
deriving DecidableEq

/-- `call->dtmf_sequence`: a string in the heap, or the argument of `linphone_call_send_dtmf`. -/
inductive DtmfPointer
  | null
  | heap (digits : List Char)
  | argument (dtmf : Char)
deriving DecidableEq

/-- `*call->dtmf_sequence` -/
def DtmfPointer.deref : DtmfPointer → Option Char
  | null => none
  | heap digits => some (digits.headD nul)
  | argument dtmf => some dtmf

/-- `memmove(seq, seq+1, strlen(seq))`. There is no string behind the argument of a function. -/
def DtmfPointer.memmove : DtmfPointer → Option DtmfPointer
  | heap digits => some (heap digits.tail)
  | _ => none

/-- `ms_free` -/
def DtmfPointer.free : DtmfPointer → Option DtmfPointer
  | null | heap _ => some null
  | argument _ => none

structure DtmfCall extends DtmfEnv where
  dtmfSequence : DtmfPointer := .null
  /-- `call->dtmfs_timer` is set. -/
  dtmfsTimer : Bool := false
  /-- The main loop knows the timer. -/
  registered : Bool := false
  trace : List DtmfTrace := []

/-- `linphone_core_get_use_rfc2833_for_dtmf(lc)!=0 || linphone_core_get_use_info_for_dtmf(lc)==0` -/
def DtmfEnv.inBand (env : DtmfEnv) : Bool := env.useRfc2833 || !env.useInfo

namespace DtmfCall

def cancelDtmfs (call : DtmfCall) : Option DtmfCall :=
  if call.dtmfsTimer then
    call.dtmfSequence.free.map fun freed =>
      { call with registered := false, dtmfsTimer := false, dtmfSequence := freed }
  else some call

/-- Sends the digit the sequence points to. -/
def sendTo (call : DtmfCall) (channel : Char → DtmfTrace) : Option DtmfCall :=
  call.dtmfSequence.deref.map fun dtmf => { call with trace := call.trace ++ [channel dtmf] }

/-- `memmove` of the sequence, if it is one. -/
def advance (call : DtmfCall) : Option DtmfCall :=
  if call.dtmfsTimer then
    call.dtmfSequence.memmove.map fun moved => { call with dtmfSequence := moved }
  else some call

/-- The end of `send_dtmf_handler`; true stands for another expiration. -/
def goOn (call : DtmfCall) : Option (DtmfCall × Bool) :=
  if call.dtmfSequence ≠ .null ∧ call.dtmfSequence.deref ≠ some nul then some (call, true)
  else call.cancelDtmfs.map (·, false)

def sendDtmfHandler (call : DtmfCall) : Option (DtmfCall × Bool) :=
  if call.inBand && !call.audiostream then some (call, false)
  else do
    let call ← if call.inBand then call.sendTo .rfc2833 else some call
    let call ← if call.useInfo then call.sendTo .info else some call
    let call ← call.advance
    call.goOn

/-- `call->dtmf_sequence` while a single digit is sent. -/
def pointTo (call : DtmfCall) (dtmf : Char) : DtmfCall :=
  { call with dtmfSequence := .argument dtmf }

def sendDtmf (call : DtmfCall) (dtmf : Char) : Option DtmfCall :=
  (call.pointTo dtmf).sendDtmfHandler.map fun result => { result.1 with dtmfSequence := .null }

def sendDtmfs (call : DtmfCall) (dtmfs : Option (List Char)) : DtmfCall :=
  if call.dtmfsTimer then { call with trace := call.trace ++ [.returned (-2)] }
  else
    match dtmfs with
    | some mem =>
      { call with
        dtmfSequence := .heap (CString.read mem)
        dtmfsTimer := true
        registered := true
        trace := call.trace ++ [.returned 0] }
    | none => { call with trace := call.trace ++ [.returned 0] }

/-- The timer expires, if it is registered. It is taken out when the handler returns `FALSE`. -/
def expire (call : DtmfCall) : Option DtmfCall :=
  if call.registered then
    call.sendDtmfHandler.map fun result =>
      if result.2 then result.1 else { result.1 with registered := false }
  else some call

/-- `linphone_call_set_state`, as far as digits are concerned. -/
def setState (call : DtmfCall) (cstate : CallState) : Option DtmfCall :=
  let (vars, outcome) := call.vars.setState cstate
  let call := { call with vars := vars }
  if outcome = .notified ∧ cstate ≠ .streamsRunning then call.cancelDtmfs else some call

end DtmfCall

inductive DtmfEvent
  | sendDtmf (dtmf : Char)
  | sendDtmfs (dtmfs : Option (List Char))
  | cancelDtmfs
  | expire
  | setState (cstate : CallState)
  | setAudiostream (present : Bool)
  | setModes (useRfc2833 useInfo : Bool)

def DtmfCall.step (call : DtmfCall) : DtmfEvent → Option DtmfCall
  | .sendDtmf dtmf => call.sendDtmf dtmf
  | .sendDtmfs dtmfs => some (call.sendDtmfs dtmfs)
  | .cancelDtmfs => call.cancelDtmfs
  | .expire => call.expire
  | .setState cstate => call.setState cstate
  | .setAudiostream present => some { call with audiostream := present }
  | .setModes useRfc2833 useInfo => some { call with useRfc2833 := useRfc2833, useInfo := useInfo }

/-! ## What is expected -/

/-- A sequence that was accepted, and how many of its digits were sent. -/
structure DtmfSequence where
  digits : List Char
  sent : Nat := 0
  sent_le : sent ≤ digits.length
  noNul : nul ∉ digits

/-- The digits that are still to be sent. -/
def DtmfSequence.left (sequence : DtmfSequence) : List Char := sequence.digits.drop sequence.sent

/-- The sequence an accepted string gives. -/
def DtmfSequence.of (mem : List Char) : DtmfSequence where
  digits := CString.read mem
  sent_le := Nat.zero_le _
  noNul := CString.not_nul_mem_read mem

structure DtmfSequencer extends DtmfEnv where
  running : Option DtmfSequence := none
  trace : List DtmfTrace := []

/-- Where a digit goes; nowhere without the audio stream it needs. -/
def DtmfEnv.channels (env : DtmfEnv) (dtmf : Char) : List DtmfTrace :=
  if env.inBand && !env.audiostream then []
  else (if env.inBand then [.rfc2833 dtmf] else []) ++ (if env.useInfo then [.info dtmf] else [])

namespace DtmfSequencer

/-- The next digit of the sequence is sent. The sequence ends with its last digit; it fails when
there is no audio stream for it. -/
def expire (s : DtmfSequencer) : DtmfSequencer :=
  match s.running with
  | none => s
  | some sequence =>
    if h : sequence.sent < sequence.digits.length then
      { s with
        running :=
          if s.inBand && !s.audiostream ∨ sequence.digits.length ≤ sequence.sent + 1 then none
          else some { sequence with sent := sequence.sent + 1, sent_le := h }
        trace := s.trace ++ s.channels sequence.digits[sequence.sent] }
    else { s with running := none }

def step (s : DtmfSequencer) : DtmfEvent → DtmfSequencer
  | .sendDtmf dtmf => { s with trace := s.trace ++ s.channels dtmf }
  | .sendDtmfs dtmfs =>
    match s.running, dtmfs with
    | some _, _ => { s with trace := s.trace ++ [.returned (-2)] }
    | none, some mem =>
      { s with running := some (.of mem), trace := s.trace ++ [.returned 0] }
    | none, none => { s with trace := s.trace ++ [.returned 0] }
  | .cancelDtmfs => { s with running := none }
  | .expire => s.expire
  | .setState cstate =>
    let (vars, outcome) := s.vars.setState cstate
    { s with
      vars := vars
      running := if outcome = .notified ∧ cstate ≠ .streamsRunning then none else s.running }
  | .setAudiostream present => { s with audiostream := present }
  | .setModes useRfc2833 useInfo => { s with useRfc2833 := useRfc2833, useInfo := useInfo }

end DtmfSequencer

/-- The call has sent what is expected, and has a timer and a sequence exactly if one is running. -/
structure DtmfCall.Follows (call : DtmfCall) (s : DtmfSequencer) : Prop where
  env : call.toDtmfEnv = s.toDtmfEnv
  trace : call.trace = s.trace
  timer : call.dtmfsTimer = s.running.isSome
  registered : call.registered = s.running.isSome
  sequence : call.dtmfSequence = s.running.elim .null fun sequence => .heap sequence.left

/-- No single digit is sent during a sequence, and the timer expires while there is a digit to be
sent and somewhere to send it. -/
def DtmfCall.Careful (call : DtmfCall) : DtmfEvent → Prop
  | .sendDtmf _ => call.dtmfsTimer = false
  | .expire => call.registered = true →
      call.dtmfSequence.deref ≠ some nul ∧ (call.inBand = true → call.audiostream = true)
  | _ => True

/-! ## Where the two agree -/

/-- The call that follows the expectation. -/
def DtmfSequencer.call (s : DtmfSequencer) : DtmfCall where
  toDtmfEnv := s.toDtmfEnv
  dtmfSequence := s.running.elim .null fun sequence => .heap sequence.left
  dtmfsTimer := s.running.isSome
  registered := s.running.isSome
  trace := s.trace

variable {call : DtmfCall} {s : DtmfSequencer} {sequence : DtmfSequence}

theorem DtmfCall.follows_iff : call.Follows s ↔ call = s.call := by
  constructor
  · rintro ⟨henv, htrace, htimer, hregistered, hsequence⟩
    cases call
    simp only at henv htrace htimer hregistered hsequence
    rw [DtmfSequencer.call, henv, htrace, htimer, hregistered, hsequence]
  · rintro rfl
    exact ⟨rfl, rfl, rfl, rfl, rfl⟩

theorem exists_follows_iff {x : Option DtmfCall} :
    (∃ call', x = some call' ∧ call'.Follows s) ↔ x = some s.call := by
  constructor
  · rintro ⟨call', rfl, h⟩
    rw [DtmfCall.follows_iff.mp h]
  · exact fun h => ⟨s.call, h, DtmfCall.follows_iff.mpr rfl⟩

namespace DtmfCall

/-! ### Single digits -/

theorem sendDtmfHandler_eq (call : DtmfCall) {dtmf : Char}
    (hopen : (call.inBand && !call.audiostream) = false)
    (h : call.dtmfSequence.deref = some dtmf) :
    call.sendDtmfHandler =
      ({ call with trace := call.trace ++ call.channels dtmf } : DtmfCall).advance.bind
        DtmfCall.goOn := by
  rw [sendDtmfHandler, hopen, DtmfEnv.channels, hopen]
  cases hband : call.inBand <;> cases hinfo : call.useInfo <;>
    simp [sendTo, h, hinfo]

theorem sendDtmfHandler_closed (call : DtmfCall)
    (hclosed : (call.inBand && !call.audiostream) = true) :
    call.sendDtmfHandler = some (call, false) := by
  rw [sendDtmfHandler, hclosed]
  rfl

theorem channels_closed {env : DtmfEnv} (hclosed : (env.inBand && !env.audiostream) = true)
    (dtmf : Char) : env.channels dtmf = [] := by
  rw [DtmfEnv.channels, hclosed]
  rfl

/-- Without a sequence a single digit is sent and nothing else happens. -/
theorem sendDtmf_idle (h : call.dtmfsTimer = false) (hnull : call.dtmfSequence = .null)
    (dtmf : Char) :
    call.sendDtmf dtmf = some { call with trace := call.trace ++ call.channels dtmf } := by
  obtain ⟨env, sequence, timer, registered, trace⟩ := call
  simp only at h hnull
  subst h hnull
  cases hclosed : env.inBand && !env.audiostream with
  | true =>
    have hhandler := sendDtmfHandler_closed
      (pointTo ⟨env, .null, false, registered, trace⟩ dtmf) hclosed
    rw [sendDtmf, hhandler, channels_closed hclosed, List.append_nil]
    rfl
  | false =>
    have hhandler := sendDtmfHandler_eq
      (pointTo ⟨env, .null, false, registered, trace⟩ dtmf) hclosed rfl
    rw [sendDtmf, hhandler]
    by_cases hnul : dtmf = nul
    · simp [pointTo, advance, goOn, cancelDtmfs, DtmfPointer.deref, hnul]
    · simp [pointTo, advance, goOn, DtmfPointer.deref, hnul]

theorem sendDtmf_forgets {call' : DtmfCall} {dtmf : Char} (h : call.sendDtmf dtmf = some call') :
    call'.dtmfSequence = .null := by
  rw [sendDtmf, Option.map_eq_some_iff] at h
  obtain ⟨result, -, rfl⟩ := h
  rfl

/-! ### Expirations -/

theorem deref_left (sequence : DtmfSequence) (h : sequence.sent < sequence.digits.length) :
    (DtmfPointer.heap sequence.left).deref = some sequence.digits[sequence.sent] := by
  rw [DtmfSequence.left, List.drop_eq_getElem_cons h]
  rfl

theorem deref_left_end (h : sequence.digits.length ≤ sequence.sent) :
    (DtmfPointer.heap sequence.left).deref = some nul := by
  rw [DtmfSequence.left, List.drop_eq_nil_of_le h]
  rfl

theorem deref_left_eq_nul :
    (DtmfPointer.heap sequence.left).deref = some nul ↔
      sequence.digits.length ≤ sequence.sent := by
  refine ⟨fun h => ?_, deref_left_end⟩
  by_contra hlt
  have hlt := Nat.lt_of_not_le hlt
  rw [deref_left sequence hlt, Option.some.injEq] at h
  exact sequence.noNul (h ▸ List.getElem_mem hlt)

end DtmfCall

theorem advance_running {env : DtmfEnv} {trace : List DtmfTrace} :
    DtmfCall.advance ⟨env, .heap sequence.left, true, true, trace⟩ =
      some ⟨env, .heap (sequence.digits.drop (sequence.sent + 1)), true, true, trace⟩ := by
  simp [DtmfCall.advance, DtmfPointer.memmove, DtmfSequence.left]

theorem goOn_running (env : DtmfEnv) (trace : List DtmfTrace) (next : DtmfSequence) :
    DtmfCall.goOn ⟨env, .heap next.left, true, true, trace⟩ =
      some (if next.digits.length ≤ next.sent then ⟨⟨env, .null, false, false, trace⟩, false⟩
        else ⟨⟨env, .heap next.left, true, true, trace⟩, true⟩) := by
  rw [DtmfCall.goOn]
  by_cases hend : next.digits.length ≤ next.sent
  · rw [if_neg (fun h => h.2 (DtmfCall.deref_left_eq_nul.mpr hend)), if_pos hend]
    rfl
  · rw [if_pos ⟨by simp, fun h => hend (DtmfCall.deref_left_eq_nul.mp h)⟩, if_neg hend]

theorem expire_call (env : DtmfEnv) (trace : List DtmfTrace) :
    (DtmfSequencer.call ⟨env, some sequence, trace⟩).expire =
      (DtmfCall.sendDtmfHandler ⟨env, .heap sequence.left, true, true, trace⟩).map fun result =>
        if result.2 then result.1 else { result.1 with registered := false } := rfl

theorem DtmfSequencer.expire_running (env : DtmfEnv) (trace : List DtmfTrace) :
    DtmfSequencer.expire ⟨env, some sequence, trace⟩ =
      if h : sequence.sent < sequence.digits.length then
        ⟨env,
          if env.inBand && !env.audiostream ∨ sequence.digits.length ≤ sequence.sent + 1 then none
          else some { sequence with sent := sequence.sent + 1, sent_le := h },
          trace ++ env.channels sequence.digits[sequence.sent]⟩
      else ⟨env, none, trace⟩ := rfl

/-- **An expiration sends the next digit** when there is one, and somewhere to send it. -/
theorem expire_running (env : DtmfEnv) (trace : List DtmfTrace)
    (hopen : (env.inBand && !env.audiostream) = false)
    (h : sequence.sent < sequence.digits.length) :
    (DtmfSequencer.call ⟨env, some sequence, trace⟩).expire =
      some (DtmfSequencer.expire ⟨env, some sequence, trace⟩).call := by
  have hhandler := DtmfCall.sendDtmfHandler_eq
    ⟨env, .heap sequence.left, true, true, trace⟩ hopen (DtmfCall.deref_left sequence h)
  have hgo := goOn_running env (trace ++ env.channels sequence.digits[sequence.sent])
    { sequence with sent := sequence.sent + 1, sent_le := h }
  rw [advance_running, Option.bind_some] at hhandler
  rw [expire_call, show _ = _ from hhandler.trans hgo, DtmfSequencer.expire_running, dif_pos h]
  by_cases hend : sequence.digits.length ≤ sequence.sent + 1
  · simp [hend, DtmfSequencer.call]
  · simp [hend, hopen, DtmfSequencer.call]

theorem expire_closed (env : DtmfEnv) (trace : List DtmfTrace)
    (hclosed : (env.inBand && !env.audiostream) = true) :
    (DtmfSequencer.call ⟨env, some sequence, trace⟩).expire =
      some ⟨env, .heap sequence.left, true, false, trace⟩ := by
  have hhandler := DtmfCall.sendDtmfHandler_closed
    ⟨env, .heap sequence.left, true, true, trace⟩ hclosed
  rw [expire_call, hhandler]
  rfl

/-- At the end of a sequence the timer sends a NUL. -/
theorem expire_end (env : DtmfEnv) (trace : List DtmfTrace)
    (hopen : (env.inBand && !env.audiostream) = false)
    (h : sequence.digits.length ≤ sequence.sent) :
    (DtmfSequencer.call ⟨env, some sequence, trace⟩).expire =
      some ⟨env, .null, false, false, trace ++ env.channels nul⟩ := by
  have hhandler := DtmfCall.sendDtmfHandler_eq
    ⟨env, .heap sequence.left, true, true, trace⟩ hopen (DtmfCall.deref_left_end h)
  have hleft : sequence.left = [] := List.drop_eq_nil_of_le h
  rw [expire_call, hhandler]
  simp [DtmfCall.advance, DtmfPointer.memmove, DtmfCall.goOn, DtmfPointer.deref,
    DtmfCall.cancelDtmfs, DtmfPointer.free, hleft]

theorem channels_ne_nil {env : DtmfEnv} (hopen : (env.inBand && !env.audiostream) = false)
    (dtmf : Char) : env.channels dtmf ≠ [] := by
  rw [DtmfEnv.channels, hopen, DtmfEnv.inBand]
  cases env.useRfc2833 <;> cases env.useInfo <;> simp

/-! ### Events -/

theorem cancelDtmfs_call (s : DtmfSequencer) :
    s.call.cancelDtmfs = some ({ s with running := none } : DtmfSequencer).call := by
  obtain ⟨env, running, trace⟩ := s
  cases running with
  | none => rfl
  | some sequence => rfl

theorem setState_call (s : DtmfSequencer) (cstate : CallState) :
    s.call.setState cstate = some (s.step (.setState cstate)).call := by
  obtain ⟨env, running, trace⟩ := s
  cases hset : env.vars.setState cstate with
  | mk vars outcome =>
    simp only [DtmfCall.setState, DtmfSequencer.step, DtmfSequencer.call, hset]
    by_cases h : outcome = .notified ∧ cstate ≠ .streamsRunning
    · rw [if_pos h, if_pos h]
      exact cancelDtmfs_call ⟨{ env with vars := vars }, running, trace⟩
    · rw [if_neg h, if_neg h]

theorem sendDtmfs_call (s : DtmfSequencer) (dtmfs : Option (List Char)) :
    s.call.sendDtmfs dtmfs = (s.step (.sendDtmfs dtmfs)).call := by
  obtain ⟨env, running, trace⟩ := s
  cases running with
  | some sequence => rfl
  | none =>
    cases dtmfs with
    | none => rfl
    | some mem => rfl

theorem sendDtmf_call_iff (s : DtmfSequencer) (dtmf : Char) :
    s.call.sendDtmf dtmf = some (s.step (.sendDtmf dtmf)).call ↔ s.call.dtmfsTimer = false := by
  obtain ⟨env, running, trace⟩ := s
  cases running with
  | none => exact ⟨fun _ => rfl, fun h => DtmfCall.sendDtmf_idle h rfl dtmf⟩
  | some sequence =>
    refine ⟨fun h => ?_, fun h => absurd h (by simp [DtmfSequencer.call])⟩
    exact absurd (DtmfCall.sendDtmf_forgets h) (by simp [DtmfSequencer.call, DtmfSequencer.step])

theorem expire_call_iff (s : DtmfSequencer) :
    s.call.expire = some s.expire.call ↔ s.call.Careful .expire := by
  obtain ⟨env, running, trace⟩ := s
  cases running with
  | none => exact ⟨fun _ h => absurd h (by simp [DtmfSequencer.call]), fun _ => rfl⟩
  | some sequence =>
    have hcareful : (DtmfSequencer.call ⟨env, some sequence, trace⟩).Careful .expire ↔
        sequence.sent < sequence.digits.length ∧ (env.inBand && !env.audiostream) = false := by
      refine ⟨fun h => ⟨Nat.lt_of_not_le fun hend => ?_, ?_⟩, fun h _ => ⟨fun hnul => ?_, ?_⟩⟩
      · exact (h rfl).1 (DtmfCall.deref_left_end hend)
      · have haudio : env.inBand = true → env.audiostream = true := (h rfl).2
        simpa using haudio
      · exact absurd h.1 (Nat.not_lt.mpr (DtmfCall.deref_left_eq_nul.mp hnul))
      · show env.inBand = true → env.audiostream = true
        simpa using h.2
    rw [hcareful]
    constructor
    · intro h
      cases hclosed : env.inBand && !env.audiostream with
      | true =>
        have hfailed : (DtmfSequencer.expire ⟨env, some sequence, trace⟩).running = none := by
          rw [DtmfSequencer.expire_running]
          split
          · simp [hclosed]
          · rfl
        rw [expire_closed env trace hclosed, Option.some.injEq] at h
        have htimer := congrArg DtmfCall.dtmfsTimer h
        rw [DtmfSequencer.call, hfailed] at htimer
        exact absurd htimer (by simp)
      | false =>
        refine ⟨Nat.lt_of_not_le fun hend => ?_, rfl⟩
        rw [expire_end env trace hclosed hend, DtmfSequencer.expire_running,
          dif_neg (by simpa using hend), Option.some.injEq] at h
        have htrace := congrArg DtmfCall.trace h
        exact channels_ne_nil hclosed nul (List.append_right_eq_self.mp htrace)
    · rintro ⟨hlt, hopen⟩
      exact expire_running env trace hopen hlt

/-- **One event is as expected exactly if it is made with care.** -/
theorem follows_step_iff (h : call.Follows s) (e : DtmfEvent) :
    (∃ call', call.step e = some call' ∧ call'.Follows (s.step e)) ↔ call.Careful e := by
  rw [exists_follows_iff]
  rw [DtmfCall.follows_iff] at h
  subst h
  cases e with
  | sendDtmf dtmf => exact sendDtmf_call_iff s dtmf
  | sendDtmfs dtmfs => exact ⟨fun _ => trivial, fun _ => congrArg some (sendDtmfs_call s dtmfs)⟩
  | cancelDtmfs => exact ⟨fun _ => trivial, fun _ => cancelDtmfs_call s⟩
  | expire => exact expire_call_iff s
  | setState cstate => exact ⟨fun _ => trivial, fun _ => setState_call s cstate⟩
  | setAudiostream present => exact ⟨fun _ => trivial, fun _ => rfl⟩
  | setModes useRfc2833 useInfo => exact ⟨fun _ => trivial, fun _ => rfl⟩

/-- **A call sends its digits as expected exactly as long as every event is made with care.** -/
theorem dtmf_conforms_iff (env : DtmfEnv) (events : List DtmfEvent) :
    Conformance.Conforms DtmfCall.step DtmfSequencer.step DtmfCall.Follows { env with }
        { env with } events ↔
      Conformance.Allowed DtmfCall.step DtmfCall.Careful { env with } events :=
  Conformance.conforms_iff (fun _ _ e h => follows_step_iff h e) ⟨rfl, rfl, rfl, rfl, rfl⟩

/-- A sequence that is to be sent before there is an audio stream keeps its timer, which is
stopped. -/
theorem dtmf_timer_kept :
    ¬Conformance.Conforms DtmfCall.step DtmfSequencer.step DtmfCall.Follows
      { vars := { state := .outgoingRinging }, audiostream := false, useRfc2833 := true,
        useInfo := false }
      { vars := { state := .outgoingRinging }, audiostream := false, useRfc2833 := true,
        useInfo := false }
      [.sendDtmfs (some "12".toList), .expire, .sendDtmfs (some "3".toList)] := by
  intro h
  obtain ⟨call', hrun, hfollows⟩ := h _ List.prefix_rfl
  obtain rfl := Option.some.inj hrun
  exact absurd hfollows.trace (by decide)

end Linphone
