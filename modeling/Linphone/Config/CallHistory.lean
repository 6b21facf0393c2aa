import Linphone.Config.ListsSaved

/-!
# The call history over restarts

A call that has ended is put in front of the call logs, and the last one is dropped when there are
too many (`linphone_call_log_completed`, `coreapi/linphonecall.c`). Then the whole list is written,
as after `linphone_core_remove_call_log` and `linphone_core_clear_call_logs`
(`coreapi/linphonecore.c`). A reference key is not written when it is set.

`history_of_run`: as long as no start of the core finds a maximum below the number of its logs, the
history is a list of which the state that was written last is kept. Only the sections up to the
maximum are cleaned behind the list.
-/

namespace Linphone

/-! ## The core -/

/-- What the core holds of the calls that have ended, with the latest log first. -/
structure CallHistory (F : Type) where
  config : LpConfig
  callLogs : List (CallLogEntry F)
  missedCalls : Nat
  maxCallLogs : Int

/-- What happens to the logs. A log is named by its place, which is no place of the list when it is
not there. -/
inductive CallLogOp (F : Type)
  | completed (log : CallLogEntry F)
  | removeCallLog (k : Nat)
  | clearCallLogs
  | resetMissedCallsCount
  | setRefKey (k : Nat) (refkey : Option String)
  | restart (config : LpConfig)

/-- `max_call_logs`, as `misc_config_read` has it. -/
def historyMaxSize (config : LpConfig) : Int := config.getInt "misc" "history_max_size" 30

/-- `LinphoneCallMissed` -/
def callMissed : Int := 2

/-- `linphone_call_log_set_ref_key` -/
def CallLogEntry.setRefKey {F : Type} (refkey : Option String) (cl : CallLogEntry F) :
    CallLogEntry F := { cl with refkey := refkey }

namespace CallHistory

variable {F : Type} (lib : CallLogText F) (s : CallHistory F)

/-- The start of a core. -/
def start (config : LpConfig) : CallHistory F where
  config := config
  callLogs := (callLogList lib (historyMaxSize config)).readAll config
  missedCalls := 0
  maxCallLogs := historyMaxSize config

/-- `call_logs_write_to_config_file` of a core that has started, with the list that it writes. -/
def write (callLogs : List (CallLogEntry F)) : CallHistory F :=
  { s with
    callLogs := callLogs
    config := (callLogList lib s.maxCallLogs).writeAll s.config callLogs }

/-- `linphone_call_log_completed`, with the duration in the log. -/
def callLogCompleted (log : CallLogEntry F) : CallHistory F :=
  let s := if log.status = callMissed then { s with missedCalls := s.missedCalls + 1 } else s
  let callLogs := log :: s.callLogs
  s.write lib (if s.maxCallLogs < callLogs.length then callLogs.dropLast else callLogs)

/-- One operation; a restart finds a configuration. -/
def after : CallLogOp F → CallHistory F
  | .completed log => s.callLogCompleted lib log
  | .removeCallLog k => s.write lib (s.callLogs.eraseIdx k)
  | .clearCallLogs => { s with missedCalls := 0 }.write lib []
  | .resetMissedCallsCount => { s with missedCalls := 0 }
  | .setRefKey k refkey => { s with callLogs := s.callLogs.modify k (·.setRefKey refkey) }
  | .restart config => start lib config

/-- The texts of a log that is completed can be kept, a reference key is none or a text, and the
core is restarted on the call logs it left, with a maximum that they fit into. -/
def Ok : CallLogOp F → Prop
  | .completed log => log.Kept lib
  | .setRefKey _ refkey => refkey ≠ some ""
  | .restart config =>
      (∀ m, config.lookup (numbered "call_log_" m) = s.config.lookup (numbered "call_log_" m)) ∧
        s.callLogs.length ≤ (historyMaxSize config).toNat
  | _ => True

def RunOk : CallHistory F → List (CallLogOp F) → Prop
  | _, [] => True
  | s, op :: ops => s.Ok lib op ∧ RunOk (s.after lib op) ops

end CallHistory

/-! ## A list with its last written state -/

/-- The logs in memory, the logs that were written last, and how many are kept. -/
structure LogBook (F : Type) where
  logs : List (CallLogEntry F)
  written : List (CallLogEntry F)
  size : Nat

namespace LogBook

variable {F : Type} (b : LogBook F)

def write (logs : List (CallLogEntry F)) : LogBook F := { b with logs := logs, written := logs }

def after : CallLogOp F → LogBook F
  | .completed log => b.write ((log :: b.logs).take b.size)
  | .removeCallLog k => b.write (b.logs.eraseIdx k)
  | .clearCallLogs => b.write []
  | .resetMissedCallsCount => b
  | .setRefKey k refkey => { b with logs := b.logs.modify k (·.setRefKey refkey) }
  | .restart config => { b with logs := b.written, size := (historyMaxSize config).toNat }

end LogBook

/-! ## One follows the other -/

section

variable {F : Type} (lib : CallLogText F)

/-- The core has the logs of the book in memory and in its configuration. -/
structure CallHistory.Follows (s : CallHistory F) (b : LogBook F) : Prop where
  logs : s.callLogs = b.logs
  size : s.maxCallLogs.toNat = b.size
  saved : (callLogList lib s.maxCallLogs).Saved s.config b.written
  kept : ∀ cl ∈ b.logs, cl.Kept lib
  keptWritten : ∀ cl ∈ b.written, cl.Kept lib
  fits : b.logs.length ≤ b.size
  same : b.written.map (·.setRefKey none) = b.logs.map (·.setRefKey none)

variable {lib} {s : CallHistory F} {b : LogBook F}

theorem CallHistory.Follows.length_written (h : s.Follows lib b) :
    b.written.length = b.logs.length := by
  have hlength := congrArg List.length h.same
  simpa only [List.length_map] using hlength

theorem readCallLog_congr {config config' : LpConfig} {i : Nat}
    (h : config'.lookup (numbered "call_log_" i) = config.lookup (numbered "call_log_" i)) :
    readCallLog lib config' i = readCallLog lib config i := by
  have hget : config'.getString (numbered "call_log_" i) =
      config.getString (numbered "call_log_" i) := funext (LpConfig.getString_of_lookup_eq h)
  unfold readCallLog readDate LpConfig.getInt LpConfig.getInt64
  dsimp only
  rw [hget]

theorem saved_congr {config config' : LpConfig} {l : List (CallLogEntry F)} {n n' : Int}
    (h : ∀ m, config'.lookup (numbered "call_log_" m) = config.lookup (numbered "call_log_" m))
    (hs : (callLogList lib n).Saved config l) : (callLogList lib n').Saved config' l := by
  have hbehind : ∀ m, l.length ≤ m → numbered "call_log_" m ∉ config' := by
    intro m hm
    rw [← AList.lookup_eq_none, h m, AList.lookup_eq_none]
    exact hs.behind m hm
  refine ⟨(NumberedList.readAll_eq_iff hbehind).mpr fun k hk => ?_, hbehind⟩
  refine (readCallLog_congr (h k)).trans ?_
  exact (NumberedList.readAll_eq_iff hs.behind).mp hs.read k hk

/-- **A list that fits replaces the one that is written.** -/
theorem CallHistory.Follows.write (h : s.Follows lib b) {logs : List (CallLogEntry F)}
    (hkept : ∀ cl ∈ logs, cl.Kept lib) (hfits : logs.length ≤ b.size) :
    (s.write lib logs).Follows lib (b.write logs) := by
  refine ⟨rfl, h.size, ?_, hkept, hkept, hfits, rfl⟩
  refine ((callLogs_keep lib s.maxCallLogs).saved_iff (fun _ => rfl) fun _ _ h => h.elim).mpr
    ⟨fun k hk => hkept _ (List.getElem_mem hk), fun m hm hmem => ?_⟩
  -- the sections that are left are below the maximum
  have hlt : m < b.size := by
    refine Nat.lt_of_lt_of_le (Nat.lt_of_not_le fun hle => ?_) h.fits
    exact h.saved.behind m (h.length_written ▸ hle) hmem
  rw [← h.size] at hlt
  show m ∈ List.range' logs.length (s.maxCallLogs.toNat - logs.length)
  rw [List.mem_range'_1]
  omega

theorem CallHistory.Follows.missed (h : s.Follows lib b) (n : Nat) :
    { s with missedCalls := n }.Follows lib b :=
  { h with }

/-- The last log is dropped when there is one too many. -/
theorem dropLast_eq_take (h : s.Follows lib b) (log : CallLogEntry F) :
    (if s.maxCallLogs < ((log :: s.callLogs).length : Int) then (log :: s.callLogs).dropLast
      else log :: s.callLogs) = (log :: b.logs).take b.size := by
  have hfits := h.fits
  have hsize := h.size
  have hlength : (log :: b.logs).length = b.logs.length + 1 := List.length_cons
  rw [h.logs]
  split
  · rw [List.dropLast_eq_take]
    congr 1
    omega
  · rw [List.take_of_length_le (by omega)]

theorem kept_setRefKey {cl : CallLogEntry F} {refkey : Option String} (h : cl.Kept lib)
    (hkey : refkey ≠ some "") : (cl.setRefKey refkey).Kept lib :=
  { h with refkey := hkey }

theorem map_modify_setRefKey (l : List (CallLogEntry F)) (k : Nat) (refkey : Option String) :
    (l.modify k (·.setRefKey refkey)).map (·.setRefKey none) = l.map (·.setRefKey none) := by
  refine List.ext_getElem? fun i => ?_
  simp only [List.getElem?_map, List.getElem?_modify]
  cases l[i]? with
  | none => rfl
  | some cl => by_cases hi : k = i <;> simp [hi, CallLogEntry.setRefKey]

theorem mem_modify {α : Type} {l : List α} {k : Nat} {f : α → α} {a : α} (h : a ∈ l.modify k f) :
    a ∈ l ∨ ∃ a' ∈ l, f a' = a := by
  obtain ⟨i, hi⟩ := List.mem_iff_getElem?.mp h
  rw [List.getElem?_modify] at hi
  obtain ⟨a', ha', heq⟩ := Option.map_eq_some_iff.mp hi
  have hmem := List.mem_of_getElem? ha'
  split at heq
  · exact .inr ⟨a', hmem, heq⟩
  · exact .inl (heq ▸ hmem)

/-- **One operation.** -/
theorem CallHistory.Follows.after (h : s.Follows lib b) {op : CallLogOp F} (hok : s.Ok lib op) :
    (s.after lib op).Follows lib (b.after op) := by
  cases op with
  | completed log =>
    have hcompleted : ∀ n, ({ s with missedCalls := n }.write lib
        (if s.maxCallLogs < ((log :: s.callLogs).length : Int) then (log :: s.callLogs).dropLast
          else log :: s.callLogs)).Follows lib (b.after (.completed log)) := by
      intro n
      rw [dropLast_eq_take h]
      refine (h.missed n).write (fun cl hcl => ?_) (List.length_take_le ..)
      rcases List.mem_cons.mp (List.mem_of_mem_take hcl) with rfl | hcl
      · exact hok
      · exact h.kept cl hcl
    by_cases hmissed : log.status = callMissed
    · have hresult := hcompleted (s.missedCalls + 1)
      simpa only [CallHistory.after, CallHistory.callLogCompleted, hmissed, if_true] using hresult
    · have hresult := hcompleted s.missedCalls
      simpa only [CallHistory.after, CallHistory.callLogCompleted, hmissed, if_false] using hresult
  | removeCallLog k =>
    show (s.write lib (s.callLogs.eraseIdx k)).Follows lib (b.write (b.logs.eraseIdx k))
    rw [h.logs]
    refine h.write (fun cl hcl => h.kept cl (List.mem_of_mem_eraseIdx hcl)) ?_
    exact Nat.le_trans (List.length_eraseIdx_le ..) h.fits
  | clearCallLogs =>
    exact (h.missed 0).write (fun cl hcl => absurd hcl List.not_mem_nil) (Nat.zero_le _)
  | resetMissedCallsCount => exact h.missed 0
  | setRefKey k refkey =>
    refine ⟨congrArg (·.modify k (·.setRefKey refkey)) h.logs, h.size, h.saved, fun cl hcl => ?_,
      h.keptWritten, ?_, h.same.trans (map_modify_setRefKey b.logs k refkey).symm⟩
    · rcases mem_modify hcl with hcl | ⟨cl', hcl', rfl⟩
      · exact h.kept cl hcl
      · exact kept_setRefKey (h.kept cl' hcl') hok
    · exact Nat.le_trans (Nat.le_of_eq (List.length_modify ..)) h.fits
  | restart config =>
    obtain ⟨hsections, hfits⟩ := hok
    have hsaved : (callLogList lib (historyMaxSize config)).Saved config b.written :=
      saved_congr hsections h.saved
    refine ⟨hsaved.read, rfl, hsaved, h.keptWritten, h.keptWritten, ?_, rfl⟩
    show b.written.length ≤ _
    rw [h.length_written, ← h.logs]
    exact hfits

/-- **The history of the calls.** From a start on logs that are saved and fit, the core has the
logs of the book, no more than are kept, and would read the ones that were written last, which are
the same but for the reference keys. -/
theorem history_of_run (lib : CallLogText F) {config : LpConfig} {l : List (CallLogEntry F)}
    (hsaved : (callLogList lib (historyMaxSize config)).Saved config l)
    (hkept : ∀ cl ∈ l, cl.Kept lib) (hfits : l.length ≤ (historyMaxSize config).toNat)
    {ops : List (CallLogOp F)} (hok : (CallHistory.start lib config).RunOk lib ops) :
    let s := ops.foldl (CallHistory.after lib) (CallHistory.start lib config)
    let b := ops.foldl LogBook.after ⟨l, l, (historyMaxSize config).toNat⟩
    s.callLogs = b.logs ∧ b.logs.length ≤ s.maxCallLogs.toNat ∧
      (CallHistory.start lib s.config).callLogs = b.written ∧
      b.written.map (·.setRefKey none) = b.logs.map (·.setRefKey none) := by
  have hrun : ∀ (ops : List (CallLogOp F)) (s : CallHistory F) (b : LogBook F),
      s.Follows lib b → s.RunOk lib ops →
        (ops.foldl (CallHistory.after lib) s).Follows lib (ops.foldl LogBook.after b) := by
    intro ops
    induction ops with
    | nil => exact fun _ _ h _ => h
    | cons op ops ih => exact fun s b h hok => ih _ _ (h.after hok.1) hok.2
  have hstart : (CallHistory.start lib config).Follows lib
      ⟨l, l, (historyMaxSize config).toNat⟩ :=
    ⟨hsaved.read, rfl, hsaved, hkept, hkept, hfits, rfl⟩
  have h := hrun ops _ _ hstart hok
  intro s b
  refine ⟨h.logs, h.size ▸ h.fits, ?_, h.same⟩
  have hwritten : (callLogList lib (historyMaxSize s.config)).Saved s.config b.written :=
    saved_congr (fun _ => rfl) h.saved
  exact hwritten.read

end

/-! ## Two calls and a restart -/

def marieCall : CallLogEntry Unit where
  dir := 1
  status := callMissed
  fromAddress := marieContact
  toAddress := marieContact
  startDateTime := 1436000000
  startDate := "Sat Jul  4 08:53:20 2015"
  duration := 0
  refkey := none
  quality := ()
  videoEnabled := false
  callId := some "f81d4fae"

/-- A reference key gets lost in the restart, and no call. -/
theorem history_of_run_restarted :
    let first := CallHistory.start marieText.toCallLogText ∅
    let ops := [.completed marieCall, .setRefKey 0 (some "42"),
      .restart (first.callLogCompleted marieText.toCallLogText marieCall).config,
      .completed marieCall]
    (ops.foldl (CallHistory.after marieText.toCallLogText) first).callLogs =
      [marieCall, marieCall] := by
  intro first ops
  have hkept : marieCall.Kept marieText.toCallLogText := by
    constructor
    all_goals decide +kernel
  have hbehind : ∀ m, ([] : List (CallLogEntry Unit)).length ≤ m →
      numbered "call_log_" m ∉ (∅ : LpConfig) := fun _ _ => AList.notMem_empty _
  have hsaved : (callLogList marieText.toCallLogText (historyMaxSize ∅)).Saved ∅ [] :=
    ⟨(NumberedList.readAll_eq_iff hbehind).mpr fun k hk => absurd hk (Nat.not_lt_zero k), hbehind⟩
  have hfirst : first = ⟨∅, [], 0, historyMaxSize ∅⟩ :=
    congrArg (fun l => (⟨∅, l, 0, historyMaxSize ∅⟩ : CallHistory Unit)) hsaved.read
  have hsize : (historyMaxSize
      (first.callLogCompleted marieText.toCallLogText marieCall).config).toNat = 30 := by
    rw [hfirst]
    decide +kernel
  have hone : ((first.after marieText.toCallLogText (.completed marieCall)).after
      marieText.toCallLogText (.setRefKey 0 (some "42"))).callLogs.length = 1 := by
    rw [hfirst]
    rfl
  have hkey : some "42" ≠ some "" := by decide
  have hok : first.RunOk marieText.toCallLogText ops :=
    ⟨hkept, hkey, ⟨fun _ => rfl, by rw [hone, hsize]; decide⟩, hkept, trivial⟩
  refine (history_of_run marieText.toCallLogText hsaved (fun _ h => absurd h List.not_mem_nil)
    (Nat.zero_le _) hok).1.trans ?_
  show [marieCall, marieCall].take (historyMaxSize _).toNat = _
  rw [hsize]
  rfl

end Linphone
