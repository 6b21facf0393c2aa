import Linphone.Lib.Conformance
import Linphone.Lib.Scan

/-!
# Composing messages

Who is composing a message in a chat room (`coreapi/chat.c`): the states of the two sides, the
timers that go with them, and the notifications that are sent.

`composing_iff`: each state goes with its timers, and every notification tells the whole refresh
period, exactly as long as no message is received while the remote side is composing and the refresh
period has three digits at most when it is told.
-/

namespace Linphone

open Scan (decimal)

inductive LinphoneIsComposingState
  | idle | active
deriving DecidableEq

/-- The periods in the section `sip`, in seconds. -/
structure ComposingConfig where
  composingIdleTimeout : Int := 15
  composingRefreshTimeout : Int := 60
  composingRemoteRefreshTimeout : Int := 120

/-- The elements of a notification, and the state of the chat room and the configured refresh period
when it is sent. -/
structure IsComposingXml where
  state : String
  refresh : Option (List Char)
  current : LinphoneIsComposingState
  configured : Int
deriving DecidableEq

/-- What a chat room has for composing. A timer that exists is known to the main loop, and has its
timeout in milliseconds. -/
structure ComposingRoom where
  config : ComposingConfig := {}
  isComposing : LinphoneIsComposingState := .idle
  remoteIsComposing : LinphoneIsComposingState := .idle
  composingIdleTimer : Option Int := none
  composingRefreshTimer : Option Int := none
  remoteComposingRefreshTimer : Option Int := none
  sent : List IsComposingXml := []

/-- `snprintf(refresh_str, 4, "%u", refresh_timeout)` -/
def refreshStr (refreshTimeout : Int) : List Char :=
  (decimal (refreshTimeout % 4294967296)).take 3

/-- `belle_sip_source_set_timeout`, on a timer that exists. -/
def setTimeout (timer : Option Int) (timeout : Int) : Option (Option Int) :=
  timer.map fun _ => some timeout

/-- `belle_sip_object_unref` and the assignment of `NULL`, on a timer that exists. -/
def releaseTimer (timer : Option Int) : Option (Option Int) := timer.map fun _ => none

namespace ComposingRoom

/-! ## Sending -/

/-- `linphone_chat_room_create_is_composing_xml` -/
def createIsComposingXml (cr : ComposingRoom) : IsComposingXml where
  state := if cr.isComposing = .active then "active" else "idle"
  refresh :=
    if cr.isComposing = .active then some (refreshStr cr.config.composingRefreshTimeout) else none
  current := cr.isComposing
  configured := cr.config.composingRefreshTimeout

def sendIsComposingNotification (cr : ComposingRoom) : ComposingRoom :=
  { cr with sent := cr.sent ++ [cr.createIsComposingXml] }

def deleteComposingIdleTimer (cr : ComposingRoom) : ComposingRoom :=
  { cr with composingIdleTimer := none }

def deleteComposingRefreshTimer (cr : ComposingRoom) : ComposingRoom :=
  { cr with composingRefreshTimer := none }

def deleteRemoteComposingRefreshTimer (cr : ComposingRoom) : ComposingRoom :=
  { cr with remoteComposingRefreshTimer := none }

def stopComposing (cr : ComposingRoom) : Option ComposingRoom :=
  let cr := { cr with isComposing := .idle }
  let cr := cr.sendIsComposingNotification.deleteComposingRefreshTimer
  (releaseTimer cr.composingIdleTimer).map fun timer => { cr with composingIdleTimer := timer }

def refreshComposing (cr : ComposingRoom) : ComposingRoom := cr.sendIsComposingNotification

/-- The part of `linphone_chat_room_compose` for a room that is idle. -/
def startComposing (cr : ComposingRoom) : ComposingRoom :=
  let cr := { cr with isComposing := .active }
  let cr := cr.sendIsComposingNotification
  { cr with
    composingRefreshTimer := some (cr.config.composingRefreshTimeout * 1000)
    composingIdleTimer :=
      cr.composingIdleTimer.or (some (cr.config.composingIdleTimeout * 1000)) }

def compose (cr : ComposingRoom) : Option ComposingRoom :=
  let cr := if cr.isComposing = .idle then cr.startComposing else cr
  (setTimeout cr.composingIdleTimer (cr.config.composingIdleTimeout * 1000)).map fun timer =>
    { cr with composingIdleTimer := timer }

/-- The end of `_linphone_chat_room_send_message`; a message whose file is to be uploaded first
does not get there. -/
def sendMessage (cr : ComposingRoom) (upload : Bool) : ComposingRoom :=
  if upload then cr
  else
    let cr := if cr.isComposing = .active then { cr with isComposing := .idle } else cr
    cr.deleteComposingIdleTimer.deleteComposingRefreshTimer

/-! ## Receiving -/

/-- `linphone_chat_room_message_received` -/
def messageReceived (cr : ComposingRoom) : ComposingRoom := { cr with remoteIsComposing := .idle }

def remoteRefreshComposingExpired (cr : ComposingRoom) : Option ComposingRoom :=
  (releaseTimer cr.remoteComposingRefreshTimer).map fun timer =>
    { cr with remoteComposingRefreshTimer := timer, remoteIsComposing := .idle }

/-- `process_im_is_composing_notification`, with the texts of the two elements; `atoi` reads the
second one. -/
def processImIsComposingNotification (atoi : String → Int) (cr : ComposingRoom)
    (stateStr refreshStr : Option String) : ComposingRoom :=
  match stateStr with
  | none => cr
  | some state =>
    if state = "active" then
      let refreshDuration :=
        refreshStr.elim cr.config.composingRemoteRefreshTimeout atoi
      { cr with
        remoteComposingRefreshTimer := some (refreshDuration * 1000)
        remoteIsComposing := .active }
    else
      { cr.deleteRemoteComposingRefreshTimer with remoteIsComposing := .idle }

end ComposingRoom

/-- What may happen to a chat room. A timer expires only while it exists. -/
inductive ComposingEvent
  | compose
  | sendMessage (upload : Bool)
  | idleExpired
  | refreshExpired
  | remoteRefreshExpired
  | notificationReceived (stateStr refreshStr : Option String)
  | messageReceived
  | configured (config : ComposingConfig)

def ComposingRoom.step (atoi : String → Int) (cr : ComposingRoom) :
    ComposingEvent → Option ComposingRoom
  | .compose => cr.compose
  | .sendMessage upload => some (cr.sendMessage upload)
  | .idleExpired => if cr.composingIdleTimer.isSome then cr.stopComposing else some cr
  | .refreshExpired =>
    some (if cr.composingRefreshTimer.isSome then cr.refreshComposing else cr)
  | .remoteRefreshExpired =>
    if cr.remoteComposingRefreshTimer.isSome then cr.remoteRefreshComposingExpired else some cr
  | .notificationReceived stateStr refreshStr =>
    some (cr.processImIsComposingNotification atoi stateStr refreshStr)
  | .messageReceived => some cr.messageReceived
  | .configured config => some { cr with config := config }

/-! ## What is expected -/

/-- A notification tells the current state, and the whole period with it if that is active. -/
def IsComposingXml.Whole (xml : IsComposingXml) : Prop :=
  match xml.current with
  | .active => xml.state = "active" ∧ xml.refresh = some (decimal xml.configured)
  | .idle => xml.state = "idle" ∧ xml.refresh = none

/-- The states go with the timers, and the notifications are whole. -/
structure ComposingRoom.Kept (cr : ComposingRoom) : Prop where
  idleTimer : cr.composingIdleTimer.isSome = true ↔ cr.isComposing = .active
  refreshTimer : cr.composingRefreshTimer.isSome = true ↔ cr.isComposing = .active
  remoteTimer : cr.remoteComposingRefreshTimer.isSome = true ↔ cr.remoteIsComposing = .active
  sent : ∀ xml ∈ cr.sent, xml.Whole

/-- Nobody composes on the other side when a message comes from there, and the refresh period has
three digits at most when it is told. -/
def ComposingRoom.Meets (cr : ComposingRoom) : ComposingEvent → Prop
  | .messageReceived => cr.remoteIsComposing = .idle
  | .compose =>
    cr.isComposing = .idle →
      0 ≤ cr.config.composingRefreshTimeout ∧ cr.config.composingRefreshTimeout < 1000
  | .refreshExpired =>
    cr.isComposing = .active →
      0 ≤ cr.config.composingRefreshTimeout ∧ cr.config.composingRefreshTimeout < 1000
  | _ => True

/-! ## The refresh period -/

theorem length_decimal_natCast_le {n : Nat} : (decimal n).length ≤ 3 ↔ n < 1000 := by
  have hn : ¬((n : Int) < 0) := by omega
  rw [decimal, if_neg hn]
  exact Nat.length_toDigits_le_iff (by decide) (by decide)

/-- Three characters are enough for the periods up to 999, and for no other. -/
theorem refreshStr_eq_iff (period : Int) :
    refreshStr period = decimal period ↔ 0 ≤ period ∧ period < 1000 := by
  rw [refreshStr]
  constructor
  · intro h
    have hlen : (decimal period).length ≤ 3 := by
      rw [← h]
      exact List.length_take_le 3 _
    by_cases hneg : period < 0
    · -- a sign is never printed
      have hsign : '-' ∈ (decimal (period % 4294967296)).take 3 := by
        rw [h, decimal, if_pos hneg]
        exact List.mem_cons_self
      have hpos : ¬(period % 4294967296 < 0) := by omega
      rw [decimal, if_neg hpos] at hsign
      exact absurd (Scan.isDigit_toDigits (List.mem_of_mem_take hsign)) (by decide)
    · obtain ⟨n, rfl⟩ := Int.eq_ofNat_of_zero_le (Int.not_lt.mp hneg)
      have := length_decimal_natCast_le.mp hlen
      omega
  · rintro ⟨hpos, hlt⟩
    obtain ⟨n, rfl⟩ := Int.eq_ofNat_of_zero_le hpos
    rw [show (n : Int) % 4294967296 = n by omega]
    exact List.take_of_length_le (length_decimal_natCast_le.mpr (by omega))

namespace ComposingRoom

variable {cr cr' : ComposingRoom}

theorem createIsComposingXml_whole :
    cr.createIsComposingXml.Whole ↔
      (cr.isComposing = .active →
        0 ≤ cr.config.composingRefreshTimeout ∧ cr.config.composingRefreshTimeout < 1000) := by
  rw [← refreshStr_eq_iff]
  cases h : cr.isComposing with
  | idle => simp [IsComposingXml.Whole, createIsComposingXml, h]
  | active => simp [IsComposingXml.Whole, createIsComposingXml, h]

theorem sent_whole_iff (h : ∀ xml ∈ cr.sent, xml.Whole) :
    (∀ xml ∈ cr.sendIsComposingNotification.sent, xml.Whole) ↔ cr.createIsComposingXml.Whole := by
  simp only [sendIsComposingNotification, List.mem_append, List.mem_singleton]
  constructor
  · exact fun hall => hall _ (Or.inr rfl)
  · rintro hlast xml (hxml | rfl)
    · exact h xml hxml
    · exact hlast

/-- Without composing a room starts to, and tells so. -/
theorem Kept.compose_idle (h : cr.Kept) (hidle : cr.isComposing = .idle) :
    ∃ cr', cr.compose = some cr' ∧ (cr'.Kept ↔
      ({ cr with isComposing := .active } : ComposingRoom).createIsComposingXml.Whole) := by
  have hnone : cr.composingIdleTimer = none := by
    rw [← Option.isNone_iff_eq_none, ← Option.not_isSome, Bool.not_eq_true', ← Bool.not_eq_true,
      h.idleTimer, hidle]
    simp
  obtain ⟨config, state, remote, idle, refresh, remoteTimer, sent⟩ := cr
  simp only at hidle hnone
  subst hidle hnone
  refine ⟨_, rfl, fun hkept => ?_, fun hwhole => ⟨?_, ?_, ?_, ?_⟩⟩
  · exact hkept.sent _ (List.mem_append_right _ (List.mem_singleton.mpr rfl))
  · simp [startComposing, sendIsComposingNotification]
  · simp [startComposing, sendIsComposingNotification]
  · exact h.remoteTimer
  · intro xml hxml
    rcases List.mem_append.mp hxml with hxml | hxml
    · exact h.sent xml hxml
    · rw [List.mem_singleton.mp hxml]
      exact hwhole

theorem Kept.compose_active (h : cr.Kept) (hactive : cr.isComposing = .active) :
    ∃ cr', cr.compose = some cr' ∧ cr'.Kept := by
  obtain ⟨timeout, htimer⟩ := Option.isSome_iff_exists.mp (h.idleTimer.mpr hactive)
  rw [compose, if_neg (by simp [hactive]), htimer]
  exact ⟨_, rfl, by simp [hactive], h.refreshTimer, h.remoteTimer, h.sent⟩

theorem Kept.sendMessage_kept (h : cr.Kept) (upload : Bool) : (cr.sendMessage upload).Kept := by
  cases upload with
  | true => exact h
  | false =>
    have hidle : (none : Option Int).isSome = true ↔ LinphoneIsComposingState.idle = .active := by
      decide
    obtain ⟨config, state, remote, idle, refresh, remoteTimer, sent⟩ := cr
    cases state with
    | idle => exact ⟨hidle, hidle, h.remoteTimer, h.sent⟩
    | active => exact ⟨hidle, hidle, h.remoteTimer, h.sent⟩

/-- The idle timer tells that composing has stopped. -/
theorem Kept.stopComposing_kept (h : cr.Kept) (htimer : cr.composingIdleTimer.isSome = true) :
    ∃ cr', cr.stopComposing = some cr' ∧ cr'.Kept := by
  obtain ⟨timeout, htimeout⟩ := Option.isSome_iff_exists.mp htimer
  obtain ⟨config, state, remote, idle, refresh, remoteTimer, sent⟩ := cr
  simp only at htimeout
  subst htimeout
  refine ⟨_, rfl, by simp [deleteComposingRefreshTimer, sendIsComposingNotification],
    by simp [deleteComposingRefreshTimer, sendIsComposingNotification], h.remoteTimer, ?_⟩
  intro xml hxml
  rcases List.mem_append.mp hxml with hxml | hxml
  · exact h.sent xml hxml
  · rw [List.mem_singleton.mp hxml]
    exact createIsComposingXml_whole.mpr fun hactive => absurd hactive (by simp)

theorem Kept.refreshComposing_kept_iff (h : cr.Kept) :
    cr.refreshComposing.Kept ↔ cr.createIsComposingXml.Whole := by
  rw [← sent_whole_iff h.sent]
  exact ⟨fun hkept => hkept.sent, fun hsent => ⟨h.idleTimer, h.refreshTimer, h.remoteTimer, hsent⟩⟩

theorem Kept.remoteRefreshComposingExpired_kept (h : cr.Kept)
    (htimer : cr.remoteComposingRefreshTimer.isSome = true) :
    ∃ cr', cr.remoteRefreshComposingExpired = some cr' ∧ cr'.Kept := by
  obtain ⟨timeout, htimeout⟩ := Option.isSome_iff_exists.mp htimer
  rw [remoteRefreshComposingExpired, htimeout]
  exact ⟨_, rfl, h.idleTimer, h.refreshTimer, by simp, h.sent⟩

theorem Kept.processImIsComposingNotification_kept (h : cr.Kept)
    (atoi : String → Int) (stateStr refreshStr : Option String) :
    (cr.processImIsComposingNotification atoi stateStr refreshStr).Kept := by
  cases stateStr with
  | none => exact h
  | some state =>
    rw [processImIsComposingNotification]
    split
    · exact ⟨h.idleTimer, h.refreshTimer, by simp, h.sent⟩
    · exact ⟨h.idleTimer, h.refreshTimer, by simp [deleteRemoteComposingRefreshTimer], h.sent⟩

/-- A message leaves the timer of a remote side that was composing. -/
theorem Kept.messageReceived_kept_iff (h : cr.Kept) :
    cr.messageReceived.Kept ↔ cr.remoteIsComposing = .idle := by
  constructor
  · intro hkept
    have htimer := hkept.remoteTimer
    cases hremote : cr.remoteIsComposing with
    | idle => rfl
    | active =>
      have hidle : cr.messageReceived.remoteIsComposing = .active :=
        htimer.mp (h.remoteTimer.mpr hremote)
      exact absurd hidle (by simp [messageReceived])
  · intro hidle
    refine ⟨h.idleTimer, h.refreshTimer, ?_, h.sent⟩
    show cr.remoteComposingRefreshTimer.isSome = true ↔ _
    rw [h.remoteTimer, hidle]
    rfl

end ComposingRoom

theorem exists_some_iff {α : Type} {y : α} {P : α → Prop} :
    (∃ z, some y = some z ∧ P z) ↔ P y := by
  simp

/-- **One event keeps the states with their timers exactly under these conditions.** -/
theorem composing_step_iff (atoi : String → Int) {cr : ComposingRoom} (h : cr.Kept)
    (e : ComposingEvent) : (∃ cr', cr.step atoi e = some cr' ∧ cr'.Kept) ↔ cr.Meets e := by
  cases e with
  | compose =>
    cases hstate : cr.isComposing with
    | idle =>
      obtain ⟨cr', hcr', hkept⟩ := h.compose_idle hstate
      rw [ComposingRoom.createIsComposingXml_whole] at hkept
      rw [ComposingRoom.step, hcr', exists_some_iff, hkept]
      exact ⟨fun hp _ => hp rfl, fun hp _ => hp hstate⟩
    | active =>
      refine ⟨fun _ hidle => ?_, fun _ => h.compose_active hstate⟩
      rw [hstate] at hidle
      exact absurd hidle (by simp)
  | sendMessage upload => exact ⟨fun _ => trivial, fun _ => ⟨_, rfl, h.sendMessage_kept upload⟩⟩
  | idleExpired =>
    refine ⟨fun _ => trivial, fun _ => ?_⟩
    rw [ComposingRoom.step]
    split
    · next htimer => exact h.stopComposing_kept htimer
    · exact ⟨cr, rfl, h⟩
  | refreshExpired =>
    rw [ComposingRoom.step, exists_some_iff]
    split
    · rw [h.refreshComposing_kept_iff, ComposingRoom.createIsComposingXml_whole]
      rfl
    · next htimer =>
      refine ⟨fun _ hactive => absurd (h.refreshTimer.mpr hactive) htimer, fun _ => h⟩
  | remoteRefreshExpired =>
    refine ⟨fun _ => trivial, fun _ => ?_⟩
    rw [ComposingRoom.step]
    split
    · next htimer => exact h.remoteRefreshComposingExpired_kept htimer
    · exact ⟨cr, rfl, h⟩
  | notificationReceived stateStr refreshStr =>
    exact ⟨fun _ => trivial,
      fun _ => ⟨_, rfl, h.processImIsComposingNotification_kept atoi stateStr refreshStr⟩⟩
  | messageReceived =>
    rw [ComposingRoom.step, exists_some_iff]
    exact h.messageReceived_kept_iff
  | configured config =>
    exact ⟨fun _ => trivial, fun _ => ⟨_, rfl, h.idleTimer, h.refreshTimer, h.remoteTimer, h.sent⟩⟩

/-- **The states go with their timers, and notifications are whole, exactly as long as every event
meets its condition.** -/
theorem composing_iff (atoi : String → Int) (config : ComposingConfig)
    (events : List ComposingEvent) :
    Conformance.Conforms (ComposingRoom.step atoi) (fun _ _ => ()) (fun cr _ => cr.Kept)
        { config := config } () events ↔
      Conformance.Allowed (ComposingRoom.step atoi) ComposingRoom.Meets { config := config }
        events := by
  refine Conformance.conforms_iff (fun cr _ e h => composing_step_iff atoi h e) ?_
  exact ⟨by simp, by simp, by simp, by simp⟩

/-- A message from a side that was composing leaves its timer. -/
theorem message_leaves_remote_timer :
    ¬Conformance.Conforms (ComposingRoom.step fun _ => 0) (fun _ _ => ()) (fun cr _ => cr.Kept)
      {} () [.notificationReceived (some "active") none, .messageReceived] := by
  intro h
  obtain ⟨cr, hcr, hkept⟩ := h _ List.prefix_rfl
  obtain rfl := Option.some.inj hcr
  exact absurd hkept.remoteTimer (by decide)

end Linphone
