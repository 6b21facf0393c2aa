import Linphone.Chat.Sending

/-!
# Transient messages

`settled_of_run`: as long as files are sent with a server configured, texts are sent out of dialogs
with a request that leaves and without LIME, and nothing is notified about a message that is final,
a message is transient as long as it is not final, its row has its state, and the references that
were taken for it are released once. `encryption_fails` has a message whose failure is notified
while it is being sent.

The invariant is `ChatSystem.Inv`; each careful step changes one message, in a way that is written
out (`sendMessage_careful`, `textDeliveryUpdate_final`).
-/

namespace Linphone

open ChatSystem

/-! ## What is claimed -/

/-- The references of the library on a message. -/
def OutgoingMessage.owned (m : OutgoingMessage) : Nat :=
  if m.sent = false then 1 else if m.state.Final then 0 else 2

structure OutgoingMessage.Settled (s : ChatSystem) (i : Nat) (m : OutgoingMessage) : Prop where
  transient : m.sent = true → (i ∈ s.transientMessages m.room ↔ ¬m.state.Final)
  once : (s.transientMessages m.room).count i ≤ 1
  stored : m.sent = true → s.history m.storageId = some m.state
  released : m.refcnt = m.appRefs + m.owned
  gone : m.gone = true ↔ m.refcnt = 0
  /-- It will be notified. -/
  underway : m.sent = true → ¬m.state.Final → m.underway = true

/-- Every message is settled, and no message that is gone was used. -/
structure ChatSystem.Settled (s : ChatSystem) : Prop where
  messages : ∀ i m, s.messages i = some m → m.Settled s i
  used : s.fault = false

/-! ## Steps that are careful -/

/-- A text that is sent is not ciphered, and leaves in a request of its own. -/
structure SendContext.Careful (context : SendContext) (s : ChatSystem) (m : OutgoingMessage) :
    Prop where
  dialog : context.dialog = false
  built : context.built = true
  sends : context.sends = true
  plain : m.externalBodyUrl = true ∨ s.lime = false

def ChatStep.Careful (s : ChatSystem) : ChatStep → Prop
  | send i context => ∀ m, s.messages i = some m →
      if m.file = true then context.server = true else context.Careful s m
  | uploaded i context => ∀ m, s.messages i = some m → context.Careful s m
  | event i e => ∀ m, s.messages i = some m → m.userPointer = true → m.notified e ≠ none →
      ¬m.state.Final
  | _ => True

instance (context : SendContext) (s : ChatSystem) (m : OutgoingMessage) :
    Decidable (context.Careful s m) :=
  decidable_of_iff (context.dialog = false ∧ context.built = true ∧ context.sends = true ∧
      (m.externalBodyUrl = true ∨ s.lime = false))
    ⟨fun h => ⟨h.1, h.2.1, h.2.2.1, h.2.2.2⟩, fun h => ⟨h.dialog, h.built, h.sends, h.plain⟩⟩

instance (s : ChatSystem) : (step : ChatStep) → Decidable (step.Careful s)
  | .send i _ => inferInstanceAs (Decidable (∀ m ∈ s.messages i, _))
  | .uploaded i _ => inferInstanceAs (Decidable (∀ m ∈ s.messages i, _))
  | .event i e => inferInstanceAs (Decidable (∀ m ∈ s.messages i, m.userPointer = true →
      m.notified e ≠ none → ¬m.state.Final))
  | .create _ _ _ _ | .appRef _ | .appUnref _ | .enableLime _ => inferInstanceAs (Decidable True)

instance (s : ChatSystem) : (step : ChatStep) → Decidable (step.Legal s)
  | .create i _ _ _ => inferInstanceAs (Decidable (s.messages i = none))
  | .send i _ => inferInstanceAs (Decidable (∃ m ∈ s.messages i, _))
  | .uploaded i _ => inferInstanceAs (Decidable (∃ m ∈ s.messages i, _))
  | .appRef i => inferInstanceAs (Decidable (∃ m ∈ s.messages i, _))
  | .appUnref i => inferInstanceAs (Decidable (∃ m ∈ s.messages i, _))
  | .event _ _ | .enableLime _ => inferInstanceAs (Decidable True)

/-- The states that are reached by steps that meet a condition. -/
inductive ChatRun (P : ChatSystem → ChatStep → Prop) : ChatSystem → Prop
  | start (lime : Bool) : ChatRun P { lime := lime }
  | step {s : ChatSystem} {step : ChatStep} (h : ChatRun P s) (hlegal : step.Legal s)
      (hstep : P s step) : ChatRun P (s.after step)

/-! ## The invariant -/

structure OutgoingMessage.Inv (s : ChatSystem) (i : Nat) (m : OutgoingMessage) : Prop where
  listed : (s.transientMessages m.room).count i =
    if m.sent = true ∧ ¬m.state.Final then 1 else 0
  stored : m.sent = true → s.history m.storageId = some m.state
  released : m.refcnt = m.appRefs + m.owned
  gone : m.gone = true ↔ m.refcnt = 0
  underway : m.sent = true → ¬m.state.Final → m.underway = true
  row : m.sent = true → m.storageId ≤ s.lastRowid
  pointer : m.userPointer = true → m.sent = true ∧ m.gone = false
  unsent : m.sent = false → ¬m.state.Final

structure ChatSystem.Inv (s : ChatSystem) : Prop where
  messages : ∀ i m, s.messages i = some m → m.Inv s i
  rows : ∀ i j m m', s.messages i = some m → s.messages j = some m' → m.sent = true →
    m'.sent = true → m.storageId = m'.storageId → i = j
  rooms : ∀ room i, i ∈ s.transientMessages room →
    ∃ m, s.messages i = some m ∧ m.room = room
  used : s.fault = false

section inv

variable {s : ChatSystem} {i : Nat} {m : OutgoingMessage}

theorem ChatSystem.Inv.settled (h : s.Inv) : s.Settled where
  messages := by
    intro i m hm
    have hinv := h.messages i m hm
    refine ⟨fun hsent => ?_, ?_, hinv.stored, hinv.released, hinv.gone, hinv.underway⟩
    · rw [← List.count_pos_iff, hinv.listed]
      by_cases hfinal : m.state.Final
      · simp [hfinal]
      · simp [hsent, hfinal]
    · rw [hinv.listed]
      split
      · exact Nat.le_refl 1
      · exact Nat.zero_le 1
  used := h.used

/-- The state after a step on one message: the message, its room's list and its row. -/
def ChatSystem.put (s : ChatSystem) (i : Nat) (m : OutgoingMessage) (transients : List Nat)
    (lastRowid : Nat) : ChatSystem :=
  { s with
    messages := Function.update s.messages i (some m)
    transientMessages := Function.update s.transientMessages m.room transients
    history := Function.update s.history m.storageId
      (if m.sent = true then some m.state else s.history m.storageId)
    lastRowid := lastRowid }

/-- A step on one message keeps the invariant: the others keep their places, and its row is its
own. -/
theorem inv_put (h : s.Inv) {transients : List Nat} {lastRowid : Nat}
    (hrow : s.lastRowid ≤ lastRowid)
    (hothers : ∀ j, j ≠ i → transients.count j = (s.transientMessages m.room).count j)
    (hroom : ∀ m₀, s.messages i = some m₀ → m₀.room = m.room)
    (hown : m.sent = true → ∀ j m', s.messages j = some m' → m'.sent = true →
      m'.storageId = m.storageId → j = i)
    (hm : m.Inv (s.put i m transients lastRowid) i) : (s.put i m transients lastRowid).Inv where
  messages := by
    intro j m' hj
    by_cases hji : j = i
    · subst hji
      obtain rfl : m = m' := by
        simpa [put] using hj
      exact hm
    · have hold : s.messages j = some m' := by
        simpa [put, hji] using hj
      have hinv := h.messages j m' hold
      refine ⟨?_, fun hsent => ?_, hinv.released, hinv.gone, hinv.underway, fun hsent => ?_,
        hinv.pointer, hinv.unsent⟩
      · rw [← hinv.listed]
        by_cases hsame : m'.room = m.room
        · simp only [put, hsame, Function.update_self]
          exact hothers j hji
        · simp only [put, Function.update_of_ne hsame]
      · rw [← hinv.stored hsent]
        by_cases hid : m'.storageId = m.storageId
        · by_cases hmsent : m.sent = true
          · exact absurd (hown hmsent j m' hold hsent hid) hji
          · simp [put, hid, hmsent]
        · simp only [put, Function.update_of_ne hid]
      · exact Nat.le_trans (hinv.row hsent) hrow
  rows := by
    intro j k m' m'' hj hk hsent hsent' hid
    by_cases hji : j = i
    · by_cases hki : k = i
      · rw [hji, hki]
      · subst hji
        obtain rfl : m = m' := by
          simpa [put] using hj
        exact (hown hsent k m'' (by simpa [put, hki] using hk) hsent' hid.symm).symm
    · by_cases hki : k = i
      · subst hki
        obtain rfl : m = m'' := by
          simpa [put] using hk
        exact hown hsent' j m' (by simpa [put, hji] using hj) hsent hid
      · exact h.rows j k m' m'' (by simpa [put, hji] using hj) (by simpa [put, hki] using hk)
          hsent hsent' hid
  rooms := by
    intro room j hj
    by_cases hji : j = i
    · subst hji
      by_cases hsame : room = m.room
      · exact ⟨m, by simp [put], hsame.symm⟩
      · have hold : j ∈ s.transientMessages room := by
          simpa [put, Function.update_of_ne hsame] using hj
        obtain ⟨m₀, hm₀, hroom₀⟩ := h.rooms room j hold
        exact absurd (hroom₀.symm.trans (hroom m₀ hm₀)) hsame
    · have hold : j ∈ s.transientMessages room := by
        by_cases hsame : room = m.room
        · subst hsame
          have hcount := hothers j hji
          simp only [put, Function.update_self] at hj
          rw [← List.count_pos_iff] at hj ⊢
          omega
        · simpa [put, Function.update_of_ne hsame] using hj
      obtain ⟨m', hm', hroom'⟩ := h.rooms room j hold
      exact ⟨m', by simpa [put, hji] using hm', hroom'⟩
  used := h.used

/-! ## Sending -/

theorem storeTransient_eq (h : s.messages i = some m) (hgone : m.gone = false) :
    s.storeTransient i = s.put i
      { m with storageId := s.lastRowid + 1, sent := true, refcnt := m.refcnt + 1 }
      (s.transientMessages m.room ++ [i]) (s.lastRowid + 1) := by
  unfold storeTransient
  rw [h]
  simp only [if_neg (show ¬m.gone = true by simp [hgone])]
  rw [ref_eq (m := { m with storageId := s.lastRowid + 1, sent := true })
    (by simp [setMessage]) hgone]
  simp [setMessage, put]

variable (s) in
theorem salMessageSend_careful {context : SendContext} (hdialog : context.dialog = false)
    (hbuilt : context.built = true) (hsends : context.sends = true)
    (h : s.messages i = some m) (hgone : m.gone = false) :
    s.salMessageSend i context false = s.setMessage i { m with underway := true } := by
  unfold salMessageSend sendRequest
  rw [if_neg (by simp [hbuilt]), if_pos rfl, if_pos (by simp [hsends, hdialog])]
  exact modify_eq h hgone

/-- What a careful step of sending does. -/
theorem sendMessage_careful {context : SendContext} (h : s.messages i = some m)
    (hgone : m.gone = false) (hrefs : 0 < m.refcnt) (hfile : m.file = true → m.contentType = true)
    (hc : context.Careful s m) :
    s.sendMessage i context = s.put i
      { m with
        userPointer := true, opTerminated := false, authRequests := 0, underway := true
        storageId := s.lastRowid + 1, sent := true, refcnt := m.refcnt + 1 }
      (s.transientMessages m.room ++ [i]) (s.lastRowid + 1) := by
  have hpart : ¬(m.file ∧ m.contentType = false) := by
    rintro ⟨htrue, hfalse⟩
    exact absurd ((hfile htrue).symm.trans hfalse) (by decide)
  let m₁ : OutgoingMessage := { m with
    refcnt := m.refcnt + 1, userPointer := true, opTerminated := false, authRequests := 0 }
  let m₂ : OutgoingMessage := { m₁ with underway := true }
  have hop : (s.ref i).modify i (fun m =>
      { m with userPointer := true, opTerminated := false, authRequests := 0 }) =
        s.setMessage i m₁ := by
    rw [ref_eq h hgone, modify_eq (m := { m with refcnt := m.refcnt + 1 })
      messages_setMessage hgone,
      setMessage_setMessage]
  have hsent : (if m.externalBodyUrl = true then (s.setMessage i m₁).salMessageSend i context false
      else if (s.setMessage i m₁).lime = true then
        ((s.setMessage i m₁).ref i).salMessageSend i context true
      else (s.setMessage i m₁).salMessageSend i context false) = s.setMessage i m₂ := by
    have hone := salMessageSend_careful (s.setMessage i m₁) (m := m₁) hc.dialog hc.built hc.sends
      messages_setMessage hgone
    rw [setMessage_setMessage] at hone
    rcases hc.plain with hexternal | hlime
    · rw [if_pos hexternal, hone]
    · have hoff : (s.setMessage i m₁).lime = false := hlime
      simp only [hone, hoff, Bool.false_eq_true, if_false]
      exact ite_self _
  unfold sendMessage
  rw [h]
  simp only [if_neg hpart, hc.dialog, Bool.false_eq_true, if_false, hop, hsent]
  rw [storeTransient_eq (m := m₂) messages_setMessage hgone]
  have hput : ((s.setMessage i m₂).put i
      { m₂ with storageId := s.lastRowid + 1, sent := true, refcnt := m₂.refcnt + 1 }
      ((s.setMessage i m₂).transientMessages m₂.room ++ [i]) (s.lastRowid + 1)).messages i = some
      { m₂ with storageId := s.lastRowid + 1, sent := true, refcnt := m₂.refcnt + 1 } := by
    simp [put]
  change (((s.setMessage i m₂).put i
      { m₂ with storageId := s.lastRowid + 1, sent := true, refcnt := m₂.refcnt + 1 }
      ((s.setMessage i m₂).transientMessages m₂.room ++ [i]) (s.lastRowid + 1)).unref i) = _
  rw [unref_eq hput hgone (by change 1 < m.refcnt + 1 + 1; omega)]
  simp [setMessage, put, m₂, m₁]

theorem sendMessage_upload {context : SendContext} (h : s.messages i = some m)
    (hgone : m.gone = false) (hrefs : 0 < m.refcnt) (hfile : m.file = true)
    (hcontent : m.contentType = false) (hserver : context.server = true) :
    s.sendMessage i context = s := by
  unfold sendMessage
  rw [h]
  simp only [hfile, hcontent, and_self, if_true, hserver]
  exact unref_ref h hgone hrefs

/-! ## Notifications -/

theorem toLinphone_inProgress_iff (status : SalTextDeliveryStatus) :
    status.toLinphone.Final ↔ status ≠ .inProgress := by
  cases status with
  | inProgress => decide
  | done => decide
  | failed => decide

/-- A message that is still to be delivered. -/
theorem textDeliveryUpdate_inProgress (h : s.messages i = some m) (hgone : m.gone = false)
    (hpointer : m.userPointer = true) (hsent : m.sent = true)
    (hstored : s.history m.storageId = some m.state) :
    s.textDeliveryUpdate i .inProgress = s.put i { m with state := .inProgress }
      (s.transientMessages m.room) s.lastRowid := by
  let m' : OutgoingMessage := { m with state := .inProgress }
  have hupdate : (s.setMessage i m').updateState i m' = (s.setMessage i m').storeState m' := by
    unfold updateState
    exact if_neg (show ¬LinphoneChatMessageState.inProgress.Final by decide)
  have hthere : ((s.setMessage i m').storeState m').messages i = some m' := messages_setMessage
  have hown : ¬m.userPointer = false := by
    simp [hpointer]
  unfold textDeliveryUpdate
  rw [h]
  simp only [if_neg hown, if_true]
  change ((s.setMessage i m').updateState i m').modify i id = _
  rw [hupdate, modify_eq (f := id) hthere hgone]
  simp [setMessage, storeState, put, hsent, hstored, m']

/-- The message after its last notification: the two references are released. -/
def OutgoingMessage.finish (m : OutgoingMessage) (status : SalTextDeliveryStatus) :
    OutgoingMessage :=
  if m.appRefs = 0 then
    { m with
      state := status.toLinphone, underway := false, refcnt := 0, gone := true
      userPointer := false, opTerminated := true }
  else { m with state := status.toLinphone, underway := false, refcnt := m.appRefs }

/-- The last notification of a message that is not final. -/
theorem textDeliveryUpdate_final {status : SalTextDeliveryStatus} (hstatus : status ≠ .inProgress)
    (h : s.messages i = some m) (hgone : m.gone = false) (hpointer : m.userPointer = true)
    (hsent : m.sent = true) (hstored : s.history m.storageId = some m.state)
    (hrefs : m.refcnt = m.appRefs + 2) :
    s.textDeliveryUpdate i status = s.put i (m.finish status)
      ((s.transientMessages m.room).erase i) s.lastRowid := by
  let m₁ : OutgoingMessage := { m with state := status.toLinphone, underway := false }
  let m₂ : OutgoingMessage := { m₁ with refcnt := m.refcnt - 1 }
  let s₁ : ChatSystem := { (s.setMessage i m₁).storeState m₁ with
    transientMessages := Function.update s.transientMessages m.room
      ((s.transientMessages m.room).erase i) }
  have hfinal : m₁.state.Final := (toLinphone_inProgress_iff status).mpr hstatus
  have hthere : s₁.messages i = some m₁ := messages_setMessage
  have hupdate : (s.setMessage i m₁).updateState i m₁ = s₁.setMessage i m₂ := by
    unfold updateState
    rw [if_pos hfinal]
    exact unref_eq hthere hgone (by change 1 < m.refcnt; omega)
  have huse : (s₁.setMessage i m₂).modify i id = s₁.setMessage i m₂ := by
    rw [modify_eq (f := id) (m := m₂) messages_setMessage hgone]
    simp
  have hrun : s.textDeliveryUpdate i status = (s₁.setMessage i m₂).unref i := by
    have hown : ¬m.userPointer = false := by
      simp [hpointer]
    unfold textDeliveryUpdate
    rw [h]
    simp only [if_neg hown, if_neg hstatus]
    change ((((s.setMessage i m₁).updateState i m₁).modify i id).unref i) = _
    rw [hupdate, huse]
  rw [hrun]
  by_cases hlast : m.appRefs = 0
  · rw [unref_last (m := m₂) messages_setMessage hgone (by change m.refcnt - 1 ≤ 1; omega),
      setMessage_setMessage]
    unfold OutgoingMessage.finish
    simp [setMessage, storeState, put, hsent, hstored, hlast, s₁, m₁, m₂]
  · have hrest : m.refcnt - 1 - 1 = m.appRefs := by
      omega
    rw [unref_eq (m := m₂) messages_setMessage hgone (by change 1 < m.refcnt - 1; omega),
      setMessage_setMessage]
    unfold OutgoingMessage.finish
    simp [setMessage, storeState, put, hsent, hstored, hlast, hrest, s₁, m₁, m₂]

/-! ## Each step -/

theorem setMessage_eq_put (h : m.sent = true → s.history m.storageId = some m.state) :
    s.setMessage i m = s.put i m (s.transientMessages m.room) s.lastRowid := by
  have hhistory : (if m.sent = true then some m.state else s.history m.storageId) =
      s.history m.storageId := by
    by_cases hsent : m.sent = true
    · rw [if_pos hsent, h hsent]
    · rw [if_neg hsent]
  simp only [setMessage, put, hhistory, Function.update_eq_self]

/-- The part of a message that the others and the lists do not depend on has changed. -/
theorem inv_setMessage (h : s.Inv) {m₀ : OutgoingMessage} (hm₀ : s.messages i = some m₀)
    (hroom : m.room = m₀.room) (hsent : m.sent = m₀.sent) (hid : m.storageId = m₀.storageId)
    (hm : m.Inv s i) : (s.setMessage i m).Inv := by
  have heq := setMessage_eq_put (s := s) (i := i) hm.stored
  rw [heq]
  refine inv_put h (Nat.le_refl _) (fun _ _ => rfl) ?_ ?_ ?_
  · intro m₁ hm₁
    rw [hroom, Option.some.inj (hm₀.symm.trans hm₁)]
  · intro hmsent j m' hj hjsent hjid
    exact (h.rows i j m₀ m' hm₀ hj (hsent ▸ hmsent) hjsent (hid ▸ hjid.symm)).symm
  · rw [← heq]
    exact ⟨hm.listed, hm.stored, hm.released, hm.gone, hm.underway, hm.row, hm.pointer, hm.unsent⟩

theorem inv_create (h : s.Inv) (hnew : s.messages i = none) (room : Nat) (file external : Bool) :
    (s.setMessage i { room := room, file := file, externalBodyUrl := external }).Inv := by
  let m : OutgoingMessage := { room := room, file := file, externalBodyUrl := external }
  have hunsent : ¬m.sent = true := Bool.false_ne_true
  have heq : s.setMessage i m = s.put i m (s.transientMessages m.room) s.lastRowid :=
    setMessage_eq_put fun hsent => absurd hsent hunsent
  have hlist : (s.transientMessages room).count i = 0 := by
    rw [List.count_eq_zero]
    intro hmem
    obtain ⟨m', hm', -⟩ := h.rooms room i hmem
    exact absurd (hnew.symm.trans hm') (by simp)
  change (s.setMessage i m).Inv
  rw [heq]
  refine inv_put h (Nat.le_refl _) (fun _ _ => rfl) ?_ ?_ ?_
  · intro m₀ hm₀
    exact absurd (hnew.symm.trans hm₀) (by simp)
  · intro hsent
    exact absurd hsent hunsent
  · rw [← heq]
    have hidle : ¬LinphoneChatMessageState.idle.Final := by decide
    have hgone : m.gone = true ↔ m.refcnt = 0 := by
      simp [m]
    exact ⟨hlist, fun hsent => absurd hsent hunsent, rfl, hgone, fun hsent => absurd hsent hunsent,
      fun hsent => absurd hsent hunsent, fun hpointer => absurd hpointer Bool.false_ne_true,
      fun _ => hidle⟩

theorem OutgoingMessage.Inv.refcnt_unsent (h : m.Inv s i) (hsent : m.sent = false) :
    m.refcnt = m.appRefs + 1 ∧ m.gone = false := by
  have hrefs := h.released
  rw [OutgoingMessage.owned, if_pos hsent] at hrefs
  refine ⟨hrefs, ?_⟩
  cases hgone : m.gone with
  | false => rfl
  | true =>
      have hzero := h.gone.mp hgone
      omega

theorem OutgoingMessage.Inv.refcnt_sent (h : m.Inv s i) (hsent : m.sent = true)
    (hfinal : ¬m.state.Final) : m.refcnt = m.appRefs + 2 := by
  have hrefs := h.released
  rw [OutgoingMessage.owned, if_neg (by simp [hsent]), if_neg hfinal] at hrefs
  exact hrefs

theorem inv_sendMessage (h : s.Inv) {context : SendContext} (hm : s.messages i = some m)
    (hsent : m.sent = false) (hfile : m.file = true → m.contentType = true)
    (hc : context.Careful s m) : (s.sendMessage i context).Inv := by
  have hinv := h.messages i m hm
  obtain ⟨hrefs, hgone⟩ := hinv.refcnt_unsent hsent
  have hfinal := hinv.unsent hsent
  have hlist : (s.transientMessages m.room).count i = 0 := by
    have hlisted := hinv.listed
    rw [if_neg (by simp [hsent])] at hlisted
    exact hlisted
  rw [sendMessage_careful hm hgone (by omega) hfile hc]
  refine inv_put h (Nat.le_succ _) ?_ ?_ ?_ ?_
  · intro j hj
    simp [List.count_append, Ne.symm hj]
  · intro m₀ hm₀
    rw [Option.some.inj (hm₀.symm.trans hm)]
  · intro _ j m' hj hjsent hid
    have hle := (h.messages j m' hj).row hjsent
    have hnew : m'.storageId = s.lastRowid + 1 := hid
    omega
  · refine ⟨?_, fun _ => ?_, ?_, ?_, fun _ _ => rfl, fun _ => Nat.le_refl _,
      fun _ => ⟨rfl, hgone⟩, fun hfalse => hfinal⟩
    · simp [put, hlist, hfinal]
    · simp [put]
    · simp [OutgoingMessage.owned, hfinal, hrefs]
    · simp [hgone]

theorem inv_uploaded (h : s.Inv) {context : SendContext} (hm : s.messages i = some m)
    (hsent : m.sent = false) (hc : context.Careful s m) : (s.uploaded i context).Inv := by
  have hinv := h.messages i m hm
  obtain ⟨hrefs, hgone⟩ := hinv.refcnt_unsent hsent
  let m' : OutgoingMessage := { m with contentType := true, state := .fileTransferDone }
  have hdone : ¬LinphoneChatMessageState.fileTransferDone.Final := by decide
  have hnot : ¬m.sent = true := by
    simp [hsent]
  have hm' : (s.setMessage i m').Inv := by
    refine inv_setMessage h hm rfl rfl rfl ?_
    refine ⟨?_, fun htrue => absurd htrue hnot, ?_, hinv.gone, fun htrue => absurd htrue hnot,
      fun htrue => absurd htrue hnot, hinv.pointer, fun _ => hdone⟩
    · have hlisted := hinv.listed
      rw [if_neg (by simp [hsent])] at hlisted
      rw [if_neg (by simp [m', hsent])]
      exact hlisted
    · simp [OutgoingMessage.owned, m', hsent, hrefs]
  unfold uploaded
  rw [modify_eq hm hgone]
  exact inv_sendMessage (m := m') hm' messages_setMessage hsent (fun _ => rfl)
    ⟨hc.dialog, hc.built, hc.sends, hc.plain⟩

/-- What a notification finds of a message that is not final. -/
structure OutgoingMessage.Awaits (s : ChatSystem) (i : Nat) (m : OutgoingMessage) : Prop where
  mem : s.messages i = some m
  pointer : m.userPointer = true
  notFinal : ¬m.state.Final
  inv : m.Inv s i
  own : ∀ j m', s.messages j = some m' → m'.sent = true → m'.storageId = m.storageId → j = i

theorem OutgoingMessage.Awaits.sent (h : m.Awaits s i) : m.sent = true :=
  (h.inv.pointer h.pointer).1

theorem OutgoingMessage.Awaits.room (h : m.Awaits s i) (m₀ : OutgoingMessage)
    (hm₀ : s.messages i = some m₀) : m₀.room = m.room := by
  rw [Option.some.inj (hm₀.symm.trans h.mem)]

theorem OutgoingMessage.Awaits.listed (h : m.Awaits s i) :
    (s.transientMessages m.room).count i = 1 := by
  rw [h.inv.listed, if_pos ⟨h.sent, h.notFinal⟩]

theorem awaits_of_pointer (h : s.Inv) (hm : s.messages i = some m)
    (hpointer : m.userPointer = true) (hfinal : ¬m.state.Final) : m.Awaits s i where
  mem := hm
  pointer := hpointer
  notFinal := hfinal
  inv := h.messages i m hm
  own := fun j m' hj hsent hid =>
    h.rows j i m' m hj hm hsent ((h.messages i m hm).pointer hpointer).1 hid

theorem inv_notifyInProgress (h : s.Inv) (hm : m.Awaits s i) :
    (s.textDeliveryUpdate i .inProgress).Inv := by
  have hsent := hm.sent
  have hrefs := hm.inv.refcnt_sent hsent hm.notFinal
  have hgoes : ¬LinphoneChatMessageState.inProgress.Final := by decide
  rw [textDeliveryUpdate_inProgress hm.mem (hm.inv.pointer hm.pointer).2 hm.pointer hsent
    (hm.inv.stored hsent)]
  refine inv_put h (Nat.le_refl _) (fun _ _ => rfl) hm.room (fun _ => hm.own) ?_
  refine ⟨?_, fun _ => ?_, ?_, hm.inv.gone, fun _ _ => hm.inv.underway hsent hm.notFinal,
    hm.inv.row, hm.inv.pointer, fun _ => hgoes⟩
  · simp [put, hm.listed, hsent, hgoes]
  · simp [put, hsent]
  · simp [OutgoingMessage.owned, hsent, hgoes, hrefs]

theorem outgoingMessage_finish_spec (m : OutgoingMessage) (status : SalTextDeliveryStatus) :
    (m.finish status).state = status.toLinphone ∧ (m.finish status).sent = m.sent ∧
      (m.finish status).room = m.room ∧ (m.finish status).storageId = m.storageId ∧
      (m.finish status).refcnt = m.appRefs ∧ (m.finish status).appRefs = m.appRefs := by
  unfold OutgoingMessage.finish
  by_cases hlast : m.appRefs = 0
  · simp [hlast]
  · simp [hlast]

theorem inv_notifyFinal (h : s.Inv) {status : SalTextDeliveryStatus}
    (hstatus : status ≠ .inProgress)
    (hm : m.Awaits s i) : (s.textDeliveryUpdate i status).Inv := by
  have hsent := hm.sent
  have hgone := (hm.inv.pointer hm.pointer).2
  have hover := (toLinphone_inProgress_iff status).mpr hstatus
  obtain ⟨hstate, hsent', hroom, hid, hrefs, happ⟩ := outgoingMessage_finish_spec m status
  rw [textDeliveryUpdate_final hstatus hm.mem hgone hm.pointer hsent (hm.inv.stored hsent)
    (hm.inv.refcnt_sent hsent hm.notFinal)]
  refine inv_put h (Nat.le_refl _) (fun j hj => ?_) (fun m₀ hm₀ => ?_) (fun _ => ?_) ?_
  · rw [hroom]
    exact List.count_erase_of_ne hj
  · rw [hroom]
    exact hm.room m₀ hm₀
  · rw [hid]
    exact hm.own
  · refine ⟨?_, fun _ => ?_, ?_, ?_, fun _ hnot => ?_, fun _ => ?_, fun hpointer => ?_,
      fun hfalse => ?_⟩
    · simp [put, hroom, List.count_erase_self, hm.listed, hstate, hover]
    · simp [put, hsent', hsent]
    · simp [OutgoingMessage.owned, hsent', hsent, hstate, hover, hrefs, happ]
    · rw [hrefs]
      unfold OutgoingMessage.finish
      by_cases hlast : m.appRefs = 0
      · simp [hlast]
      · simp [hlast, hgone]
    · exact absurd (hstate ▸ hover) hnot
    · rw [hid]
      exact hm.inv.row hsent
    · refine ⟨hsent'.trans hsent, ?_⟩
      unfold OutgoingMessage.finish at hpointer ⊢
      by_cases hlast : m.appRefs = 0
      · rw [if_pos hlast] at hpointer
        exact absurd hpointer Bool.false_ne_true
      · rw [if_neg hlast]
        exact hgone
    · exact absurd (hsent'.symm.trans hfalse) (by simp [hsent])

/-- A notification about a message that is not final. -/
theorem inv_textDeliveryUpdate (h : s.Inv) {status : SalTextDeliveryStatus}
    (hcareful : ∀ m, s.messages i = some m → m.userPointer = true → ¬m.state.Final) :
    (s.textDeliveryUpdate i status).Inv := by
  cases hm : s.messages i with
  | none =>
      have hnone : s.textDeliveryUpdate i status = s := by
        unfold textDeliveryUpdate
        rw [hm]
      rw [hnone]
      exact h
  | some m =>
      by_cases hpointer : m.userPointer = true
      · have hawaits := awaits_of_pointer h hm hpointer (hcareful m hm hpointer)
        by_cases hstatus : status = .inProgress
        · rw [hstatus]
          exact inv_notifyInProgress h hawaits
        · exact inv_notifyFinal h hstatus hawaits
      · have hignored : s.textDeliveryUpdate i status = s := by
          unfold textDeliveryUpdate
          rw [hm]
          exact if_pos (by simpa using hpointer)
        rw [hignored]
        exact h

theorem inv_setOp (h : s.Inv) {m' : OutgoingMessage} (hm : s.messages i = some m)
    (hop : m' = { m with opTerminated := m'.opTerminated, authRequests := m'.authRequests }) :
    (s.setMessage i m').Inv := by
  have hinv := h.messages i m hm
  rw [hop]
  refine inv_setMessage h hm rfl rfl rfl ?_
  exact ⟨hinv.listed, hinv.stored, hinv.released, hinv.gone, hinv.underway, hinv.row,
    hinv.pointer, hinv.unsent⟩

theorem inv_processError (h : s.Inv)
    (hcareful : ∀ m, s.messages i = some m → m.userPointer = true → ¬m.state.Final) :
    (s.processError i).Inv := by
  have hupdate : (s.textDeliveryUpdate i .failed).Inv := inv_textDeliveryUpdate h hcareful
  unfold processError
  cases hm : (s.textDeliveryUpdate i .failed).messages i with
  | none => simpa only [hm] using hupdate
  | some m =>
      simp only [hm]
      exact inv_setOp hupdate hm rfl

theorem inv_event (h : s.Inv) {e : TextEvent} (hcareful : (ChatStep.event i e).Careful s) :
    (s.event i e).Inv := by
  unfold event
  cases hm : s.messages i with
  | none => exact h
  | some m =>
      have hnotified := hcareful m hm
      cases e with
      | response code =>
          by_cases hterminated : m.opTerminated = true
          · simp only [hterminated, if_true]
            exact h
          · let m' : OutgoingMessage :=
              { m with authRequests := authRequestsAfter m.authRequests code }
            have hset : (s.setMessage i m').Inv := inv_setOp h hm rfl
            simp only [if_neg hterminated]
            cases hstatus : m.notified (.response code) with
            | none => exact hset
            | some status =>
                refine inv_textDeliveryUpdate hset fun m'' hm'' hpointer => ?_
                obtain rfl : m' = m'' := Option.some.inj (messages_setMessage.symm.trans hm'')
                exact hnotified hpointer (by simp [hstatus])
      | ioError | timeout =>
          refine inv_processError h fun m'' hm'' hpointer => ?_
          obtain rfl : m = m'' := Option.some.inj (hm.symm.trans hm'')
          exact hnotified hpointer (Option.some_ne_none _)

theorem inv_appRef (h : s.Inv) (hm : s.messages i = some m) (hgone : m.gone = false) :
    (s.after (.appRef i)).Inv := by
  have hinv := h.messages i m hm
  let m' : OutgoingMessage := { m with refcnt := m.refcnt + 1, appRefs := m.appRefs + 1 }
  have hafter : s.after (.appRef i) = s.setMessage i m' := by
    unfold ChatSystem.after
    simp only
    rw [ref_eq hm hgone, modify_eq (m := { m with refcnt := m.refcnt + 1 })
      messages_setMessage hgone,
      setMessage_setMessage]
  rw [hafter]
  refine inv_setMessage h hm rfl rfl rfl ?_
  refine ⟨hinv.listed, hinv.stored, ?_, ?_, hinv.underway, hinv.row, hinv.pointer, hinv.unsent⟩
  · have hrefs := hinv.released
    change m.refcnt + 1 = m.appRefs + 1 + m.owned
    omega
  · simp [m', hgone]

theorem inv_appUnref (h : s.Inv) (hm : s.messages i = some m) (happ : 0 < m.appRefs) :
    (s.after (.appUnref i)).Inv := by
  have hinv := h.messages i m hm
  have hrefs := hinv.released
  have hgone : m.gone = false := by
    cases hgone : m.gone with
    | false => rfl
    | true =>
        have hzero := hinv.gone.mp hgone
        omega
  let m' : OutgoingMessage := { m with appRefs := m.appRefs - 1 }
  have hafter : s.after (.appUnref i) = (s.setMessage i m').unref i := by
    unfold ChatSystem.after
    simp only
    rw [modify_eq hm hgone]
  rw [hafter]
  by_cases hlast : m.refcnt ≤ 1
  · have howned : m.owned = 0 := by
      omega
    have hover : m.sent = true ∧ m.state.Final := by
      unfold OutgoingMessage.owned at howned
      by_cases hsent : m.sent = false
      · simp [hsent] at howned
      · by_cases hfinal : m.state.Final
        · exact ⟨by simpa using hsent, hfinal⟩
        · simp [hsent, hfinal] at howned
    rw [unref_last (m := m') messages_setMessage hgone hlast, setMessage_setMessage]
    refine inv_setMessage h hm rfl rfl rfl ?_
    refine ⟨hinv.listed, hinv.stored, ?_, ?_, fun _ hnot => absurd hover.2 hnot, hinv.row,
      fun hfalse => absurd hfalse Bool.false_ne_true, hinv.unsent⟩
    · change 0 = m.appRefs - 1 + m.owned
      omega
    · simp
  · rw [unref_eq (m := m') messages_setMessage hgone (by change 1 < m.refcnt; omega),
      setMessage_setMessage]
    refine inv_setMessage h hm rfl rfl rfl ?_
    refine ⟨hinv.listed, hinv.stored, ?_, ?_, hinv.underway, hinv.row, hinv.pointer, hinv.unsent⟩
    · change m.refcnt - 1 = m.appRefs - 1 + m.owned
      omega
    · have hpos : ¬m.refcnt - 1 = 0 := by
        omega
      simp [m', hgone, hpos]

/-! ## Runs -/

theorem inv_chatStep (h : s.Inv) {step : ChatStep} (hlegal : step.Legal s)
    (hcareful : step.Careful s) : (s.after step).Inv := by
  cases step with
  | create i room file external => exact inv_create h hlegal room file external
  | send i context =>
      obtain ⟨m, hm, hsent, hcontent⟩ := hlegal
      have hinv := h.messages i m hm
      obtain ⟨hrefs, hgone⟩ := hinv.refcnt_unsent hsent
      have hc := hcareful m hm
      by_cases hfile : m.file = true
      · rw [if_pos hfile] at hc
        have heq : s.after (.send i context) = s :=
          sendMessage_upload hm hgone (by omega) hfile hcontent hc
        rw [heq]
        exact h
      · rw [if_neg hfile] at hc
        exact inv_sendMessage h hm hsent (fun htrue => absurd htrue hfile) hc
  | uploaded i context =>
      obtain ⟨m, hm, hsent, -, -⟩ := hlegal
      exact inv_uploaded h hm hsent (hcareful m hm)
  | event i e => exact inv_event h hcareful
  | appRef i =>
      obtain ⟨m, hm, hgone⟩ := hlegal
      exact inv_appRef h hm hgone
  | appUnref i =>
      obtain ⟨m, hm, happ⟩ := hlegal
      exact inv_appUnref h hm happ
  | enableLime enabled =>
      refine ⟨fun i m hm => ?_, h.rows, h.rooms, h.used⟩
      have hinv := h.messages i m hm
      exact ⟨hinv.listed, hinv.stored, hinv.released, hinv.gone, hinv.underway, hinv.row,
        hinv.pointer, hinv.unsent⟩

theorem inv_of_chatRun (h : ChatRun (fun s step => step.Careful s) s) : s.Inv := by
  induction h with
  | start lime =>
      refine ⟨fun i m hm => ?_, fun i j m m' hm => ?_, fun room i hi => ?_, rfl⟩
      · exact absurd hm (by simp)
      · exact absurd hm (by simp)
      · exact absurd hi (by simp)
  | step _ hlegal hcareful ih => exact inv_chatStep ih hlegal hcareful

/-- **In every run whose steps are careful, every message is settled.** -/
theorem settled_of_chatRun (h : ChatRun (fun s step => step.Careful s) s) : s.Settled :=
  (inv_of_chatRun h).settled

end inv

/-- A message that is challenged, in progress, and delivered. -/
theorem settled_delivered : ChatSystem.Settled (((((({ lime := false } : ChatSystem).after
    (.create 0 0 false false)).after (.send 0 {})).after (.event 0 (.response 407))).after
      (.event 0 (.response 100))).after (.event 0 (.response 200))) :=
  settled_of_chatRun (.step (.step (.step (.step (.step (.start false) (by decide) (by decide))
    (by decide) (by decide)) (by decide) (by decide)) (by decide) (by decide)) (by decide)
      (by decide))

/-- The failure of a message that cannot be encrypted is notified before the message becomes
transient: it is final, and stays in the list. -/
theorem encryption_fails : ¬∀ s : ChatSystem, ChatRun (fun _ _ => True) s → s.Settled := by
  intro h
  have hrun : ChatRun (fun _ _ => True) ((({ lime := true } : ChatSystem).after
      (.create 0 0 false false)).after (.send 0 { opens := false })) :=
    .step (.step (.start true) (by decide) trivial) (by decide) trivial
  have hsettled := h _ hrun
  have hlisted := (hsettled.messages 0 _ rfl).transient rfl
  exact hlisted.mp (by decide) (by decide)

end Linphone
