import Linphone.Chat.History

/-!
# Sending messages

`_linphone_chat_room_send_message` (`coreapi/chat.c`) with `sal_message_send`
(`bellesip_sal/sal_op_message.c`), and `text_delivery_update` (`coreapi/callbacks.c`) with the
events of the request that lead to it. A message counts its references; what the library does to a
message that is gone is a fault.
-/

namespace Linphone

/-! ## Data -/

structure OutgoingMessage where
  room : Nat
  state : LinphoneChatMessageState := .idle
  storageId : Nat := 0
  refcnt : Nat := 1
  /-- The references that the application has taken. -/
  appRefs : Nat := 0
  /-- The last reference was released. -/
  gone : Bool := false
  /-- It has a file, `file_transfer_information`. -/
  file : Bool := false
  /-- It has a `content_type`: the file was uploaded. -/
  contentType : Bool := false
  externalBodyUrl : Bool := false
  /-- The user pointer of its own op. -/
  userPointer : Bool := false
  /-- Its op is terminated. -/
  opTerminated : Bool := false
  authRequests : Nat := 0
  /-- A request was sent, and there was no final notification. -/
  underway : Bool := false
  /-- The message was handed to its op. -/
  sent : Bool := false
deriving DecidableEq

structure ChatSystem where
  messages : Nat → Option OutgoingMessage := fun _ => none
  /-- The transient messages of each room. -/
  transientMessages : Nat → List Nat := fun _ => []
  /-- The status in each row of the history. -/
  history : Nat → Option LinphoneChatMessageState := fun _ => none
  lastRowid : Nat := 0
  lime : Bool := false
  fault : Bool := false

/-- What `sal_message_send` finds. -/
structure SalSend where
  /-- The request is built. -/
  built : Bool := true
  /-- The ZRTP cache opens, and loads. -/
  opens : Bool := true
  loads : Bool := true
  /-- The message is encrypted. -/
  encrypts : Bool := true
  /-- The request is sent. -/
  sends : Bool := true

/-- What `_linphone_chat_room_send_message` finds. -/
structure SendContext extends SalSend where
  /-- A file transfer server is configured. -/
  server : Bool := true
  /-- The message goes through the dialog of a call. -/
  dialog : Bool := false

inductive SalTextDeliveryStatus
  | inProgress | done | failed
deriving DecidableEq

/-- What happens to the request of a message. -/
inductive TextEvent
  | response (code : Nat)
  | ioError
  | timeout
deriving DecidableEq

/-- `Delivered` or `NotDelivered`. -/
def LinphoneChatMessageState.Final (state : LinphoneChatMessageState) : Prop :=
  state = .delivered ∨ state = .notDelivered

instance (state : LinphoneChatMessageState) : Decidable state.Final :=
  inferInstanceAs (Decidable (_ ∨ _))

/-- `chatStatusSal2Linphone` -/
def SalTextDeliveryStatus.toLinphone : SalTextDeliveryStatus → LinphoneChatMessageState
  | inProgress => .inProgress
  | done => .delivered
  | failed => .notDelivered

/-- The status that a response is notified with, after `process_response_event` of `sal_impl.c`; a
challenge is answered twice. -/
def OutgoingMessage.notified (m : OutgoingMessage) : TextEvent → Option SalTextDeliveryStatus
  | .response code =>
      if m.opTerminated then none
      else if (code = 401 ∨ code = 407) ∧ m.authRequests + 1 ≤ 2 then none
      else if 100 ≤ code ∧ code < 200 then some .inProgress
      else if 200 ≤ code ∧ code < 300 then some .done
      else some .failed
  | .ioError | .timeout => some .failed

/-- The authentication attempts after a response. -/
def authRequestsAfter (authRequests code : Nat) : Nat :=
  if code = 401 ∨ code = 407 then authRequests + 1
  else if 180 ≤ code ∧ code ≠ 403 then 0
  else authRequests

namespace ChatSystem

variable (s : ChatSystem) (i : Nat)

def setMessage (m : OutgoingMessage) : ChatSystem :=
  { s with messages := Function.update s.messages i (some m) }

/-- Something is done to a message that is there. -/
def modify (f : OutgoingMessage → OutgoingMessage) : ChatSystem :=
  match s.messages i with
  | some m => if m.gone then { s with fault := true } else s.setMessage i (f m)
  | none => { s with fault := true }

/-! ## References -/

def ref : ChatSystem := s.modify i fun m => { m with refcnt := m.refcnt + 1 }

/-- `linphone_chat_message_unref`: the op of a message that goes is released. -/
def unref : ChatSystem :=
  s.modify i fun m =>
    if m.refcnt ≤ 1 then
      { m with refcnt := 0, gone := true, userPointer := false, opTerminated := true }
    else { m with refcnt := m.refcnt - 1 }

/-! ## Notifications -/

/-- `linphone_chat_message_store_state` -/
def storeState (m : OutgoingMessage) : ChatSystem :=
  { s with
    history := Function.update s.history m.storageId
      ((s.history m.storageId).map fun _ => m.state) }

/-- `linphone_chat_message_update_state`, once the state has changed. -/
def updateState (m : OutgoingMessage) : ChatSystem :=
  let s := s.storeState m
  if m.state.Final then
    { s with
      transientMessages := Function.update s.transientMessages m.room
        ((s.transientMessages m.room).erase i) }.unref i
  else s

/-- `text_delivery_update` -/
def textDeliveryUpdate (status : SalTextDeliveryStatus) : ChatSystem :=
  match s.messages i with
  | none => s
  | some m =>
      if m.userPointer = false then s
      else
        let m := { m with
          state := status.toLinphone
          underway := if status = .inProgress then m.underway else false }
        -- the callbacks of the message are looked up between the two releases
        let s := (((s.setMessage i m).updateState i m).modify i id)
        if status = .inProgress then s else s.unref i

/-- `process_error` -/
def processError : ChatSystem :=
  let s := s.textDeliveryUpdate i .failed
  match s.messages i with
  | none => s
  | some m => s.setMessage i { m with opTerminated := true }

/-- A response, or an error, for the request of a message. -/
def event (e : TextEvent) : ChatSystem :=
  match s.messages i with
  | none => s
  | some m =>
      match e with
      | .response code =>
          if m.opTerminated then s
          else
            let s := s.setMessage i { m with authRequests := authRequestsAfter m.authRequests code }
            match m.notified e with
            | some status => s.textDeliveryUpdate i status
            | none => s
      | .ioError | .timeout => s.processError i

/-! ## Sending -/

/-- `sal_message_send` reports a failure at once. In a dialog the user pointer of the op is the
call. -/
def sendFailed (context : SendContext) : ChatSystem :=
  if context.dialog then { s with fault := true } else s.textDeliveryUpdate i .failed

/-- The request is sent. In a dialog nobody is told of its response. -/
def sendRequest (context : SendContext) : ChatSystem :=
  if context.sends && !context.dialog then s.modify i fun m => { m with underway := true } else s

/-- `sal_message_send`, of a text or of a content type that is to be ciphered. -/
def salMessageSend (context : SendContext) (cipher : Bool) : ChatSystem :=
  if context.dialog = false ∧ context.built = false then s
  else if cipher = false then s.sendRequest i context
  else if context.opens = false then s.sendFailed i context
  else if context.loads = false then s
  else if context.encrypts = false then s.sendFailed i context
  else s.sendRequest i context

/-- `linphone_chat_message_store`, and the message becomes transient. -/
def storeTransient : ChatSystem :=
  match s.messages i with
  | none => { s with fault := true }
  | some m =>
      if m.gone then { s with fault := true }
      else
        { s.setMessage i { m with storageId := s.lastRowid + 1, sent := true } with
          history := Function.update s.history (s.lastRowid + 1) (some m.state)
          lastRowid := s.lastRowid + 1
          transientMessages := Function.update s.transientMessages m.room
            (s.transientMessages m.room ++ [i]) }.ref i

/-- `_linphone_chat_room_send_message` -/
def sendMessage (context : SendContext) : ChatSystem :=
  match s.messages i with
  | none => { s with fault := true }
  | some m =>
      let s := s.ref i
      if m.file ∧ m.contentType = false then
        if context.server = false then s
        else s.unref i
      else
        let s :=
          if context.dialog then s
          else s.modify i fun m =>
            { m with userPointer := true, opTerminated := false, authRequests := 0 }
        let s :=
          if m.externalBodyUrl then s.salMessageSend i context false
          else if s.lime then (s.ref i).salMessageSend i context true
          else s.salMessageSend i context false
        (s.storeTransient i).unref i

/-- The answer 200 to the upload of a file: the message that the server gave is sent. -/
def uploaded (context : SendContext) : ChatSystem :=
  (s.modify i fun m => { m with contentType := true, state := .fileTransferDone }).sendMessage i
    context

end ChatSystem

/-! ## Steps -/

inductive ChatStep
  /-- A new message of a room. -/
  | create (i room : Nat) (file externalBodyUrl : Bool)
  | send (i : Nat) (context : SendContext)
  | uploaded (i : Nat) (context : SendContext)
  | event (i : Nat) (e : TextEvent)
  /-- The application takes a reference, or releases one that it took. -/
  | appRef (i : Nat)
  | appUnref (i : Nat)
  | enableLime (enabled : Bool)

/-- What the application may do: it sends a new message once, and uses what it has. -/
def ChatStep.Legal (s : ChatSystem) : ChatStep → Prop
  | create i _ _ _ => s.messages i = none
  | send i _ => ∃ m, s.messages i = some m ∧ m.sent = false ∧ m.contentType = false
  | uploaded i _ => ∃ m, s.messages i = some m ∧ m.sent = false ∧ m.file = true ∧
      m.contentType = false
  | appRef i => ∃ m, s.messages i = some m ∧ m.gone = false
  | appUnref i => ∃ m, s.messages i = some m ∧ 0 < m.appRefs
  | event _ _ | enableLime _ => True

def ChatSystem.after (s : ChatSystem) : ChatStep → ChatSystem
  | .create i room file externalBodyUrl =>
      s.setMessage i { room := room, file := file, externalBodyUrl := externalBodyUrl }
  | .send i context => s.sendMessage i context
  | .uploaded i context => s.uploaded i context
  | .event i e => s.event i e
  | .appRef i => (s.ref i).modify i fun m => { m with appRefs := m.appRefs + 1 }
  | .appUnref i =>
      (s.modify i fun m => { m with appRefs := m.appRefs - 1 }).unref i
  | .enableLime enabled => { s with lime := enabled }

/-! ## One message at a time -/

namespace ChatSystem

section one

variable {s : ChatSystem} {i : Nat} {m m' : OutgoingMessage}

@[simp] theorem messages_setMessage : (s.setMessage i m).messages i = some m := by
  simp [setMessage]

@[simp] theorem setMessage_setMessage :
    (s.setMessage i m).setMessage i m' = s.setMessage i m' := by
  simp [setMessage]

theorem setMessage_self (h : s.messages i = some m) : s.setMessage i m = s := by
  unfold setMessage
  rw [← h, Function.update_eq_self]

theorem modify_eq {f : OutgoingMessage → OutgoingMessage} (h : s.messages i = some m)
    (hgone : m.gone = false) : s.modify i f = s.setMessage i (f m) := by
  unfold modify
  rw [h]
  simp [hgone]

theorem ref_eq (h : s.messages i = some m) (hgone : m.gone = false) :
    s.ref i = s.setMessage i { m with refcnt := m.refcnt + 1 } :=
  modify_eq h hgone

theorem unref_eq (h : s.messages i = some m) (hgone : m.gone = false) (hrefs : 1 < m.refcnt) :
    s.unref i = s.setMessage i { m with refcnt := m.refcnt - 1 } := by
  unfold unref
  rw [modify_eq h hgone, if_neg (by omega)]

theorem unref_last (h : s.messages i = some m) (hgone : m.gone = false) (hrefs : m.refcnt ≤ 1) :
    s.unref i = s.setMessage i { m with
      refcnt := 0, gone := true, userPointer := false, opTerminated := true } := by
  unfold unref
  rw [modify_eq h hgone, if_pos hrefs]

theorem unref_ref (h : s.messages i = some m) (hgone : m.gone = false) (hrefs : 0 < m.refcnt) :
    (s.ref i).unref i = s := by
  rw [ref_eq h hgone,
    unref_eq (m := { m with refcnt := m.refcnt + 1 }) messages_setMessage hgone
      (by simpa using hrefs),
    setMessage_setMessage]
  exact setMessage_self h

end one

end ChatSystem

end Linphone
