import Linphone.Chat.Rooms
import Linphone.Chat.Upgrade
import Linphone.Lib.Quote
import Mathlib.Data.List.Nodup

/-!
# The history of the chat rooms

`linphone_chat_message_store` and `linphone_chat_room_get_history` (`coreapi/message_storage.c`).
Rows are selected by the text of the peer, while rooms are found by a weak comparison of addresses.
The statement that selects them is written into 511 bytes; here it is a text, which is read as the
database would read it when it was cut.

`restored_iff`: after a restart each message is in the history of one room, the one its peer finds,
exactly when peers that are weakly equal have one text, which is the one of a SIP URI that is not a
telephone number and fits into the statement, and the local address is read back.
`one_user_two_uris` has two peers that differ in a parameter.
-/

namespace Linphone

/-! ## Messages -/

inductive LinphoneChatMessageDir
  | incoming | outgoing
deriving DecidableEq

inductive LinphoneChatMessageState
  | idle | inProgress | delivered | notDelivered | fileTransferError | fileTransferDone
deriving DecidableEq

def LinphoneChatMessageDir.toInt : LinphoneChatMessageDir → Int
  | incoming => 0
  | outgoing => 1

def LinphoneChatMessageState.toInt : LinphoneChatMessageState → Int
  | idle => 0
  | inProgress => 1
  | delivered => 2
  | notDelivered => 3
  | fileTransferError => 4
  | fileTransferDone => 5

/-- The state with a number; the rows hold no other numbers. -/
def LinphoneChatMessageState.ofInt (n : Int) : LinphoneChatMessageState :=
  if n = 1 then inProgress
  else if n = 2 then delivered
  else if n = 3 then notDelivered
  else if n = 4 then fileTransferError
  else if n = 5 then fileTransferDone
  else idle

structure ChatMessage where
  dir : LinphoneChatMessageDir
  message : Option String
  time : Int
  isRead : Bool
  state : LinphoneChatMessageState
  externalBodyUrl : Option String := none
  appdata : Option String := none
  fromAddress : Option LinphoneAddress
  toAddress : Option LinphoneAddress
  storageId : Nat := 0
deriving DecidableEq

namespace ChatMessage

variable (msg : ChatMessage)

/-- `linphone_chat_message_get_local_address` -/
def localAddress : Option LinphoneAddress :=
  if msg.dir = .outgoing then msg.fromAddress else msg.toAddress

def remoteAddress : Option LinphoneAddress :=
  if msg.dir = .outgoing then msg.toAddress else msg.fromAddress

end ChatMessage

/-- A message in the database, with its room and its local address. -/
structure StoredMessage where
  id : Nat
  room : ChatRoom
  message : ChatMessage
  localAddress : LinphoneAddress
  localAddress_eq : message.localAddress = some localAddress

/-! ## The table -/

structure MessageStorage where
  rows : List HistoryRow := []
  /-- `sqlite3_last_insert_rowid` -/
  lastRowid : Nat := 0
  /-- The messages behind the rows. -/
  stored : List StoredMessage := []

section storage

variable (lib : BelleSip)

/-- The row of a message. -/
def StoredMessage.row (x : StoredMessage) : HistoryRow where
  id := x.id
  localContact := asStringUriOnly lib x.localAddress
  remoteContact := asStringUriOnly lib x.room.peerUrl
  direction := some x.message.dir.toInt
  message := x.message.message
  time := "-1"
  read := some (if x.message.isRead then 1 else 0)
  status := some x.message.state.toInt
  url := x.message.externalBodyUrl
  utc := some x.message.time
  appdata := x.message.appdata
  content := some (-1)

/-- `create_chat_message` of a room without transient messages; `now` is the time of a row that has
none. -/
def createChatMessage (now : Int) (row : HistoryRow) : ChatMessage :=
  let incoming := row.direction.getD 0 = LinphoneChatMessageDir.incoming.toInt
  { dir := if incoming then .incoming else .outgoing
    message := row.message
    time := row.utc.getD now
    isRead := row.read.getD 0 ≠ 0
    state := .ofInt (row.status.getD 0)
    externalBodyUrl := row.url
    appdata := row.appdata
    fromAddress := lib.addressParse (if incoming then row.remoteContact else row.localContact)
    toAddress := lib.addressParse (if incoming then row.localContact else row.remoteContact)
    storageId := row.id }

namespace MessageStorage

variable (s : MessageStorage)

/-- `linphone_chat_message_store`; the text of a local address that is missing is not defined. -/
def store (cr : ChatRoom) (msg : ChatMessage) : MessageStorage :=
  match h : msg.localAddress with
  | none => s
  | some localAddress =>
      let x : StoredMessage := ⟨s.lastRowid + 1, cr, msg, localAddress, h⟩
      { rows := s.rows ++ [x.row lib]
        lastRowid := s.lastRowid + 1
        stored := s.stored ++ [x] }

/-- `linphone_chat_room_delete_message` -/
def deleteMessage (storageId : Nat) : MessageStorage :=
  { s with
    rows := s.rows.filter fun row => row.id ≠ storageId
    stored := s.stored.filter fun x => x.id ≠ storageId }

/-- `linphone_chat_room_delete_history` -/
def deleteHistory (cr : ChatRoom) : MessageStorage :=
  let peer := asStringUriOnly lib cr.peerUrl
  { s with
    rows := s.rows.filter fun row => row.remoteContact ≠ peer
    stored := s.stored.filter fun x => asStringUriOnly lib x.room.peerUrl ≠ peer }

end MessageStorage

/-! ## Reading it -/

/-- The statement up to the text of the peer. -/
def selectFrom : List Char := "SELECT * FROM history WHERE remoteContact = ".toList

def orderBy : List Char := " ORDER BY id DESC".toList

/-- The statement of `linphone_chat_room_get_history_range`, cut at 510 characters. -/
def selectHistory (peer : String) : List Char :=
  (selectFrom ++ (Quote.quote peer.toList ++ orderBy)).take 510

/-- What follows the text of the peer in a statement that was cut: whether the last rows are first,
or nothing for an error. -/
def orderOf (rest : List Char) : Option Bool :=
  if rest = orderBy then some true
  else if rest = [] ∨ rest = " ".toList ∨ rest = " ORDER BY id".toList ∨
      rest = " ORDER BY id ".toList then some false
  else none

/-- The contact and the order that a statement asks for. -/
def parseSelect (statement : List Char) : Option (String × Bool) :=
  if selectFrom.isPrefixOf statement then
    match Quote.scan (statement.drop selectFrom.length) with
    | some (contact, rest) =>
        (orderOf rest).map fun newestFirst => (String.ofList contact, newestFirst)
    | none => none
  else none

/-- `linphone_chat_room_get_history_range` -/
def getHistoryRange (now : Int) (s : MessageStorage) (cr : ChatRoom) (startm endm : Int) :
    List ChatMessage :=
  match parseSelect (selectHistory (asStringUriOnly lib cr.peerUrl)) with
  | none => []
  | some (contact, newestFirst) =>
      let selected := s.rows.filter fun row => row.remoteContact = contact
      let ordered := if newestFirst then selected.reverse else selected
      let startm := max startm 0
      let offset := ordered.drop startm.toNat
      let limited :=
        if 0 < endm ∧ startm ≤ endm ∨ startm = 0 ∧ endm = 0 then
          offset.take (endm + 1 - startm).toNat
        else offset
      -- each row is prepended to `messages_hist`
      (limited.map (createChatMessage lib now)).reverse

/-- `linphone_chat_room_get_history` -/
def getHistory (now : Int) (s : MessageStorage) (cr : ChatRoom) (nbMessage : Int) :
    List ChatMessage :=
  getHistoryRange lib now s cr 0 (nbMessage - 1)

/-! ## What is claimed -/

/-- The rooms after a restart. -/
def MessageStorage.chatrooms (restart : Restart) (s : MessageStorage) : List ChatRoom :=
  initChatRooms lib restart (s.rows.map (·.remoteContact))

/-- A message of the history is the one that was stored. -/
structure StoredMessage.Same (x : StoredMessage) (m : ChatMessage) : Prop where
  storageId : m.storageId = x.id
  dir : m.dir = x.message.dir
  message : m.message = x.message.message
  time : m.time = x.message.time
  isRead : m.isRead = x.message.isRead
  state : m.state = x.message.state
  externalBodyUrl : m.externalBodyUrl = x.message.externalBodyUrl
  appdata : m.appdata = x.message.appdata
  localAddress : ∃ addr, m.localAddress = some addr ∧ addr.uri = x.localAddress.uri
  remoteAddress : ∃ addr, m.remoteAddress = some addr ∧ addr.uri = x.room.peerUrl.uri

/-- After a restart a message is in the history of this room only, and a message of the same peer
is filed there. -/
structure MessageStorage.RestoredTo (restart : Restart) (now : Int) (s : MessageStorage)
    (x : StoredMessage) (cr : ChatRoom) : Prop where
  room : cr ∈ s.chatrooms lib restart
  peer : cr.peerUrl.uri = x.room.peerUrl.uri
  same : ∃ m ∈ getHistory lib now s cr 0, x.Same m
  only : ∀ cr' ∈ s.chatrooms lib restart,
    (∃ m ∈ getHistory lib now s cr' 0, m.storageId = x.id) → cr' = cr
  found : getChatRoom (s.chatrooms lib restart) x.room.peerUrl.clean = some cr
  filed : ∀ msg : ChatMessage, msg.localAddress ≠ none →
    ∃ m ∈ getHistory lib now (s.store lib cr msg) cr 0, m.storageId = s.lastRowid + 1

/-- Every message that was not deleted is restored, whatever the restart finds. -/
def MessageStorage.Restored (s : MessageStorage) : Prop :=
  ∀ restart now, ∀ x ∈ s.stored, ∃ cr, s.RestoredTo lib restart now x cr

inductive HistoryOp
  | store (cr : ChatRoom) (msg : ChatMessage)
  | deleteMessage (storageId : Nat)
  | deleteHistory (cr : ChatRoom)

def MessageStorage.after (s : MessageStorage) : HistoryOp → MessageStorage
  | .store cr msg => s.store lib cr msg
  | .deleteMessage storageId => s.deleteMessage storageId
  | .deleteHistory cr => s.deleteHistory lib cr

/-- A database that was empty, after some operations. -/
def MessageStorage.ofOps (ops : List HistoryOp) : MessageStorage :=
  ops.foldl (MessageStorage.after lib) {}

/-! ## When it holds -/

/-- The statement for a peer still asks for this peer when it is cut. -/
def Fits (peer : String) : Prop :=
  (Quote.quote peer.toList).length ≤ 466 ∧
    let free := 466 - (Quote.quote peer.toList).length
    17 ≤ free ∨ free = 13 ∨ free = 12 ∨ free = 1 ∨ free = 0

structure MessageStorage.Separable (s : MessageStorage) : Prop where
  sip : ∀ x ∈ s.stored, x.room.peerUrl.isSip = true
  number : ∀ x ∈ s.stored, isEnum (asStringUriOnly lib x.room.peerUrl) = false
  fits : ∀ x ∈ s.stored, Fits (asStringUriOnly lib x.room.peerUrl)
  localAddress : ∀ x ∈ s.stored, ∃ addr,
    lib.addressParse (asStringUriOnly lib x.localAddress) = some addr ∧
      addr.uri = x.localAddress.uri
  peers : ∀ x ∈ s.stored, ∀ y ∈ s.stored, x.room.peerUrl.WeakEqual y.room.peerUrl →
    asStringUriOnly lib x.room.peerUrl = asStringUriOnly lib y.room.peerUrl

end storage

/-! ## Statements that were cut -/

section statement

variable {peer contact : String} {newestFirst : Bool}

theorem selectHistory_eq (peer : String) :
    selectHistory peer = selectFrom ++ (Quote.quote peer.toList ++ orderBy).take 466 := by
  unfold selectHistory
  rw [List.take_append]
  rfl

theorem parseSelect_selectHistory (peer : String) :
    parseSelect (selectHistory peer) =
      match Quote.scan ((Quote.quote peer.toList ++ orderBy).take 466) with
      | some (contact, rest) =>
          (orderOf rest).map fun newestFirst => (String.ofList contact, newestFirst)
      | none => none := by
  unfold parseSelect
  have hprefix : selectFrom.isPrefixOf (selectHistory peer) = true := by
    rw [selectHistory_eq, List.isPrefixOf_iff_prefix]
    exact List.prefix_append _ _
  rw [if_pos hprefix, selectHistory_eq, List.drop_left]

/-- What a statement asks for is short. -/
theorem length_le_of_parseSelect
    (h : parseSelect (selectHistory peer) = some (contact, newestFirst)) :
    (Quote.quote contact.toList).length ≤ 466 := by
  rw [parseSelect_selectHistory] at h
  split at h
  · rename_i text rest hscan
    obtain ⟨order, -, heq⟩ := Option.map_eq_some_iff.mp h
    obtain ⟨rfl, rfl⟩ := Prod.mk.inj heq
    have hlength := congrArg List.length (Quote.eq_of_scan hscan)
    simp only [List.length_take, List.length_append] at hlength
    rw [String.toList_ofList]
    omega
  · exact absurd h (by simp)

theorem orderOf_take_eq_some_iff (n : Nat) :
    (∃ newestFirst, orderOf (orderBy.take n) = some newestFirst) ↔
      17 ≤ n ∨ n = 13 ∨ n = 12 ∨ n = 1 ∨ n = 0 := by
  by_cases hlt : n < 17
  · have hsmall : ∀ n < 17, (∃ newestFirst, orderOf (orderBy.take n) = some newestFirst) ↔
        17 ≤ n ∨ n = 13 ∨ n = 12 ∨ n = 1 ∨ n = 0 := by decide +kernel
    exact hsmall n hlt
  · have hall : orderBy.take n = orderBy := List.take_of_length_le (by
      have hlength : orderBy.length = 17 := rfl
      omega)
    rw [hall]
    exact ⟨fun _ => .inl (by omega), fun _ => ⟨true, if_pos rfl⟩⟩

theorem head?_take_orderBy (n : Nat) : (orderBy.take n).head? ≠ some '\'' := by
  cases n with
  | zero => simp
  | succ n =>
      have horder : orderBy = ' ' :: orderBy.tail := rfl
      rw [horder, List.take_succ_cons]
      simp

/-- **A statement asks for its own peer when it fits.** -/
theorem parseSelect_peer_iff :
    (∃ newestFirst, parseSelect (selectHistory peer) = some (peer, newestFirst)) ↔ Fits peer := by
  constructor
  · rintro ⟨newestFirst, h⟩
    have hle := length_le_of_parseSelect h
    refine ⟨hle, ?_⟩
    rw [parseSelect_selectHistory, List.take_append, List.take_of_length_le hle,
      Quote.scan_quote _ (head?_take_orderBy _)] at h
    obtain ⟨order, horder, -⟩ := Option.map_eq_some_iff.mp h
    exact (orderOf_take_eq_some_iff _).mp ⟨order, horder⟩
  · rintro ⟨hle, hfree⟩
    obtain ⟨order, horder⟩ := (orderOf_take_eq_some_iff _).mpr hfree
    refine ⟨order, ?_⟩
    rw [parseSelect_selectHistory, List.take_append, List.take_of_length_le hle,
      Quote.scan_quote _ (head?_take_orderBy _)]
    simp only [horder, Option.map_some, String.ofList_toList]

end statement

/-! ## The table behind the history -/

/-- The rows are those of the messages, each with an identifier of its own. -/
structure MessageStorage.Inv (lib : BelleSip) (s : MessageStorage) : Prop where
  rows : s.rows = s.stored.map (StoredMessage.row lib)
  ids : (s.stored.map (·.id)).Nodup
  fresh : ∀ x ∈ s.stored, x.id ≤ s.lastRowid

section table

variable {lib : BelleSip} {s : MessageStorage} {cr : ChatRoom} {msg m : ChatMessage} {now : Int}
  {x y : StoredMessage}

open MessageStorage

theorem store_of_none (h : msg.localAddress = none) : s.store lib cr msg = s := by
  unfold MessageStorage.store
  split
  · rfl
  · rename_i addr haddr
    exact absurd (h.symm.trans haddr) (by simp)

variable (lib s cr) in
/-- A message is stored behind the others. -/
theorem store_of_ne_none (h : msg.localAddress ≠ none) :
    ∃ x : StoredMessage, x.id = s.lastRowid + 1 ∧ x.room = cr ∧ x.message = msg ∧
      s.store lib cr msg =
        { rows := s.rows ++ [x.row lib]
          lastRowid := s.lastRowid + 1
          stored := s.stored ++ [x] } := by
  unfold MessageStorage.store
  split
  · rename_i hnone
    exact absurd hnone h
  · exact ⟨_, rfl, rfl, rfl, rfl⟩

theorem inv_store (h : s.Inv lib) : (s.store lib cr msg).Inv lib := by
  by_cases hlocal : msg.localAddress = none
  · rw [store_of_none hlocal]
    exact h
  · obtain ⟨x, hid, -, -, heq⟩ := store_of_ne_none lib s cr hlocal
    rw [heq]
    refine ⟨?_, ?_, fun y hy => ?_⟩
    · simp [h.rows]
    · change ((s.stored ++ [x]).map (·.id)).Nodup
      rw [List.map_append]
      refine List.nodup_append.mpr ⟨h.ids, List.nodup_singleton _, fun n hn n' hn' => ?_⟩
      obtain ⟨y, hy, rfl⟩ := List.mem_map.mp hn
      have hle := h.fresh y hy
      have hnew : n' = x.id := by
        simpa using hn'
      rw [hnew, hid]
      omega
    · rcases List.mem_append.mp hy with hold | hnew
      · exact Nat.le_succ_of_le (h.fresh y hold)
      · rw [List.mem_singleton.mp hnew]
        exact Nat.le_of_eq hid

/-- Rows and messages are deleted together. -/
theorem inv_filter (h : s.Inv lib) {p : HistoryRow → Bool} {q : StoredMessage → Bool}
    (hpq : ∀ x : StoredMessage, p (x.row lib) = q x) :
    Inv lib { s with rows := s.rows.filter p, stored := s.stored.filter q } := by
  refine ⟨?_, ?_, fun x hx => h.fresh x (List.mem_filter.mp hx).1⟩
  rotate_left
  · exact List.Nodup.sublist (List.filter_sublist.map _) h.ids
  change s.rows.filter p = _
  rw [h.rows, List.filter_map]
  congr 2
  funext x
  exact hpq x

theorem inv_ofOps (ops : List HistoryOp) : (ofOps lib ops).Inv lib := by
  have hrun : ∀ s : MessageStorage, s.Inv lib → (ops.foldl (after lib) s).Inv lib := by
    induction ops with
    | nil => exact fun s h => h
    | cons op ops ih =>
        intro s h
        refine ih _ ?_
        cases op with
        | store cr msg => exact inv_store h
        | deleteMessage storageId => exact inv_filter h fun x => rfl
        | deleteHistory cr => exact inv_filter h fun x => rfl
  exact hrun {} ⟨rfl, List.Pairwise.nil, by simp⟩

theorem eq_of_id (h : s.Inv lib) (hx : x ∈ s.stored) (hy : y ∈ s.stored) (hid : x.id = y.id) :
    x = y :=
  List.inj_on_of_nodup_map h.ids hx hy hid

/-- The room asks the database for a peer. -/
def Selects (lib : BelleSip) (cr : ChatRoom) (peer : String) : Prop :=
  ∃ newestFirst, parseSelect (selectHistory (asStringUriOnly lib cr.peerUrl)) =
    some (peer, newestFirst)

/-- The whole history of a room. -/
theorem mem_getHistory :
    m ∈ getHistory lib now s cr 0 ↔
      ∃ row ∈ s.rows, Selects lib cr row.remoteContact ∧ createChatMessage lib now row = m := by
  unfold getHistory getHistoryRange Selects
  cases hselect : parseSelect (selectHistory (asStringUriOnly lib cr.peerUrl)) with
  | none => simp
  | some r =>
      obtain ⟨contact, newestFirst⟩ := r
      cases newestFirst with
      | true => simp [and_assoc, eq_comm]
      | false => simp [and_assoc, eq_comm]

theorem mem_getHistory_stored (h : s.Inv lib) (hx : x ∈ s.stored) :
    (∃ m ∈ getHistory lib now s cr 0, m.storageId = x.id) ↔
      Selects lib cr (asStringUriOnly lib x.room.peerUrl) := by
  constructor
  · rintro ⟨m, hm, hid⟩
    obtain ⟨row, hrow, hselects, rfl⟩ := mem_getHistory.mp hm
    rw [h.rows] at hrow
    obtain ⟨y, hy, rfl⟩ := List.mem_map.mp hrow
    obtain rfl := eq_of_id h hy hx hid
    exact hselects
  · intro hselects
    refine ⟨createChatMessage lib now (x.row lib), mem_getHistory.mpr ?_, rfl⟩
    refine ⟨x.row lib, ?_, hselects, rfl⟩
    rw [h.rows]
    exact List.mem_map_of_mem hx

/-! ## What comes back -/

@[simp] theorem localAddress_createChatMessage :
    (createChatMessage lib now (x.row lib)).localAddress =
      lib.addressParse (asStringUriOnly lib x.localAddress) := by
  unfold ChatMessage.localAddress createChatMessage StoredMessage.row
  cases x.message.dir with
  | incoming => rfl
  | outgoing => rfl

@[simp] theorem remoteAddress_createChatMessage :
    (createChatMessage lib now (x.row lib)).remoteAddress =
      lib.addressParse (asStringUriOnly lib x.room.peerUrl) := by
  unfold ChatMessage.remoteAddress createChatMessage StoredMessage.row
  cases x.message.dir with
  | incoming => rfl
  | outgoing => rfl

/-- **A row gives the message back**, as far as its addresses are read back. -/
theorem same_createChatMessage
    (hlocal : ∃ addr, lib.addressParse (asStringUriOnly lib x.localAddress) = some addr ∧
      addr.uri = x.localAddress.uri)
    (hpeer : ∃ addr, lib.addressParse (asStringUriOnly lib x.room.peerUrl) = some addr ∧
      addr.uri = x.room.peerUrl.uri) : x.Same (createChatMessage lib now (x.row lib)) where
  storageId := rfl
  dir := by
    unfold createChatMessage StoredMessage.row
    cases x.message.dir with
    | incoming => rfl
    | outgoing => rfl
  message := rfl
  time := rfl
  isRead := by
    unfold createChatMessage StoredMessage.row
    cases x.message.isRead with
    | true => rfl
    | false => rfl
  state := by
    unfold createChatMessage StoredMessage.row
    cases x.message.state <;> rfl
  externalBodyUrl := rfl
  appdata := rfl
  localAddress := by
    rw [localAddress_createChatMessage]
    exact hlocal
  remoteAddress := by
    rw [remoteAddress_createChatMessage]
    exact hpeer

theorem asStringUriOnly_congr {a b : LinphoneAddress} (h : a.uri = b.uri) :
    asStringUriOnly lib a = asStringUriOnly lib b := by
  unfold asStringUriOnly
  rw [h]

theorem asStringUriOnly_of_fits {addr : LinphoneAddress} (h : Fits (asStringUriOnly lib addr)) :
    asStringUriOnly lib addr = lib.marshal addr.uri := by
  have hlength := h.1
  rw [Quote.length_quote] at hlength
  have hle := Quote.length_le_escape (asStringUriOnly lib addr).toList
  unfold asStringUriOnly at hle hlength ⊢
  rw [String.toList_ofList] at hle hlength
  rw [List.length_take] at hle
  rw [List.take_of_length_le (by omega), String.ofList_toList]

theorem filed_iff (h : s.Inv lib) (hmsg : msg.localAddress ≠ none) :
    (∃ m ∈ getHistory lib now (s.store lib cr msg) cr 0, m.storageId = s.lastRowid + 1) ↔
      Fits (asStringUriOnly lib cr.peerUrl) := by
  obtain ⟨x, hid, hroom, -, heq⟩ := store_of_ne_none lib s cr hmsg
  have hinv : (s.store lib cr msg).Inv lib := inv_store h
  have hmem : x ∈ (s.store lib cr msg).stored := by
    rw [heq]
    simp
  rw [← hid, mem_getHistory_stored hinv hmem, hroom]
  exact parseSelect_peer_iff

/-! ## The peers of a database that is restored -/

theorem mem_contacts (h : s.Inv lib) {contact : String} :
    contact ∈ s.rows.map (·.remoteContact) ↔
      ∃ x ∈ s.stored, asStringUriOnly lib x.room.peerUrl = contact := by
  rw [h.rows, List.map_map]
  exact List.mem_map

/-- **Peers that are kept apart are restored.** -/
theorem restored_of_separable (h : s.Inv lib)
    (hreads : ∀ x ∈ s.stored, lib.ReadsBack x.room.peerUrl.uri) (hs : s.Separable lib) :
    s.Restored lib := by
  intro restart now x hx
  let f (contact : String) : LinphoneAddress :=
    (lib.addressParse contact).getD { uri := .absolute contact }
  have hparse : ∀ y ∈ s.stored, lib.addressParse (asStringUriOnly lib y.room.peerUrl) =
      some { uri := y.room.peerUrl.uri } := by
    intro y hy
    rw [asStringUriOnly_of_fits (hs.fits y hy)]
    exact hreads y hy
  have hf : ∀ y ∈ s.stored, f (asStringUriOnly lib y.room.peerUrl) =
      { uri := y.room.peerUrl.uri } := by
    intro y hy
    simp only [f, hparse y hy, Option.getD_some]
  have hseparate : Separate lib restart f (s.rows.map (·.remoteContact)) := by
    constructor
    · intro q hq
      obtain ⟨y, hy, rfl⟩ := (mem_contacts h).mp hq
      have hscheme := hasScheme_marshal lib (hs.sip y hy)
      rw [← asStringUriOnly_of_fits (hs.fits y hy)] at hscheme
      rw [hf y hy]
      refine interpretUrl_of_sip (fun hempty => ?_) (hs.number y hy) hscheme (hparse y hy)
        (hs.sip y hy)
      rw [hempty] at hscheme
      exact absurd hscheme (by decide)
    · intro q hq q' hq' hweak
      obtain ⟨y, hy, rfl⟩ := (mem_contacts h).mp hq
      obtain ⟨y', hy', rfl⟩ := (mem_contacts h).mp hq'
      rw [hf y hy, hf y' hy'] at hweak
      exact hs.peers y hy y' hy' hweak
  have hroom : ∀ y ∈ s.stored, asStringUriOnly lib (f (asStringUriOnly lib y.room.peerUrl)) =
      asStringUriOnly lib y.room.peerUrl := by
    intro y hy
    rw [hf y hy]
    exact asStringUriOnly_congr rfl
  have hcontact : asStringUriOnly lib x.room.peerUrl ∈ s.rows.map (·.remoteContact) :=
    (mem_contacts h).mpr ⟨x, hx, rfl⟩
  have hrooms : s.chatrooms lib restart = _ := initChatRooms_eq hseparate
  refine ⟨{ peerUrl := f (asStringUriOnly lib x.room.peerUrl) }, ?_, ?_, ?_, ?_, ?_, ?_⟩
  · rw [hrooms]
    exact List.mem_map_of_mem ((restart.mem_groupBy _ _).mpr hcontact)
  · simp only [hf x hx]
  · refine ⟨createChatMessage lib now (x.row lib), mem_getHistory.mpr ⟨x.row lib, ?_, ?_, rfl⟩,
      same_createChatMessage (hs.localAddress x hx) ⟨_, hparse x hx, rfl⟩⟩
    · rw [h.rows]
      exact List.mem_map_of_mem hx
    · unfold Selects
      simp only [hroom x hx]
      exact parseSelect_peer_iff.mpr (hs.fits x hx)
  · intro cr' hcr' hm
    rw [hrooms] at hcr'
    obtain ⟨q, hq, rfl⟩ := List.mem_map.mp hcr'
    obtain ⟨y, hy, rfl⟩ := (mem_contacts h).mp ((restart.mem_groupBy _ _).mp hq)
    obtain ⟨order, horder⟩ := (mem_getHistory_stored h hx).mp hm
    simp only [hroom y hy] at horder
    obtain ⟨order', horder'⟩ := parseSelect_peer_iff.mpr (hs.fits y hy)
    rw [horder'] at horder
    obtain ⟨heq, -⟩ := Prod.mk.inj (Option.some.inj horder)
    rw [heq]
  · refine getChatRoom_initChatRooms hseparate hcontact ?_
    rw [hf x hx]
    exact x.room.peerUrl.weakEqual_clean
  · intro msg hmsg
    rw [filed_iff h hmsg]
    simp only [hroom x hx]
    exact hs.fits x hx

/-- What a restart that is told nothing shows about a message. -/
theorem facts_of_restored (h : s.Inv lib) (hs : s.Restored lib) (hx : x ∈ s.stored) :
    ∃ cr ∈ s.chatrooms lib .bare,
      asStringUriOnly lib cr.peerUrl = asStringUriOnly lib x.room.peerUrl ∧
      Fits (asStringUriOnly lib x.room.peerUrl) ∧
      getChatRoom (s.chatrooms lib .bare) x.room.peerUrl.clean = some cr ∧
      ∃ addr, lib.addressParse (asStringUriOnly lib x.localAddress) = some addr ∧
        addr.uri = x.localAddress.uri := by
  obtain ⟨cr, hcr⟩ := hs .bare 0 x hx
  obtain ⟨m, hm, hsame⟩ := hcr.same
  obtain ⟨order, hselects⟩ := (mem_getHistory_stored h hx).mp ⟨m, hm, hsame.storageId⟩
  have hlocal : x.message.localAddress ≠ none := by
    rw [x.localAddress_eq]
    exact Option.some_ne_none _
  have hfits := (filed_iff h hlocal).mp (hcr.filed x.message hlocal)
  obtain ⟨order', hselects'⟩ := parseSelect_peer_iff.mpr hfits
  rw [hselects'] at hselects
  obtain ⟨heq, -⟩ := Prod.mk.inj (Option.some.inj hselects)
  rw [heq] at hfits
  refine ⟨cr, hcr.room, heq, hfits, hcr.found, ?_⟩
  obtain ⟨row, hrow, -, rfl⟩ := mem_getHistory.mp hm
  rw [h.rows] at hrow
  obtain ⟨y, hy, rfl⟩ := List.mem_map.mp hrow
  obtain rfl := eq_of_id h hy hx hsame.storageId
  have haddr := hsame.localAddress
  rw [localAddress_createChatMessage] at haddr
  exact haddr

/-- A room of such a restart has the address of a message. -/
theorem uri_of_chatrooms (h : s.Inv lib)
    (hreads : ∀ x ∈ s.stored, lib.ReadsBack x.room.peerUrl.uri) (hs : s.Restored lib)
    (hcr : cr ∈ s.chatrooms lib .bare) :
    cr.peerUrl.isSip = true ∧ isEnum (asStringUriOnly lib cr.peerUrl) = false ∧
      lib.ReadsBack cr.peerUrl.uri := by
  obtain ⟨q, hq, hinterpret⟩ := mem_initChatRooms hcr
  obtain ⟨y, hy, rfl⟩ := (mem_contacts h).mp hq
  obtain ⟨hnumber, hsip, hparse⟩ := interpretUrl_cases rfl rfl hinterpret
  obtain ⟨cr', hcr', heq', hfits, -, -⟩ := facts_of_restored h hs hy
  -- the peer of `y` has a room, whose text has its scheme
  have hscheme : hasScheme (asStringUriOnly lib y.room.peerUrl) = true := by
    obtain ⟨q', -, hinterpret'⟩ := mem_initChatRooms hcr'
    have hsip' := (interpretUrl_cases rfl rfl hinterpret').2.1
    rw [← heq'] at hfits ⊢
    rw [asStringUriOnly_of_fits hfits]
    exact hasScheme_marshal lib hsip'
  have hread := hparse hscheme
  rw [asStringUriOnly_of_fits hfits, hreads y hy] at hread
  have huri : cr.peerUrl.uri = y.room.peerUrl.uri := by
    rw [← Option.some.inj hread]
  refine ⟨hsip, ?_, ?_⟩
  · rw [asStringUriOnly_congr huri]
    exact hnumber
  · rw [huri]
    exact hreads y hy

/-- **What is restored was kept apart.** -/
theorem separable_of_restored (h : s.Inv lib)
    (hreads : ∀ x ∈ s.stored, lib.ReadsBack x.room.peerUrl.uri) (hs : s.Restored lib) :
    s.Separable lib where
  sip := by
    intro x hx
    obtain ⟨cr, hcr, heq, hfits, -, -⟩ := facts_of_restored h hs hx
    obtain ⟨hsip, -, hread⟩ := uri_of_chatrooms h hreads hs hcr
    have hmarshal := asStringUriOnly_of_fits hfits
    rw [← heq] at hfits
    rw [← heq, asStringUriOnly_of_fits hfits] at hmarshal
    have huri : some { uri := cr.peerUrl.uri } = some ({ uri := x.room.peerUrl.uri } :
        LinphoneAddress) := by
      rw [← hread, ← hreads x hx, hmarshal]
    have heq := congrArg LinphoneAddress.isSip (Option.some.inj huri)
    exact heq.symm.trans hsip
  number := by
    intro x hx
    obtain ⟨cr, hcr, heq, -, -, -⟩ := facts_of_restored h hs hx
    rw [← heq]
    exact (uri_of_chatrooms h hreads hs hcr).2.1
  fits := by
    intro x hx
    obtain ⟨_, -, -, hfits, -, -⟩ := facts_of_restored h hs hx
    exact hfits
  localAddress := by
    intro x hx
    obtain ⟨_, -, -, -, -, hlocal⟩ := facts_of_restored h hs hx
    exact hlocal
  peers := by
    intro x hx y hy hweak
    obtain ⟨cr, -, heq, -, hfound, -⟩ := facts_of_restored h hs hx
    obtain ⟨cr', -, heq', -, hfound', -⟩ := facts_of_restored h hs hy
    have hclean : x.room.peerUrl.clean.WeakEqual y.room.peerUrl.clean :=
      x.room.peerUrl.weakEqual_clean.symm.trans (hweak.trans y.room.peerUrl.weakEqual_clean)
    rw [getChatRoom_congr hclean, hfound'] at hfound
    rw [← heq, ← heq', Option.some.inj hfound]

/-- **After a restart each message is in the history of one room, the one that its peer finds,
exactly when the peers of the messages that were not deleted are kept apart by their texts.** -/
theorem restored_iff (lib : BelleSip) (ops : List HistoryOp)
    (hreads : ∀ x ∈ (ofOps lib ops).stored, lib.ReadsBack x.room.peerUrl.uri) :
    (ofOps lib ops).Restored lib ↔ (ofOps lib ops).Separable lib :=
  ⟨separable_of_restored (inv_ofOps ops) hreads, restored_of_separable (inv_ofOps ops) hreads⟩

end table

/-! ## Two URIs of one user -/

/-- What belle-sip does with the URIs of some users. -/
def someUsers (uris : List SipUri) : BelleSip :=
  let marshalUri (uri : SipUri) : String :=
    uri.user.getD "" ++ "@" ++ uri.host.getD "" ++
      String.join (uri.params.map fun p => ";" ++ p.1 ++ "=" ++ p.2.getD "")
  { marshalUri := marshalUri
    addressParse := fun text =>
      (uris.find? fun uri => "sip:" ++ marshalUri uri = text).map fun uri => { uri := .sip uri } }

def marieUri : SipUri := { user := some "marie", host := some "sip.example.org" }

def marieTcpUri : SipUri := { marieUri with params := [("transport", some "tcp")] }

def paulineUri : SipUri := { user := some "pauline", host := some "sip.example.org" }

def helloMessage (uri : SipUri) : ChatMessage where
  dir := .incoming
  message := some "Hello"
  time := 1436000000
  isRead := false
  state := .delivered
  fromAddress := some { uri := .sip uri }
  toAddress := some { uri := .sip paulineUri }

/-- One message of each URI, through a room of its own. -/
def helloFrom (uris : List SipUri) : List HistoryOp :=
  uris.map fun uri => .store { peerUrl := { uri := .sip uri } } (helloMessage uri)

instance (peer : String) : Decidable (Fits peer) := inferInstanceAs (Decidable (_ ∧ (_ ∨ _)))

theorem restored_marie :
    (MessageStorage.ofOps (someUsers [marieUri, paulineUri]) (helloFrom [marieUri])).Restored
      (someUsers [marieUri, paulineUri]) := by
  have hone {P : StoredMessage → Prop}
      (h : P ⟨1, { peerUrl := { uri := .sip marieUri } }, helloMessage marieUri, _, rfl⟩) :
      ∀ x ∈ (MessageStorage.ofOps (someUsers [marieUri, paulineUri])
        (helloFrom [marieUri])).stored, P x := by
    intro x hx
    rw [List.mem_singleton.mp hx]
    exact h
  refine (restored_iff (someUsers [marieUri, paulineUri]) (helloFrom [marieUri])
    (hone (by decide +kernel))).mpr ?_
  exact ⟨hone rfl, hone (by decide +kernel), hone (by decide +kernel),
    hone ⟨{ uri := .sip paulineUri }, by decide +kernel, rfl⟩, hone (hone fun _ => rfl)⟩

/-- Two rooms of one user, whose URIs differ in a parameter: only one of them comes back. -/
theorem one_user_two_uris :
    ¬∀ (lib : BelleSip) (ops : List HistoryOp),
      (∀ x ∈ (MessageStorage.ofOps lib ops).stored, lib.ReadsBack x.room.peerUrl.uri) →
        (MessageStorage.ofOps lib ops).Restored lib := by
  intro h
  let lib := someUsers [marieUri, marieTcpUri, paulineUri]
  let s := MessageStorage.ofOps lib (helloFrom [marieUri, marieTcpUri])
  have hstored : s.stored =
      [⟨1, { peerUrl := { uri := .sip marieUri } }, helloMessage marieUri, _, rfl⟩,
        ⟨2, { peerUrl := { uri := .sip marieTcpUri } }, helloMessage marieTcpUri, _, rfl⟩] := rfl
  have hreads : ∀ x ∈ s.stored, lib.ReadsBack x.room.peerUrl.uri := by
    intro x hx
    rw [hstored] at hx
    rcases List.mem_cons.mp hx with rfl | hx
    · decide +kernel
    · rw [List.mem_singleton.mp hx]
      decide +kernel
  have hpeers := (separable_of_restored (inv_ofOps _) hreads (h lib _ hreads)).peers
  rw [hstored] at hpeers
  have heq := hpeers _ (List.mem_cons_self) _ (List.mem_cons_of_mem _ List.mem_cons_self)
    ⟨rfl, rfl, rfl⟩
  exact absurd heq (by decide +kernel)

end Linphone
