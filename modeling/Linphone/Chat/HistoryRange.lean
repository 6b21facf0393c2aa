import Linphone.Chat.History
import Linphone.Lib.Numbered
import Mathlib.Data.List.Forall2
import Mathlib.Logic.Function.Basic
import Mathlib.Algebra.Group.Nat.Defs
import Mathlib.Algebra.Group.Int.Defs

/-!
# Ranges of the history

`linphone_chat_room_get_history_range` and `linphone_chat_room_get_history`
(`coreapi/message_storage.c`), with the arguments as they are, numbers of 32 bits, and with the
messages of a room that are still in its transient list.

`messagesReturned_iff`: the messages that were asked for are returned exactly when the statement
for the peer was not cut, or the cut does not show: nothing is asked for and nothing found, or
the order was lost and only the message in the middle is asked for. The sum of the arguments may
also overflow, which takes as many messages. `long_peer_has_no_history` has a peer whose statement
is cut.
-/

namespace Linphone

/-! ## The database -/

/-- The rows of `history` in the order of their identifiers; the columns that are read as numbers
are always written. -/
structure MessageTable where
  rows : List HistoryRow := []
  sorted : rows.Pairwise fun row row' => row.id < row'.id := by exact List.Pairwise.nil
  filled : ∀ row ∈ rows, row.direction ≠ none ∧ row.read ≠ none ∧ row.status ≠ none := by
    exact fun _ h => absurd h List.not_mem_nil

/-- The identifiers and the references of the messages that are in memory. -/
structure MessageHeap where
  storageId : Nat → Nat
  refs : Nat → Nat

/-- `linphone_chat_message_ref` -/
def MessageHeap.ref (heap : MessageHeap) (object : Nat) : MessageHeap :=
  { heap with refs := Function.update heap.refs object (heap.refs object + 1) }

/-- A room with the messages that are not final. -/
structure TransientRoom extends ChatRoom where
  transientMessages : List Nat := []

/-- `get_transient_message`, without the reference. -/
def TransientRoom.getTransientMessage (cr : TransientRoom) (heap : MessageHeap)
    (storageId : Nat) : Option Nat :=
  cr.transientMessages.find? fun object => heap.storageId object = storageId

/-! ## Reading it -/

inductive HistoryMessage
  | transient (object : Nat)
  | created (msg : ChatMessage)
deriving DecidableEq

/-- The memory and `cr->messages_hist` while rows are read. -/
structure HistoryReading where
  heap : MessageHeap
  messagesHist : List HistoryMessage := []

structure HistoryQuery where
  /-- The statement as far as it was written. -/
  statement : List Char
  limit : Option Int32 := none
  offset : Option Int32 := none

/-- The statement of `linphone_chat_room_get_history_range`; the sum for the limit may overflow. -/
def historyQuery (peer : String) (startm endm : Int32) : HistoryQuery :=
  let startm := if startm < 0 then 0 else startm
  { statement := selectHistory peer
    limit :=
      if 0 < endm ∧ startm ≤ endm ∨ startm = 0 ∧ endm = 0 then some (endm + 1 - startm)
      else if 0 < startm then some (-1)
      else none
    offset := if 0 < startm then some startm else none }

/-- The rows that a statement finds, in the order in which they are found. -/
def HistoryQuery.found (rows : List HistoryRow) : Option (String × Bool) → List HistoryRow
  | none => []
  | some (contact, newestFirst) =>
      let selected := rows.filter fun row => row.remoteContact = contact
      if newestFirst then selected.reverse else selected

/-- The rows that are skipped. -/
def HistoryQuery.first (query : HistoryQuery) : Nat :=
  match query.offset with
  | some offset => offset.toInt.toNat
  | none => 0

/-- What the database answers; a limit below zero is none. -/
def HistoryQuery.answer (query : HistoryQuery) (rows : List HistoryRow) : List HistoryRow :=
  let rest := (found rows (parseSelect query.statement)).drop query.first
  match query.limit with
  | some limit => if 0 ≤ limit then rest.take limit.toInt.toNat else rest
  | none => rest

section reading

variable (lib : BelleSip) (now : Int) (cr : TransientRoom)

/-- `create_chat_message` -/
def HistoryReading.read (r : HistoryReading) (row : HistoryRow) : HistoryReading :=
  match cr.getTransientMessage r.heap row.id with
  | some object =>
      { heap := r.heap.ref object
        messagesHist := .transient object :: r.messagesHist }
  | none => { r with messagesHist := .created (createChatMessage lib now row) :: r.messagesHist }

namespace TransientRoom

/-- `linphone_chat_room_get_history_range`: the list that is returned, and the memory. -/
def getHistoryRange (db : MessageTable) (heap : MessageHeap) (startm endm : Int32) :
    HistoryReading :=
  let query := historyQuery (asStringUriOnly lib cr.peerUrl) startm endm
  (query.answer db.rows).foldl (HistoryReading.read lib now cr) { heap := heap }

/-- `linphone_chat_room_get_history` -/
def getHistory (db : MessageTable) (heap : MessageHeap) (nbMessage : Int32) : HistoryReading :=
  cr.getHistoryRange lib now db heap 0 (nbMessage - 1)

end TransientRoom

/-! ## What is claimed -/

inductive HistoryRequest
  | range (startm endm : Int32)
  | history (nbMessage : Int32)

/-- What a request returns. -/
def HistoryRequest.result (db : MessageTable) (heap : MessageHeap) :
    HistoryRequest → HistoryReading
  | range startm endm => cr.getHistoryRange lib now db heap startm endm
  | history nbMessage => cr.getHistory lib now db heap nbMessage

/-- The numbers of the messages that are asked for, counted from the most recent one. -/
def HistoryRequest.Wanted : HistoryRequest → Nat → Prop
  | range startm endm, number => max startm.toInt 0 ≤ number ∧
      (endm.toInt < 0 ∨ endm.toInt < startm.toInt ∨ number ≤ endm.toInt)
  | history nbMessage, number => nbMessage.toInt ≤ 0 ∨ number < nbMessage.toInt

instance : (request : HistoryRequest) → DecidablePred request.Wanted
  | .range _ _ => fun _ => inferInstanceAs (Decidable (_ ∧ (_ ∨ _ ∨ _)))
  | .history _ => fun _ => inferInstanceAs (Decidable (_ ∨ _))

/-- The messages of a room, the most recent one first. -/
def MessageTable.recent (db : MessageTable) : List HistoryRow :=
  (db.rows.filter fun row => row.remoteContact = asStringUriOnly lib cr.peerUrl).reverse

/-- A message that is in memory is returned itself. -/
def HistoryMessage.Of (heap : MessageHeap) (row : HistoryRow) : HistoryMessage → Prop
  | transient object => object ∈ cr.transientMessages ∧ heap.storageId object = row.id
  | created msg => msg = createChatMessage lib now row ∧
      ∀ object ∈ cr.transientMessages, heap.storageId object ≠ row.id

/-- The messages that are asked for are returned, the oldest one first, with a reference on each
that was in memory. -/
structure HistoryReading.Returns (db : MessageTable) (heap : MessageHeap)
    (request : HistoryRequest) (r : HistoryReading) : Prop where
  messages : List.Forall₂ (HistoryMessage.Of lib now cr heap)
    (Numbered.pick request.Wanted (db.recent lib cr)).reverse r.messagesHist
  references : ∀ object,
    r.heap.refs object = heap.refs object + r.messagesHist.count (.transient object)

/-! ## When it holds -/

/-- What the statement for the peer asks for when it is cut does not matter to these numbers. -/
def MessageTable.CutHarmless (db : MessageTable) (wanted : Nat → Prop) : Prop :=
  let recent := db.recent lib cr
  match parseSelect (selectHistory (asStringUriOnly lib cr.peerUrl)) with
  | none => ∀ number < recent.length, ¬wanted number
  | some (contact, newestFirst) =>
      if contact = asStringUriOnly lib cr.peerUrl then
        newestFirst = true ∨
          ∀ number < recent.length, wanted number → 2 * number + 1 = recent.length
      else
        let others := db.rows.filter fun row => row.remoteContact = contact
        (∀ number < recent.length, ¬wanted number) ∧ ∀ number < others.length, ¬wanted number

/-- The sum overflows, and messages beyond it are not asked for. -/
def HistoryRequest.Overflows (request : HistoryRequest) (size : Nat) : Prop :=
  match request with
  | range startm endm => startm.toInt ≤ 0 ∧ endm.toInt = 2 ^ 31 - 1 ∧ 2 ^ 31 < size
  | history _ => False

end reading

/-! ## The numbers that a query asks for -/

/-- The numbers in the answer to a query. -/
def HistoryQuery.Asks (query : HistoryQuery) (number : Nat) : Prop :=
  query.first ≤ number ∧
    ∀ limit ∈ query.limit, 0 ≤ limit → number < query.first + limit.toInt.toNat

instance (query : HistoryQuery) : DecidablePred query.Asks := fun _ =>
  inferInstanceAs (Decidable (_ ∧ _))

/-- The query of a request. -/
def HistoryRequest.query (peer : String) : HistoryRequest → HistoryQuery
  | range startm endm => historyQuery peer startm endm
  | history nbMessage => historyQuery peer 0 (nbMessage - 1)

section query

variable {startm endm : Int32} {rows : List HistoryRow} {query : HistoryQuery}

/-- **A query answers with the numbers that it asks for.** -/
theorem answer_eq_pick : query.answer rows =
    Numbered.pick query.Asks (HistoryQuery.found rows (parseSelect query.statement)) := by
  have hall (h : ∀ limit ∈ query.limit, ¬0 ≤ limit) :
      (HistoryQuery.found rows (parseSelect query.statement)).drop query.first =
        Numbered.pick query.Asks (HistoryQuery.found rows (parseSelect query.statement)) := by
    rw [← Numbered.pick_from]
    exact Numbered.pick_congr fun i _ =>
      ⟨fun hi => ⟨hi, fun limit hlimit hle => absurd hle (h limit hlimit)⟩, fun hi => hi.1⟩
  unfold HistoryQuery.answer
  cases hlimit : query.limit with
  | none => exact hall (by simp [hlimit])
  | some limit =>
      by_cases hle : 0 ≤ limit
      · simp only [if_pos hle]
        rw [← Numbered.pick_between]
        refine Numbered.pick_congr fun i _ => ?_
        simp [HistoryQuery.Asks, hlimit, hle]
      · simp only [if_neg hle]
        exact hall (by simpa [hlimit] using hle)

theorem toInt_clamp : (if startm < 0 then 0 else startm).toInt = max startm.toInt 0 := by
  split
  · rename_i hneg
    have hlt := Int32.lt_iff_toInt_lt.mp hneg
    rw [Int32.toInt_zero] at hlt ⊢
    omega
  · rename_i hneg
    have hle := mt Int32.lt_iff_toInt_lt.mpr hneg
    rw [Int32.toInt_zero] at hle
    omega

theorem toInt_limit {first : Int32} (h : 0 ≤ first.toInt) (hle : first.toInt ≤ endm.toInt) :
    (endm + 1 - first).toInt =
      if first.toInt = 0 ∧ endm.toInt = 2 ^ 31 - 1 then -2 ^ 31
      else endm.toInt + 1 - first.toInt := by
  have hlt := Int32.toInt_lt endm
  rw [Int32.toInt_sub, Int32.toInt_add, Int32.toInt_one]
  by_cases hover : first.toInt = 0 ∧ endm.toInt = 2 ^ 31 - 1
  · rw [if_pos hover, hover.1, hover.2]
    rfl
  · rw [if_neg hover, Int.bmod_def, Int.bmod_def]
    split <;> split <;> omega

variable (startm endm) in
theorem first_historyQuery (peer : String) :
    ((historyQuery peer startm endm).first : Int) = max startm.toInt 0 := by
  rw [← toInt_clamp]
  unfold historyQuery HistoryQuery.first
  generalize hfirst : (if startm < 0 then 0 else startm) = first
  have hclamp : first.toInt = max startm.toInt 0 := by
    rw [← hfirst, toInt_clamp]
  simp only [Int32.lt_iff_toInt_lt, Int32.toInt_zero]
  by_cases hpos : 0 < first.toInt
  · simp only [if_pos hpos]
    omega
  · simp only [if_neg hpos]
    omega

/-- A range asks for its numbers, or the sum overflows and it asks for all. -/
theorem asks_range (peer : String) (number : Nat) :
    (historyQuery peer startm endm).Asks number ↔
      startm.toInt ≤ 0 ∧ endm.toInt = 2 ^ 31 - 1 ∨
        (HistoryRequest.range startm endm).Wanted number := by
  have hskip := first_historyQuery startm endm peer
  unfold HistoryQuery.Asks HistoryRequest.Wanted
  generalize (historyQuery peer startm endm).first = skip at hskip ⊢
  unfold historyQuery
  generalize hfirst : (if startm < 0 then 0 else startm) = first
  have hclamp : first.toInt = max startm.toInt 0 := by
    rw [← hfirst, toInt_clamp]
  have hlimited : (0 < endm ∧ first ≤ endm ∨ first = 0 ∧ endm = 0) ↔
      first.toInt ≤ endm.toInt := by
    rw [← Int32.toInt_inj, ← Int32.toInt_inj, Int32.lt_iff_toInt_lt, Int32.le_iff_toInt_le,
      Int32.toInt_zero]
    omega
  simp only [hlimited]
  by_cases hle : first.toInt ≤ endm.toInt
  · simp only [if_pos hle, Option.mem_some_iff, forall_eq', Int32.le_iff_toInt_le,
      Int32.toInt_zero, toInt_limit (show 0 ≤ first.toInt by omega) hle]
    split <;> omega
  · have hopen : ∀ limit ∈ (if 0 < first then some (-1 : Int32) else none),
        0 ≤ limit → number < skip + limit.toInt.toNat := by
      intro limit hlimit
      split at hlimit
      · rw [← Option.some.inj hlimit]
        exact fun h => absurd h (by decide)
      · exact absurd hlimit (by simp)
    have hlt := Int32.toInt_lt startm
    simp only [if_neg hle]
    constructor
    · rintro ⟨hnumber, -⟩
      exact .inr ⟨by omega, by omega⟩
    · intro h
      exact ⟨by omega, hopen⟩

/-- **A request asks for what is wanted**, but for the sum that overflows. -/
theorem asks_request (peer : String) (request : HistoryRequest) :
    (∀ i, (request.query peer).Asks i ↔ request.Wanted i) ∧ (∀ n, ¬request.Overflows n) ∨
      (∀ i, (request.query peer).Asks i) ∧ (∀ i, request.Wanted i ↔ i < 2 ^ 31) ∧
        ∀ n, request.Overflows n ↔ 2 ^ 31 < n := by
  cases request with
  | range startm endm =>
      by_cases hover : startm.toInt ≤ 0 ∧ endm.toInt = 2 ^ 31 - 1
      · refine .inr ⟨fun i => (asks_range peer i).mpr (.inl hover), fun i => ?_, fun n => ?_⟩
        · unfold HistoryRequest.Wanted
          omega
        · unfold HistoryRequest.Overflows
          omega
      · refine .inl ⟨fun i => (asks_range peer i).trans (or_iff_right hover), fun n h => ?_⟩
        exact hover ⟨h.1, h.2.1⟩
  | history nbMessage =>
      refine .inl ⟨fun i => (asks_range peer i).trans ?_, fun n h => h⟩
      have hlt := Int32.toInt_lt nbMessage
      have hle := Int32.le_toInt nbMessage
      have hpred : (nbMessage - 1).toInt =
          if nbMessage.toInt = -2 ^ 31 then 2 ^ 31 - 1 else nbMessage.toInt - 1 := by
        rw [Int32.toInt_sub, Int32.toInt_one, Int.bmod_def]
        split <;> split <;> omega
      simp only [HistoryRequest.Wanted, hpred, Int32.toInt_zero]
      split <;> omega

end query

/-! ## What is read -/

section read

variable {lib : BelleSip} {now : Int} {cr : TransientRoom} {db : MessageTable}
  {heap : MessageHeap} {r : HistoryReading} {rows : List HistoryRow} {row row' : HistoryRow}
  {m : HistoryMessage} {request : HistoryRequest} {wanted : Nat → Prop} [DecidablePred wanted]

variable (lib now cr heap) in
/-- The message of a row. -/
def HistoryMessage.ofRow (row : HistoryRow) : HistoryMessage :=
  match cr.getTransientMessage heap row.id with
  | some object => transient object
  | none => created (createChatMessage lib now row)

theorem of_ofRow : HistoryMessage.Of lib now cr heap row (.ofRow lib now cr heap row) := by
  unfold HistoryMessage.ofRow TransientRoom.getTransientMessage
  split
  · rename_i object hfind
    exact ⟨List.mem_of_find?_eq_some hfind, by simpa using List.find?_some hfind⟩
  · rename_i hfind
    exact ⟨rfl, by simpa using hfind⟩

theorem id_eq_of_of (h : HistoryMessage.Of lib now cr heap row m)
    (h' : HistoryMessage.Of lib now cr heap row' m) : row.id = row'.id := by
  cases m with
  | transient object => exact h.2.symm.trans h'.2
  | created msg => exact congrArg ChatMessage.storageId (h.1.symm.trans h'.1)

/-- A row is read: its message is put in front, and a message in memory gets a reference. -/
theorem read_spec : r.read lib now cr row =
    { heap :=
        { storageId := r.heap.storageId
          refs := fun object => r.heap.refs object +
            [HistoryMessage.ofRow lib now cr r.heap row].count (.transient object) }
      messagesHist := .ofRow lib now cr r.heap row :: r.messagesHist } := by
  unfold HistoryReading.read HistoryMessage.ofRow
  split
  · rename_i object hfind
    simp only [MessageHeap.ref]
    congr
    funext other
    by_cases heq : other = object
    · simp [heq]
    · simp [heq, Ne.symm heq]
  · simp

/-- **All rows are read**, each once. -/
theorem foldl_read : rows.foldl (HistoryReading.read lib now cr) r =
    { heap :=
        { storageId := r.heap.storageId
          refs := fun object => r.heap.refs object +
            (rows.map (HistoryMessage.ofRow lib now cr r.heap)).count (.transient object) }
      messagesHist :=
        (rows.map (HistoryMessage.ofRow lib now cr r.heap)).reverse ++ r.messagesHist } := by
  induction rows generalizing r with
  | nil => rfl
  | cons row rows ih =>
      -- a reference does not change the identifiers, so the other messages are the same
      rw [List.foldl_cons, ih, read_spec]
      change HistoryReading.mk ⟨_, fun object => r.heap.refs object +
          [HistoryMessage.ofRow lib now cr r.heap row].count (.transient object) +
            (rows.map (HistoryMessage.ofRow lib now cr r.heap)).count (.transient object)⟩
        ((rows.map (HistoryMessage.ofRow lib now cr r.heap)).reverse ++
          .ofRow lib now cr r.heap row :: r.messagesHist) = _
      refine congrArg₂ HistoryReading.mk (congrArg (MessageHeap.mk _) ?_) (by simp)
      funext object
      rw [Nat.add_assoc, ← List.count_append, List.map_cons, List.singleton_append]

theorem eq_of_id_eq (db : MessageTable) (hrow : row ∈ db.rows) (hrow' : row' ∈ db.rows)
    (hid : row.id = row'.id) : row = row' := by
  have hnodup : (db.rows.map (·.id)).Nodup :=
    List.pairwise_map.mpr (db.sorted.imp fun hlt => Nat.ne_of_lt hlt)
  exact List.inj_on_of_nodup_map hnodup hrow hrow' hid

theorem nodup_recent (db : MessageTable) : (db.recent lib cr).Nodup := by
  unfold MessageTable.recent
  refine List.nodup_reverse.mpr (List.Nodup.filter _ ?_)
  exact db.sorted.imp fun hlt heq => absurd (congrArg HistoryRow.id heq) (Nat.ne_of_lt hlt)

theorem mem_recent :
    row ∈ db.recent lib cr ↔
      row ∈ db.rows ∧ row.remoteContact = asStringUriOnly lib cr.peerUrl := by
  simp [MessageTable.recent]

theorem mem_found {contact : String} {newestFirst : Bool} :
    row ∈ HistoryQuery.found rows (some (contact, newestFirst)) ↔
      row ∈ rows ∧ row.remoteContact = contact := by
  unfold HistoryQuery.found
  cases newestFirst with
  | true => simp
  | false => simp

theorem length_found (contact : String) (newestFirst : Bool) :
    (HistoryQuery.found rows (some (contact, newestFirst))).length =
      (rows.filter fun row => row.remoteContact = contact).length := by
  unfold HistoryQuery.found
  cases newestFirst with
  | true => simp
  | false => rfl

theorem result_eq (request : HistoryRequest) :
    request.result lib now cr db heap =
      ((request.query (asStringUriOnly lib cr.peerUrl)).answer db.rows).foldl
        (HistoryReading.read lib now cr) { heap := heap } := by
  cases request with
  | range startm endm => rfl
  | history nbMessage => rfl

theorem parseSelect_query (peer : String) (request : HistoryRequest) :
    parseSelect (request.query peer).statement = parseSelect (selectHistory peer) := by
  cases request with
  | range startm endm => rfl
  | history nbMessage => rfl

/-- The messages of some rows are those of others only when the rows are the same. -/
theorem rows_eq {l l' : List HistoryRow}
    (h : List.Forall₂ (fun row row' =>
      HistoryMessage.Of lib now cr heap row (.ofRow lib now cr heap row')) l l')
    (hl : ∀ row ∈ l, row ∈ db.rows) (hl' : ∀ row ∈ l', row ∈ db.rows) : l' = l := by
  induction h with
  | nil => rfl
  | cons hof _ ih =>
      have htail := ih (fun row hrow => hl row (List.mem_cons_of_mem _ hrow))
        (fun row hrow => hl' row (List.mem_cons_of_mem _ hrow))
      rw [htail, eq_of_id_eq db (hl' _ List.mem_cons_self) (hl _ List.mem_cons_self)
        (id_eq_of_of of_ofRow hof)]

/-- **What was asked for is returned** exactly when the database answers with its rows. -/
theorem returns_iff :
    (request.result lib now cr db heap).Returns lib now cr db heap request ↔
      (request.query (asStringUriOnly lib cr.peerUrl)).answer db.rows =
        Numbered.pick request.Wanted (db.recent lib cr) := by
  have hwanted : ∀ row ∈ Numbered.pick request.Wanted (db.recent lib cr), row ∈ db.rows := by
    intro row hrow
    obtain ⟨i, -, hi⟩ := Numbered.mem_pick.mp hrow
    exact (mem_recent.mp (List.mem_of_getElem? hi)).1
  have hanswer : ∀ row ∈ (request.query (asStringUriOnly lib cr.peerUrl)).answer db.rows,
      row ∈ db.rows := by
    intro row hrow
    rw [answer_eq_pick] at hrow
    obtain ⟨i, -, hi⟩ := Numbered.mem_pick.mp hrow
    have hfound := List.mem_of_getElem? hi
    cases hselect : parseSelect (request.query (asStringUriOnly lib cr.peerUrl)).statement with
    | none =>
        rw [hselect] at hfound
        exact absurd hfound List.not_mem_nil
    | some r =>
        rw [hselect] at hfound
        exact (mem_found.mp hfound).1
  rw [result_eq, foldl_read]
  constructor
  · intro h
    have hmessages := h.messages
    rw [List.append_nil, List.forall₂_reverse_iff, List.forall₂_map_right_iff] at hmessages
    exact rows_eq hmessages hwanted hanswer
  · intro heq
    rw [heq]
    refine ⟨?_, fun object => ?_⟩
    · rw [List.append_nil, List.forall₂_reverse_iff, List.forall₂_map_right_iff]
      exact List.forall₂_same.mpr fun row _ => of_ofRow
    · rw [List.append_nil, List.count_reverse]

/-! ## Statements that were cut -/

/-- **The order is read as long as the statement is not cut.** -/
theorem parseSelect_whole_iff {peer : String} :
    parseSelect (selectHistory peer) = some (peer, true) ↔
      (Quote.quote peer.toList).length + 17 ≤ 466 := by
  have horder : orderBy.length = 17 := rfl
  constructor
  · intro h
    have hle := length_le_of_parseSelect h
    rw [parseSelect_selectHistory, List.take_append, List.take_of_length_le hle,
      Quote.scan_quote _ (head?_take_orderBy _)] at h
    obtain ⟨order, hrest, heq⟩ := Option.map_eq_some_iff.mp h
    rw [(Prod.mk.inj heq).2] at hrest
    unfold orderOf at hrest
    split at hrest
    · rename_i hall
      have hlength := congrArg List.length hall
      rw [List.length_take, horder] at hlength
      omega
    · split at hrest <;> exact absurd hrest (by simp)
  · intro h
    rw [parseSelect_selectHistory, List.take_append, List.take_of_length_le (by omega),
      Quote.scan_quote _ (head?_take_orderBy _), List.take_of_length_le (by omega)]
    simp [orderOf]

/-- What is found is of the peer, if one row is. -/
theorem length_found_eq
    (hrow : row ∈ HistoryQuery.found db.rows
      (parseSelect (selectHistory (asStringUriOnly lib cr.peerUrl))))
    (hrecent : row ∈ db.recent lib cr) :
    (HistoryQuery.found db.rows
      (parseSelect (selectHistory (asStringUriOnly lib cr.peerUrl)))).length =
        (db.recent lib cr).length := by
  cases hselect : parseSelect (selectHistory (asStringUriOnly lib cr.peerUrl)) with
  | none =>
      rw [hselect] at hrow
      exact absurd hrow List.not_mem_nil
  | some r =>
      obtain ⟨contact, newestFirst⟩ := r
      rw [hselect] at hrow
      rw [length_found, ← (mem_found.mp hrow).2, (mem_recent.mp hrecent).2]
      exact List.length_reverse.symm

/-- The numbers find the same in a statement that was cut exactly when that is harmless. -/
theorem pick_found_iff :
    Numbered.pick wanted (HistoryQuery.found db.rows
        (parseSelect (selectHistory (asStringUriOnly lib cr.peerUrl)))) =
      Numbered.pick wanted (db.recent lib cr) ↔ db.CutHarmless lib cr wanted := by
  unfold MessageTable.CutHarmless
  cases hselect : parseSelect (selectHistory (asStringUriOnly lib cr.peerUrl)) with
  | none => exact eq_comm.trans Numbered.pick_eq_nil_iff
  | some r =>
      obtain ⟨contact, newestFirst⟩ := r
      by_cases heq : contact = asStringUriOnly lib cr.peerUrl
      · subst heq
        simp only [↓reduceIte]
        cases newestFirst with
        | true => exact iff_of_true rfl (.inl rfl)
        | false =>
            have hfound : HistoryQuery.found db.rows
                (some (asStringUriOnly lib cr.peerUrl, false)) = (db.recent lib cr).reverse := by
              unfold HistoryQuery.found MessageTable.recent
              rw [List.reverse_reverse]
              rfl
            rw [hfound, Numbered.pick_reverse_eq_iff (nodup_recent db)]
            simp
      · simp only [if_neg heq]
        rw [← length_found contact newestFirst, ← Numbered.pick_eq_nil_iff,
          ← Numbered.pick_eq_nil_iff]
        constructor
        · intro h
          -- a row cannot be of both contacts
          have hnil : Numbered.pick wanted (db.recent lib cr) = [] := by
            refine List.eq_nil_iff_forall_not_mem.mpr fun row hrow => heq ?_
            have hrow' := hrow
            rw [← h] at hrow'
            obtain ⟨_, -, hi⟩ := Numbered.mem_pick.mp hrow
            obtain ⟨_, -, hi'⟩ := Numbered.mem_pick.mp hrow'
            exact (mem_found.mp (List.mem_of_getElem? hi')).2.symm.trans
              (mem_recent.mp (List.mem_of_getElem? hi)).2
          exact ⟨hnil, h.trans hnil⟩
        · rintro ⟨hnil, hnil'⟩
          rw [hnil, hnil']

/-- **A room whose peer does not fit into the statement has no history.** -/
theorem not_wanted_of_long
    (hlong : 466 < (Quote.quote (asStringUriOnly lib cr.peerUrl).toList).length) :
    db.CutHarmless lib cr wanted → ∀ number < (db.recent lib cr).length, ¬wanted number := by
  unfold MessageTable.CutHarmless
  cases hselect : parseSelect (selectHistory (asStringUriOnly lib cr.peerUrl)) with
  | none => exact id
  | some r =>
      obtain ⟨contact, newestFirst⟩ := r
      have hle := length_le_of_parseSelect hselect
      have hne : contact ≠ asStringUriOnly lib cr.peerUrl := by
        intro heq
        rw [heq] at hle
        omega
      simp only [if_neg hne]
      exact And.left

/-- Everything that is found is returned in place of the first ones. -/
theorem found_eq_pick_iff {bound : Nat} (hpos : 0 < bound) (hwanted : ∀ i, wanted i ↔ i < bound) :
    HistoryQuery.found db.rows (parseSelect (selectHistory (asStringUriOnly lib cr.peerUrl))) =
        Numbered.pick wanted (db.recent lib cr) ↔
      db.CutHarmless lib cr wanted ∧ ¬bound < (db.recent lib cr).length := by
  have hfirst (l : List HistoryRow) : Numbered.pick wanted l = l.take bound := by
    rw [← Numbered.pick_lt]
    exact Numbered.pick_congr fun i _ => hwanted i
  have hshare {l : List HistoryRow} (hl : l ≠ [])
      (hfound : ∀ row ∈ l, row ∈ HistoryQuery.found db.rows
        (parseSelect (selectHistory (asStringUriOnly lib cr.peerUrl))))
      (hrecent : ∀ row ∈ l, row ∈ db.recent lib cr) :=
    length_found_eq (hfound _ (List.head_mem hl)) (hrecent _ (List.head_mem hl))
  rw [← pick_found_iff, hfirst, hfirst]
  generalize HistoryQuery.found db.rows
    (parseSelect (selectHistory (asStringUriOnly lib cr.peerUrl))) = found at hshare ⊢
  by_cases hsize : bound < (db.recent lib cr).length
  · refine iff_of_false (fun h => ?_) fun h => h.2 hsize
    have hlength := congrArg List.length h
    rw [List.length_take, Nat.min_eq_left (Nat.le_of_lt hsize)] at hlength
    have hne : found ≠ [] := List.ne_nil_of_length_pos (by omega)
    have heq := hshare hne (fun row hrow => hrow) fun row hrow => by
      rw [h] at hrow
      exact List.mem_of_mem_take hrow
    omega
  · rw [and_iff_left hsize, List.take_of_length_le (l := db.recent lib cr) (by omega)]
    constructor
    · intro h
      rw [h, List.take_of_length_le (by omega)]
    · intro h
      by_cases hle : found.length ≤ bound
      · rwa [List.take_of_length_le hle] at h
      · have hlength := congrArg List.length h
        rw [List.length_take] at hlength
        have hne : db.recent lib cr ≠ [] := List.ne_nil_of_length_pos (by omega)
        have heq := hshare hne
          (fun row hrow => by
            rw [← h] at hrow
            exact List.mem_of_mem_take hrow)
          fun row hrow => hrow
        omega

/-- **The messages that are asked for are returned exactly when a statement that was cut does not
matter to them and the sum for the limit does not overflow.** -/
theorem messagesReturned_iff (lib : BelleSip) (now : Int) (db : MessageTable) (cr : TransientRoom)
    (heap : MessageHeap) (request : HistoryRequest) :
    (request.result lib now cr db heap).Returns lib now cr db heap request ↔
      db.CutHarmless lib cr request.Wanted ∧
        ¬request.Overflows (db.recent lib cr).length := by
  rw [returns_iff, answer_eq_pick, parseSelect_query]
  rcases asks_request (asStringUriOnly lib cr.peerUrl) request with
    ⟨hasks, hover⟩ | ⟨hasks, hwanted, hover⟩
  · rw [Numbered.pick_congr fun i _ => hasks i, pick_found_iff]
    exact (and_iff_left (hover _)).symm
  · -- the limit is below zero
    rw [Numbered.pick_of_forall fun i _ => hasks i, hover]
    exact found_eq_pick_iff (by decide) hwanted

/-- What a range takes from the rows that are found. -/
theorem pick_wanted_range (startm endm : Int) (ordered : List HistoryRow) {p : Nat → Prop}
    [DecidablePred p] (hp : ∀ i : Nat, p i ↔
      max startm 0 ≤ i ∧ (endm < 0 ∨ endm < startm ∨ i ≤ endm)) :
    Numbered.pick p ordered =
      if 0 < endm ∧ max startm 0 ≤ endm ∨ max startm 0 = 0 ∧ endm = 0 then
        (ordered.drop (max startm 0).toNat).take (endm + 1 - max startm 0).toNat
      else ordered.drop (max startm 0).toNat := by
  split
  · rename_i hlimited
    rw [← Numbered.pick_between]
    exact Numbered.pick_congr fun i _ => (hp i).trans (by omega)
  · rename_i hopen
    rw [← Numbered.pick_from]
    exact Numbered.pick_congr fun i _ => (hp i).trans (by omega)

/-- **Without transient messages a range is the one of the rows**, when the sum does not
overflow. -/
theorem messagesHist_eq {startm endm : Int32} (s : MessageStorage) (hs : s.rows = db.rows)
    (hnone : cr.transientMessages = [])
    (hsum : ¬(startm.toInt ≤ 0 ∧ endm.toInt = 2 ^ 31 - 1)) :
    (cr.getHistoryRange lib now db heap startm endm).messagesHist =
      (getHistoryRange lib now s cr.toChatRoom startm.toInt endm.toInt).map .created := by
  have hrow : HistoryMessage.ofRow lib now cr heap =
      fun row => .created (createChatMessage lib now row) := by
    funext row
    unfold HistoryMessage.ofRow TransientRoom.getTransientMessage
    rw [hnone]
    rfl
  have hstatement (peer : String) :
      (historyQuery peer startm endm).statement = selectHistory peer := rfl
  unfold TransientRoom.getHistoryRange getHistoryRange
  simp only [foldl_read, hrow, answer_eq_pick, List.append_nil, hstatement,
    Numbered.pick_congr fun i _ => (asks_range _ i).trans (or_iff_right hsum)]
  cases hselect : parseSelect (selectHistory (asStringUriOnly lib cr.peerUrl)) with
  | none => rfl
  | some r =>
      obtain ⟨contact, newestFirst⟩ := r
      simp only [pick_wanted_range startm.toInt endm.toInt _
          (p := fun i => (HistoryRequest.range startm endm).Wanted i) fun i => Iff.rfl,
        hs, HistoryQuery.found, List.map_reverse, List.map_map]
      rfl

end read

/-! ## The databases of the program -/

/-- Rows are stored behind those that are there. -/
theorem sorted_ofOps (lib : BelleSip) (ops : List HistoryOp) :
    (MessageStorage.ofOps lib ops).rows.Pairwise fun row row' => row.id < row'.id := by
  have hrun : ∀ s : MessageStorage,
      s.rows.Pairwise (fun row row' => row.id < row'.id) ∧
        (∀ row ∈ s.rows, row.id ≤ s.lastRowid) →
      (ops.foldl (MessageStorage.after lib) s).rows.Pairwise fun row row' => row.id < row'.id := by
    induction ops with
    | nil => exact fun s h => h.1
    | cons op ops ih =>
        intro s h
        refine ih _ ?_
        cases op with
        | store cr msg =>
            change (s.store lib cr msg).rows.Pairwise _ ∧
              ∀ row ∈ (s.store lib cr msg).rows, row.id ≤ (s.store lib cr msg).lastRowid
            by_cases hlocal : msg.localAddress = none
            · rw [store_of_none hlocal]
              exact h
            · obtain ⟨x, hid, -, -, heq⟩ := store_of_ne_none lib s cr hlocal
              have hid' : (x.row lib).id = s.lastRowid + 1 := hid
              rw [heq]
              refine ⟨List.pairwise_append.mpr ⟨h.1, List.pairwise_singleton _ _, ?_⟩, ?_⟩
              · intro row hrow row' hrow'
                have hle := h.2 row hrow
                rw [List.mem_singleton.mp hrow', hid']
                omega
              · intro row hrow
                rcases List.mem_append.mp hrow with hold | hnew
                · exact Nat.le_succ_of_le (h.2 row hold)
                · rw [List.mem_singleton.mp hnew]
                  exact Nat.le_of_eq hid'
        | deleteMessage storageId =>
            exact ⟨h.1.filter _, fun row hrow => h.2 row (List.mem_filter.mp hrow).1⟩
        | deleteHistory cr =>
            exact ⟨h.1.filter _, fun row hrow => h.2 row (List.mem_filter.mp hrow).1⟩
  exact hrun {} ⟨List.Pairwise.nil, by simp⟩

/-- The database after some operations on it. -/
def MessageTable.ofOps (lib : BelleSip) (ops : List HistoryOp) : MessageTable where
  rows := (MessageStorage.ofOps lib ops).rows
  sorted := sorted_ofOps lib ops
  filled := by
    intro row hrow
    rw [(inv_ofOps ops).rows] at hrow
    obtain ⟨x, -, rfl⟩ := List.mem_map.mp hrow
    exact ⟨nofun, nofun, nofun⟩

/-! ## A long peer -/

/-- A peer whose statement does not fit. -/
def longUri : SipUri :=
  { user := some (String.ofList (List.replicate 480 'a')), host := some "sip.example.org" }

theorem length_quote_user (uris : List SipUri) {uri : SipUri}
    (h : 464 < (uri.user.getD "").length) :
    466 < (Quote.quote (asStringUriOnly (someUsers uris) { uri := .sip uri }).toList).length := by
  have hmarshal : (uri.user.getD "").length ≤ ((someUsers uris).marshal (.sip uri)).length := by
    simp only [BelleSip.marshal, someUsers, String.length_append]
    omega
  have hle := Quote.length_le_escape (asStringUriOnly (someUsers uris) { uri := .sip uri }).toList
  rw [Quote.length_quote]
  refine Nat.lt_of_lt_of_le ?_ (Nat.add_le_add_right hle 2)
  unfold asStringUriOnly
  rw [String.toList_ofList, List.length_take, String.length_toList]
  change 466 < min 1023 ((someUsers uris).marshal (.sip uri)).length + 2
  omega

theorem length_longUser : 464 < (longUri.user.getD "").length := by
  change 464 < (String.ofList (List.replicate 480 'a')).length
  rw [String.length_ofList, List.length_replicate]
  decide

theorem recent_helloFrom (lib : BelleSip) (uri : SipUri) :
    0 < ((MessageTable.ofOps lib (helloFrom [uri])).recent lib
      { peerUrl := { uri := .sip uri } }).length := by
  have hrow : StoredMessage.row lib
      ⟨1, { peerUrl := { uri := .sip uri } }, helloMessage uri, _, rfl⟩ ∈
      (MessageTable.ofOps lib (helloFrom [uri])).recent lib { peerUrl := { uri := .sip uri } } :=
    mem_recent.mpr ⟨List.mem_singleton_self _, rfl⟩
  exact List.length_pos_of_mem hrow

/-- A message that was received from a long peer is not in the history. -/
theorem not_returns_of_long (lib : BelleSip) (uri : SipUri) (now : Int) (heap : MessageHeap)
    (hlong : 466 < (Quote.quote (asStringUriOnly lib { uri := .sip uri }).toList).length) :
    ¬((HistoryRequest.history 0).result lib now { peerUrl := { uri := .sip uri } }
      (.ofOps lib (helloFrom [uri])) heap).Returns lib now { peerUrl := { uri := .sip uri } }
        (.ofOps lib (helloFrom [uri])) heap (.history 0) := by
  have hall (i : Nat) : (HistoryRequest.history 0).Wanted i := .inl (by decide)
  have hasks (i : Nat) :
      ((HistoryRequest.history 0).query (asStringUriOnly lib { uri := .sip uri })).Asks i := by
    rcases asks_request (asStringUriOnly lib { uri := .sip uri }) (.history 0) with
      ⟨hasks, -⟩ | ⟨hasks, -⟩
    · exact (hasks i).mpr (hall i)
    · exact hasks i
  rw [returns_iff, answer_eq_pick,
    Numbered.pick_congr fun i _ => iff_of_true (hasks i) (hall i), parseSelect_query,
    pick_found_iff]
  exact mt (not_wanted_of_long hlong) fun h => h 0 (recent_helloFrom lib uri) (hall 0)

/-- A peer with a user of 480 characters. -/
theorem long_peer_has_no_history :
    ¬∀ (lib : BelleSip) (now : Int) (db : MessageTable) (cr : TransientRoom) (heap : MessageHeap)
      (request : HistoryRequest),
      (request.result lib now cr db heap).Returns lib now cr db heap request := fun h =>
  not_returns_of_long (someUsers [longUri, paulineUri]) longUri 0 ⟨fun _ => 0, fun _ => 0⟩
    (length_quote_user _ length_longUser) (h _ _ _ _ _ _)

end Linphone
