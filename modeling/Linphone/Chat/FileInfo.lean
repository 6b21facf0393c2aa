import Linphone.Chat.History
import Linphone.Chat.Incoming
import Linphone.Core.Content
import Linphone.Lib.LastWrite
import Linphone.Registration.AccountCreator

/-!
# Files that are announced

`linphone_core_message_received` (`coreapi/chat.c`) for a message whose body describes a file. What
libxml2 finds in a body, of whatever kind of node, and the decoder of base 64 are parameters. A
string is read by its characters, each of one byte.

`fileReceived_iff`: the body is walked through without reading what is not there, and one message
is stored with what the description of the file says, exactly if each size, key and type of content
has a text, that of a type has a slash, the size is one of a `long`, and the key fills the buffer
that was taken for it. `slashless_undefined` is a file whose type has no slash.
-/

namespace Linphone

open HeapM

/-! ## Libraries -/

/-- libxml2: the root of a body, the name of a node, its children and an attribute, and the text
among some nodes. -/
structure LibXml (Node : Type) where
  parseDoc : List UInt8 → Option Node
  name : Node → String
  children : Node → List Node
  prop : Node → String → Option (List Char)
  nodeListGetString : List Node → Option (List Char)

/-- `b64_decode`: the length that is told without a buffer, the bytes that a text stands for, and
what is in a buffer of that length afterwards. -/
structure Base64Decoder where
  length : List Char → Nat
  decode : List Char → Option (List UInt8)
  buffer : List Char → List UInt8
  length_buffer : ∀ s, (buffer s).length = length s
  decode_begins : ∀ s key, decode s = some key → key <+: buffer s

/-- The bytes of a string. -/
def asBytes (s : List Char) : List UInt8 := s.map Char.toUInt8

/-- `strtol` to the base 10, where a `long` is at most `longMax`. -/
def strtol (longMax : Nat) (s : List Char) : Int :=
  max (-(longMax + 1)) (min longMax (((Scan.number s).map Prod.fst).getD 0))

/-- A `long` as a `size_t`. -/
def asSize (longMax : Nat) (n : Int) : Nat := (n % (2 * (longMax + 1))).toNat

/-- A string that is read has to be there. -/
def HeapM.deref {α : Type} (s : Option α) : HeapM α := fun next => s.map (·, next)

/-! ## Description of a file -/

/-- What follows the first slash. -/
def afterSlash (s : List Char) : Option (List Char) :=
  match s.dropWhile (· ≠ '/') with
  | [] => none
  | _ :: subtype => some subtype

namespace LinphoneContent

variable (content : LinphoneContent)

def takeSize (longMax : Nat) (fileSizeString : Option (List Char)) : HeapM LinphoneContent := do
  let fileSizeString ← deref fileSizeString
  return content.setSize (asSize longMax (strtol longMax fileSizeString))

/-- Without a slash the subtype is read behind the end of the string. -/
def takeContentType (contentType : Option (List Char)) : HeapM LinphoneContent := do
  let contentType ← deref contentType
  let type := contentType.takeWhile (· ≠ '/')
  let subtype ← deref (afterSlash contentType)
  let content ← content.setType (some (asBytes type))
  content.setSubtype (some (asBytes subtype))

def takeKey (b64 : Base64Decoder) (keyb64 : Option (List Char)) : HeapM LinphoneContent := do
  let keyb64 ← deref keyb64
  content.setKey (some (b64.buffer keyb64)) (b64.length keyb64)

end LinphoneContent

/-- What was read of a description. -/
structure FileWalk where
  content : LinphoneContent := {}
  fileUrl : Option (List Char) := none

section walk

variable {Node : Type} (lib : LibXml Node) (b64 : Base64Decoder) (longMax : Nat)

def LibXml.childrenText (cur : Node) : Option (List Char) :=
  lib.nodeListGetString (lib.children cur)

/-- A child of `file-info`. -/
def FileWalk.child (walk : FileWalk) (cur : Node) : HeapM FileWalk := do
  if lib.name cur = "file-size" then
    return { walk with content := ← walk.content.takeSize longMax (lib.childrenText cur) }
  else if lib.name cur = "file-name" then
    return { walk with content := ← walk.content.setName ((lib.childrenText cur).map asBytes) }
  else if lib.name cur = "content-type" then
    return { walk with content := ← walk.content.takeContentType (lib.childrenText cur) }
  else if lib.name cur = "data" then
    return { walk with fileUrl := lib.prop cur "url" }
  else if lib.name cur = "file-key" then
    return { walk with content := ← walk.content.takeKey b64 (lib.childrenText cur) }
  else return walk

def LibXml.isFileInfo (cur : Node) : Bool :=
  lib.name cur = "file-info" && lib.prop cur "type" = some "file".toList

/-- The children of the first `file-info` for a file, where the walk through the body ends. -/
def LibXml.fileInfo (body : Option (List UInt8)) : List Node :=
  match body.bind lib.parseDoc with
  | some root => ((lib.children root).find? lib.isFileInfo).elim [] lib.children
  | none => []

/-- The walk through a body. -/
def walkBody (body : Option (List UInt8)) : HeapM FileWalk :=
  (lib.fileInfo body).foldlM (FileWalk.child lib b64 longMax) {}

/-! ## Reception -/

/-- A message in memory. -/
structure ReceivedMessage where
  chatRoom : ChatRoom
  message : Option (List UInt8)
  contentType : Option String := none
  fileTransferInformation : Option LinphoneContent := none
  externalBodyUrl : Option (List Char) := none
  fromAddress : LinphoneAddress
  toAddress : LinphoneAddress
  time : Int
  state : LinphoneChatMessageState := .delivered
  isRead : Bool := false
  dir : LinphoneChatMessageDir := .incoming
  customHeaders : Option (List (String × String))

/-- The core and the operation of a message: the address the message names, and the one of the
operation or, without one, of the core. -/
structure ReceivingCore where
  chatrooms : List ChatRoom
  sender : LinphoneAddress
  recipient : LinphoneAddress
  recvCustomHeaders : Option (List (String × String)) := none

/-- `linphone_core_get_chat_room` of the sender. -/
def ReceivingCore.chatRoom (core : ReceivingCore) : ChatRoom :=
  (getChatRoom core.chatrooms core.sender.clean).getD ⟨core.sender.clean⟩

/-- `linphone_core_message_received`: the messages it hands to `linphone_chat_message_store`. -/
def coreMessageReceived (core : ReceivingCore) (salMsg : SalMessage) :
    HeapM (List ReceivedMessage) := do
  let cr := core.chatRoom
  let msg : ReceivedMessage :=
    { chatRoom := cr, message := none, fromAddress := cr.peerUrl, toAddress := core.recipient
      time := salMsg.time, customHeaders := core.recvCustomHeaders }
  let msg ←
    match salMsg.contentType with
    | some contentType => do
      let walk ← walkBody lib b64 longMax salMsg.text
      pure { msg with
        contentType := some contentType, fileTransferInformation := some walk.content
        externalBodyUrl := walk.fileUrl }
    | none => pure { msg with message := salMsg.text }
  let msg := if salMsg.url.isSome then { msg with externalBodyUrl := salMsg.url } else msg
  return [msg]

/-! ## What is expected of a reception -/

/-- A message about a file; the SAL gives it no URL. -/
structure FileMessage extends SalMessage where
  transfer : contentType ≠ none
  url_eq : url = none

/-- The last child with a name among the children of `file-info`. -/
def LibXml.fileText (name : String) (children : List Node) : Option (List Char) :=
  (LastWrite.last lib.name name children).bind lib.childrenText

/-- The size that a text tells, which is none when it is negative. -/
def sizeTold (s : List Char) : Nat := (((Scan.number s).map Prod.fst).getD 0).toNat

/-- A content and a URL are those of a description; what it does not tell is not set. -/
structure DescribesFile (children : List Node) (walk : FileWalk) : Prop where
  size : walk.content.size = (lib.fileText "file-size" children).elim 0 sizeTold
  name : text walk.content.name = (lib.fileText "file-name" children).map asBytes
  type : text walk.content.type =
    (lib.fileText "content-type" children).map fun s => asBytes (s.takeWhile (· ≠ '/'))
  subtype : text walk.content.subtype =
    ((lib.fileText "content-type" children).bind afterSlash).map asBytes
  key : text walk.content.key = (lib.fileText "file-key" children).bind b64.decode
  url : walk.fileUrl = (LastWrite.last lib.name "data" children).bind (lib.prop · "url")

/-- One message is stored, and it describes the file. -/
def FileReceived (core : ReceivingCore) (message : FileMessage) (next : Nat) : Prop :=
  Returns (coreMessageReceived lib b64 longMax core message.toSalMessage next) fun r =>
    ∃ msg content, r.1 = [msg] ∧ msg.fileTransferInformation = some content ∧
      DescribesFile lib b64 (lib.fileInfo message.text) ⟨content, msg.externalBodyUrl⟩

/-- The strings that are read of a child are there. -/
structure LibXml.Readable (cur : Node) : Prop where
  size : lib.name cur = "file-size" → lib.childrenText cur ≠ none
  contentType : lib.name cur = "content-type" →
    ∃ s, lib.childrenText cur = some s ∧ afterSlash s ≠ none
  key : lib.name cur = "file-key" → lib.childrenText cur ≠ none

/-- The children can be read, the size is a `long`, and the key fills the buffer. -/
structure LibXml.WellDescribed (children : List Node) : Prop where
  readable : ∀ cur ∈ children, lib.Readable cur
  size : ∀ s, lib.fileText "file-size" children = some s →
    ∀ n rest, Scan.number s = some (n, rest) → 0 ≤ n ∧ n ≤ longMax
  key : ∀ s, lib.fileText "file-key" children = some s →
    ∃ key, b64.decode s = some key ∧ key.length = b64.length s

end walk

/-! ## One child -/

variable {Node : Type} {lib : LibXml Node} {b64 : Base64Decoder} {longMax next : Nat} {cur : Node}

theorem HeapM.bind_returns {α β : Type} {m : HeapM α} {f : α → HeapM β} {P : α × Nat → Prop}
    {R : β × Nat → Prop} (h : Returns (m next) P) (hf : ∀ r, P r → Returns (f r.1 r.2) R) :
    Returns ((m >>= f) next) R :=
  Returns.bind h hf

theorem HeapM.deref_returns {α : Type} {s : Option α} {a : α} (h : s = some a) :
    Returns (deref s next) fun r => r.1 = a := by
  rw [h]
  exact Returns.some rfl

theorem HeapM.of_deref {α : Type} {s : Option α} {r : α × Nat} (h : deref s next = some r) :
    s = some r.1 := by
  obtain ⟨a, hs, rfl⟩ := Option.map_eq_some_iff.mp h
  exact hs

namespace LinphoneContent

variable (content : LinphoneContent) (next : Nat)

theorem takeSize_returns (s : List Char) :
    Returns (content.takeSize longMax (some s) next) fun r =>
      r.1 = content.setSize (asSize longMax (strtol longMax s)) :=
  Returns.some rfl

theorem setName_text (name : Option (List UInt8)) :
    Returns (content.setName name next) fun r =>
      ∃ b, r.1 = { content with name := b } ∧ text b = name := by
  cases name with
  | none => exact Returns.some ⟨none, rfl, rfl⟩
  | some name => exact Returns.some ⟨some ⟨next, name⟩, rfl, rfl⟩

theorem takeContentType_returns {s subtype : List Char} (h : afterSlash s = some subtype) :
    Returns (content.takeContentType (some s) next) fun r =>
      ∃ b b', r.1 = { content with type := b, subtype := b' } ∧
        text b = some (asBytes (s.takeWhile (· ≠ '/'))) ∧ text b' = some (asBytes subtype) := by
  refine bind_returns (deref_returns rfl) ?_
  rintro ⟨_, n⟩ rfl
  refine bind_returns (deref_returns h) ?_
  rintro ⟨_, n⟩ rfl
  exact Returns.some ⟨_, _, rfl, rfl, rfl⟩

/-- The buffer has the length that was asked for. -/
theorem takeKey_returns (s : List Char) :
    Returns (content.takeKey b64 (some s) next) fun r =>
      ∃ b, r.1 = { content with key := b } ∧ text b = some (b64.buffer s) := by
  have hread : ∀ n, Returns (HeapM.read (b64.buffer s) (b64.length s) n) fun r =>
      r.1 = b64.buffer s := by
    intro n
    rw [HeapM.read, if_pos (Nat.le_of_eq (b64.length_buffer s).symm), ← b64.length_buffer s]
    exact Returns.some List.take_length
  refine bind_returns (deref_returns rfl) ?_
  rintro ⟨_, n⟩ rfl
  refine bind_returns (hread n) ?_
  rintro ⟨_, n⟩ rfl
  exact Returns.some ⟨_, rfl, rfl⟩

end LinphoneContent

/-- What a child that can be read does to each of the values. -/
structure FileWalk.Stepped (lib : LibXml Node) (b64 : Base64Decoder) (longMax : Nat) (cur : Node)
    (walk walk' : FileWalk) : Prop where
  size : walk'.content.size =
    if lib.name cur = "file-size" then
      (lib.childrenText cur).elim 0 fun s => asSize longMax (strtol longMax s)
    else walk.content.size
  name : text walk'.content.name =
    if lib.name cur = "file-name" then (lib.childrenText cur).map asBytes
    else text walk.content.name
  type : text walk'.content.type =
    if lib.name cur = "content-type" then
      (lib.childrenText cur).map fun s => asBytes (s.takeWhile (· ≠ '/'))
    else text walk.content.type
  subtype : text walk'.content.subtype =
    if lib.name cur = "content-type" then
      ((lib.childrenText cur).bind afterSlash).map asBytes
    else text walk.content.subtype
  key : text walk'.content.key =
    if lib.name cur = "file-key" then (lib.childrenText cur).map b64.buffer
    else text walk.content.key
  url : walk'.fileUrl = if lib.name cur = "data" then lib.prop cur "url" else walk.fileUrl

theorem FileWalk.child_returns (h : lib.Readable cur) (walk : FileWalk) (next : Nat) :
    Returns (child lib b64 longMax walk cur next) fun r =>
      Stepped lib b64 longMax cur walk r.1 := by
  rw [child]
  by_cases hsize : lib.name cur = "file-size"
  · obtain ⟨s, hs⟩ := Option.ne_none_iff_exists'.mp (h.size hsize)
    rw [if_pos hsize, hs]
    refine bind_returns (walk.content.takeSize_returns next s) ?_
    rintro ⟨_, n⟩ rfl
    refine Returns.some ?_
    constructor <;> simp [hsize, hs, LinphoneContent.setSize]
  rw [if_neg hsize]
  by_cases hname : lib.name cur = "file-name"
  · rw [if_pos hname]
    refine bind_returns (walk.content.setName_text next _) ?_
    rintro ⟨_, n⟩ ⟨b, rfl, hb⟩
    refine Returns.some ?_
    constructor <;> simp [hname, hb]
  rw [if_neg hname]
  by_cases htype : lib.name cur = "content-type"
  · obtain ⟨s, hs, hslash⟩ := h.contentType htype
    obtain ⟨subtype, hsubtype⟩ := Option.ne_none_iff_exists'.mp hslash
    rw [if_pos htype, hs]
    refine bind_returns (walk.content.takeContentType_returns next hsubtype) ?_
    rintro ⟨_, n⟩ ⟨b, b', rfl, hb, hb'⟩
    refine Returns.some ?_
    constructor <;> simp [htype, hs, hb, hb', hsubtype]
  rw [if_neg htype]
  by_cases hdata : lib.name cur = "data"
  · rw [if_pos hdata]
    refine Returns.some ?_
    constructor <;> simp [hdata]
  rw [if_neg hdata]
  by_cases hkey : lib.name cur = "file-key"
  · obtain ⟨s, hs⟩ := Option.ne_none_iff_exists'.mp (h.key hkey)
    rw [if_pos hkey, hs]
    refine bind_returns (walk.content.takeKey_returns next s) ?_
    rintro ⟨_, n⟩ ⟨b, rfl, hb⟩
    refine Returns.some ?_
    constructor <;> simp [hkey, hs, hb]
  rw [if_neg hkey]
  refine Returns.some ?_
  constructor <;> simp [hsize, hname, htype, hdata, hkey]

/-- A child that is walked over can be read. -/
theorem FileWalk.readable_of_child {walk : FileWalk} {r : FileWalk × Nat}
    (h : child lib b64 longMax walk cur next = some r) : lib.Readable cur := by
  rw [child] at h
  refine ⟨fun hsize => ?_, fun htype => ?_, fun hkey => ?_⟩
  · rw [if_pos hsize] at h
    obtain ⟨content, n, h, -⟩ := bind_eq_some.mp h
    obtain ⟨s, n, hs, -⟩ := bind_eq_some.mp h
    exact Option.ne_none_iff_exists'.mpr ⟨s, of_deref hs⟩
  · rw [if_neg (by simp [htype]), if_neg (by simp [htype]), if_pos htype] at h
    obtain ⟨content, n, h, -⟩ := bind_eq_some.mp h
    obtain ⟨s, n, hs, h⟩ := bind_eq_some.mp h
    obtain ⟨subtype, n, hslash, -⟩ := bind_eq_some.mp h
    exact ⟨s, of_deref hs, Option.ne_none_iff_exists'.mpr ⟨subtype, of_deref hslash⟩⟩
  · rw [if_neg (by simp [hkey]), if_neg (by simp [hkey]), if_neg (by simp [hkey]),
      if_neg (by simp [hkey]), if_pos hkey] at h
    obtain ⟨content, n, h, -⟩ := bind_eq_some.mp h
    obtain ⟨s, n, hs, -⟩ := bind_eq_some.mp h
    exact Option.ne_none_iff_exists'.mpr ⟨s, of_deref hs⟩

/-! ## All children -/

variable {children : List Node} {walk walk' : FileWalk}

/-- The last child with its name sets a value. -/
structure FileWalk.Walked (lib : LibXml Node) (b64 : Base64Decoder) (longMax : Nat)
    (children : List Node) (walk walk' : FileWalk) : Prop where
  size : walk'.content.size =
    (LastWrite.last lib.name "file-size" children).elim walk.content.size fun cur =>
      (lib.childrenText cur).elim 0 fun s => asSize longMax (strtol longMax s)
  name : text walk'.content.name =
    (LastWrite.last lib.name "file-name" children).elim (text walk.content.name) fun cur =>
      (lib.childrenText cur).map asBytes
  type : text walk'.content.type =
    (LastWrite.last lib.name "content-type" children).elim (text walk.content.type) fun cur =>
      (lib.childrenText cur).map fun s => asBytes (s.takeWhile (· ≠ '/'))
  subtype : text walk'.content.subtype =
    (LastWrite.last lib.name "content-type" children).elim (text walk.content.subtype) fun cur =>
      ((lib.childrenText cur).bind afterSlash).map asBytes
  key : text walk'.content.key =
    (LastWrite.last lib.name "file-key" children).elim (text walk.content.key) fun cur =>
      (lib.childrenText cur).map b64.buffer
  url : walk'.fileUrl =
    (LastWrite.last lib.name "data" children).elim walk.fileUrl fun cur => lib.prop cur "url"

theorem FileWalk.Stepped.cons {walk₁ : FileWalk} (h : Stepped lib b64 longMax cur walk walk₁)
    (h' : Walked lib b64 longMax children walk₁ walk') :
    Walked lib b64 longMax (cur :: children) walk walk' where
  size := by rw [h'.size, h.size, LastWrite.elim_last_cons]
  name := by rw [h'.name, h.name, LastWrite.elim_last_cons]
  type := by rw [h'.type, h.type, LastWrite.elim_last_cons]
  subtype := by rw [h'.subtype, h.subtype, LastWrite.elim_last_cons]
  key := by rw [h'.key, h.key, LastWrite.elim_last_cons]
  url := by rw [h'.url, h.url, LastWrite.elim_last_cons]

theorem walk_returns (h : ∀ cur ∈ children, lib.Readable cur) (walk : FileWalk) (next : Nat) :
    Returns (children.foldlM (FileWalk.child lib b64 longMax) walk next) fun r =>
      FileWalk.Walked lib b64 longMax children walk r.1 := by
  induction children generalizing walk next with
  | nil => exact Returns.some ⟨rfl, rfl, rfl, rfl, rfl, rfl⟩
  | cons cur children ih =>
    rw [List.foldlM_cons]
    refine bind_returns (walk.child_returns (h cur List.mem_cons_self) next) fun r hr => ?_
    exact (ih (fun cur' h' => h cur' (List.mem_cons_of_mem cur h')) r.1 r.2).mono fun _ hr' =>
      hr.cons hr'

theorem readable_of_walk {r : FileWalk × Nat}
    (h : children.foldlM (FileWalk.child lib b64 longMax) walk next = some r) :
    ∀ cur ∈ children, lib.Readable cur := by
  induction children generalizing walk next with
  | nil =>
    intro cur hcur
    exact absurd hcur List.not_mem_nil
  | cons cur children ih =>
    rw [List.foldlM_cons] at h
    obtain ⟨walk', n, hchild, h⟩ := bind_eq_some.mp h
    intro cur' hcur'
    rcases List.mem_cons.mp hcur' with rfl | hcur'
    · exact FileWalk.readable_of_child hchild
    · exact ih h cur' hcur'

/-! ## Values -/

theorem asSize_eq_iff (n : Int) :
    asSize longMax (max (-(longMax + 1)) (min longMax n)) = n.toNat ↔ 0 ≤ n ∧ n ≤ longMax := by
  constructor
  · intro h
    by_cases hn : n < 0
    · exfalso
      have hmod : max (-(longMax + 1 : Int)) (min longMax n) % (2 * (longMax + 1)) =
          max (-(longMax + 1 : Int)) (min longMax n) + 2 * (longMax + 1) := by
        rw [← Int.add_emod_right, Int.emod_eq_of_lt] <;> omega
      rw [asSize, hmod] at h
      omega
    · refine ⟨by omega, ?_⟩
      rw [asSize, Int.emod_eq_of_lt (by omega) (by omega)] at h
      omega
  · rintro ⟨hn, hmax⟩
    rw [asSize, Int.emod_eq_of_lt (by omega) (by omega)]
    omega

/-- The size is the one that is told exactly if a number that is read is a `long`. -/
theorem asSize_strtol_iff (s : List Char) :
    asSize longMax (strtol longMax s) = sizeTold s ↔
      ∀ n rest, Scan.number s = some (n, rest) → 0 ≤ n ∧ n ≤ longMax := by
  rw [strtol, sizeTold]
  cases hs : Scan.number s with
  | none =>
    refine iff_of_true ?_ (by simp)
    exact (asSize_eq_iff 0).mpr ⟨Int.le_refl 0, Int.natCast_nonneg longMax⟩
  | some r =>
    refine (asSize_eq_iff r.1).trans ⟨?_, fun h => h r.1 r.2 rfl⟩
    rintro h n rest hr
    cases hr
    exact h

theorem buffer_eq_iff (s : List Char) :
    some (b64.buffer s) = b64.decode s ↔
      ∃ key, b64.decode s = some key ∧ key.length = b64.length s := by
  constructor
  · intro h
    exact ⟨b64.buffer s, h.symm, b64.length_buffer s⟩
  · rintro ⟨key, hkey, hlength⟩
    have heq := (b64.decode_begins s key hkey).eq_of_length
      (hlength.trans (b64.length_buffer s).symm)
    rw [hkey, heq]

theorem elim_last_eq {β : Type} (name : String) (b : β) (f : Option (List Char) → β)
    (hf : f none = b) :
    (LastWrite.last lib.name name children).elim b (fun cur => f (lib.childrenText cur)) =
      f (lib.fileText name children) := by
  rw [LibXml.fileText]
  cases LastWrite.last lib.name name children with
  | none => exact hf.symm
  | some cur => rfl

theorem FileWalk.Walked.describes_iff (h : Walked lib b64 longMax children {} walk) :
    DescribesFile lib b64 children walk ↔
      (∀ s, lib.fileText "file-size" children = some s →
        ∀ n rest, Scan.number s = some (n, rest) → 0 ≤ n ∧ n ≤ longMax) ∧
      ∀ s, lib.fileText "file-key" children = some s →
        ∃ key, b64.decode s = some key ∧ key.length = b64.length s := by
  have hsize := h.size.trans (elim_last_eq "file-size" _
    (fun text => text.elim 0 fun s => asSize longMax (strtol longMax s)) rfl)
  have hkey := h.key.trans (elim_last_eq "file-key" _ (Option.map b64.buffer) rfl)
  have hsize_iff : walk.content.size = (lib.fileText "file-size" children).elim 0 sizeTold ↔
      ∀ s, lib.fileText "file-size" children = some s →
        ∀ n rest, Scan.number s = some (n, rest) → 0 ≤ n ∧ n ≤ longMax := by
    rw [hsize]
    cases lib.fileText "file-size" children with
    | none => simp
    | some s => exact (asSize_strtol_iff s).trans (by simp)
  have hkey_iff : text walk.content.key = (lib.fileText "file-key" children).bind b64.decode ↔
      ∀ s, lib.fileText "file-key" children = some s →
        ∃ key, b64.decode s = some key ∧ key.length = b64.length s := by
    rw [hkey]
    cases lib.fileText "file-key" children with
    | none => simp
    | some s => exact (buffer_eq_iff s).trans (by simp)
  constructor
  · intro hdescribes
    exact ⟨hsize_iff.mp hdescribes.size, hkey_iff.mp hdescribes.key⟩
  · rintro ⟨hs, hk⟩
    refine ⟨hsize_iff.mpr hs, ?_, ?_, ?_, hkey_iff.mpr hk, ?_⟩
    · exact h.name.trans (elim_last_eq "file-name" _ (Option.map asBytes) rfl)
    · exact h.type.trans (elim_last_eq "content-type" _ (Option.map _) rfl)
    · exact h.subtype.trans (elim_last_eq "content-type" _
        (fun text => (text.bind afterSlash).map asBytes) rfl)
    · rw [h.url]
      cases LastWrite.last lib.name "data" children with
      | none => rfl
      | some cur => rfl

/-! ## The message -/

theorem walkBody_describes_iff (body : Option (List UInt8)) (next : Nat) :
    Returns (walkBody lib b64 longMax body next)
        (fun r => DescribesFile lib b64 (lib.fileInfo body) r.1) ↔
      lib.WellDescribed b64 longMax (lib.fileInfo body) := by
  constructor
  · rintro ⟨r, hr, hdescribes⟩
    have hreadable := readable_of_walk hr
    have hwalked := (walk_returns hreadable {} next).of_eq hr
    obtain ⟨hsize, hkey⟩ := hwalked.describes_iff.mp hdescribes
    exact ⟨hreadable, hsize, hkey⟩
  · intro h
    exact (walk_returns h.readable {} next).mono fun r hr => hr.describes_iff.mpr ⟨h.size, h.key⟩

theorem fileReceived_iff_walkBody (core : ReceivingCore) (message : FileMessage) (next : Nat) :
    FileReceived lib b64 longMax core message next ↔
      Returns (walkBody lib b64 longMax message.text next) fun r =>
        DescribesFile lib b64 (lib.fileInfo message.text) r.1 := by
  obtain ⟨contentType, htype⟩ := Option.ne_none_iff_exists'.mp message.transfer
  rw [FileReceived, coreMessageReceived, htype, message.url_eq]
  constructor
  · rintro ⟨r, hr, hmsg⟩
    obtain ⟨walk, n, hwalk, hr⟩ := bind_eq_some.mp hr
    cases hr
    obtain ⟨msg, content, heq, hcontent, hdescribes⟩ := hmsg
    cases heq
    cases hcontent
    exact ⟨_, hwalk, hdescribes⟩
  · intro h
    exact bind_returns h fun r hr => Returns.some ⟨_, r.1.content, rfl, rfl, hr⟩

/-- **A message about a file is stored as its body describes it exactly if each size, key and type
of content has its text, the size is a `long`, and the key fills its buffer.** -/
theorem fileReceived_iff (core : ReceivingCore) (message : FileMessage) (next : Nat) :
    FileReceived lib b64 longMax core message next ↔
      lib.WellDescribed b64 longMax (lib.fileInfo message.text) :=
  (fileReceived_iff_walkBody core message next).trans (walkBody_describes_iff message.text next)

theorem externalUrl_of_transfer {contentType : ContentType}
    (h : contentType.isRcsFiletransfer = true) : contentType.externalUrl = .ok none := by
  have htype : contentType.type = "application" := by
    simp only [ContentType.isRcsFiletransfer, Bool.and_eq_true, decide_eq_true_eq] at h
    exact h.1
  rw [ContentType.externalUrl, if_neg (by simp [ContentType.isExternalBody, htype])]

/-- The SAL gives a message about a file no URL. -/
theorem salMessage_url {now : Int} {req : MessageRequest} {contentType : ContentType}
    {decryptedMessage : Option (List UInt8)} {id : List Char × UInt32} {msg : SalMessage}
    (h : salMessage now req contentType decryptedMessage = .ok (id, msg))
    (htransfer : msg.contentType ≠ none) : msg.url = none := by
  rw [salMessage] at h
  obtain ⟨sender, -, h⟩ := Outcome.bind_eq_ok.mp h
  obtain ⟨callId, -, h⟩ := Outcome.bind_eq_ok.mp h
  obtain ⟨cseq, -, h⟩ := Outcome.bind_eq_ok.mp h
  obtain ⟨url, hurl, h⟩ := Outcome.bind_eq_ok.mp h
  cases h
  by_cases hrcs : contentType.isRcsFiletransfer = true
  · rw [externalUrl_of_transfer hrcs] at hurl
    cases hurl
    rfl
  · exact absurd (if_neg hrcs) htransfer

/-! ## A type without a slash -/

/-- libxml2 with a document that was read. -/
def LibXml.ofTree (doc : Xml.Node) : LibXml Xml.Node where
  parseDoc := fun _ => some doc
  name
    | .element name _ _ => name
    | .text _ => "text"
    | .reference => ""
  children := nodeChildren
  prop
    | .element _ attrs _, name => ((attrs.lookup name).join).map String.toList
    | _, _ => none
  nodeListGetString nodes := (Linphone.nodeListGetString nodes).map String.toList

/-- No text stands for bytes. -/
def Base64Decoder.empty : Base64Decoder where
  length := fun _ => 0
  decode := fun _ => none
  buffer := fun _ => []
  length_buffer := fun _ => rfl
  decode_begins := fun _ _ h => nomatch h

def slashless : Xml.Node :=
  .element "file" [] [.element "file-info" [("type", some "file")]
    [.element "content-type" [] [.text "image"]]]

def slashlessMessage : FileMessage where
  sender := "sip:a@example.org"
  text := some ("<file><file-info type=\"file\"><content-type>image</content-type>".toUTF8.toList ++
    "</file-info></file>".toUTF8.toList)
  url := none
  messageId := "1".toList
  time := 0
  contentType := some "application/vnd.gsma.rcs-ft-http+xml"
  transfer := by decide
  url_eq := rfl

theorem slashless_undefined :
    ¬FileReceived (.ofTree slashless) .empty (2 ^ 63 - 1)
      { chatrooms := [], sender := { uri := .absolute "sip:a@example.org" }
        recipient := { uri := .absolute "sip:b@example.org" } } slashlessMessage 0 := by
  rintro ⟨r, hr, -⟩
  exact absurd (Option.isSome_iff_exists.mpr ⟨r, hr⟩) (by decide +kernel)

end Linphone
