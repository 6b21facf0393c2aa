import Linphone.Lib.Returns

/-!
# Contents

`LinphoneContent` (`coreapi/content.c`): its setters, its copies and its way to a `SalBody` and
back. A content has two strings of bytes, the buffer and the key, with a length each. The setter of
the key does not set its length; that of the size leaves the buffer as it is.

A block of memory is kept with its address, so that a copy can be told from the original.
`content_kept_iff`: after any setters a content is copied and converted as it is, and knows the
length of its key, exactly if the key is empty and the size not beyond the buffer and its NUL.
-/

namespace Linphone

/-! ## Memory -/

structure Block where
  address : Nat
  bytes : List UInt8
deriving DecidableEq

/-- The next address to be given out. Reading behind a block is not defined. -/
abbrev HeapM := StateT Nat Option

theorem HeapM.bind_eq_some {α β : Type} {m : HeapM α} {f : α → HeapM β} {next : Nat}
    {r : β × Nat} : (m >>= f) next = some r ↔ ∃ a n, m next = some (a, n) ∧ f a n = some r := by
  refine Option.bind_eq_some_iff.trans ⟨?_, ?_⟩
  · rintro ⟨⟨a, n⟩, hm, hf⟩
    exact ⟨a, n, hm, hf⟩
  · rintro ⟨a, n, hm, hf⟩
    exact ⟨(a, n), hm, hf⟩

/-- `belle_sip_malloc`, and what is written to the block. -/
def HeapM.alloc (bytes : List UInt8) : HeapM Block :=
  fun next => some (⟨next, bytes⟩, next + 1)

/-- The first bytes of a block. -/
def HeapM.read (bytes : List UInt8) (size : Nat) : HeapM (List UInt8) :=
  fun next => if size ≤ bytes.length then some (bytes.take size, next) else none

/-- `belle_sip_strdup`, unless there is no string. -/
def HeapM.strdup (s : Option (List UInt8)) : HeapM (Option Block) :=
  match s with
  | some s => some <$> alloc s
  | none => pure none

/-! ## Contents -/

/-- `LinphoneContentPrivate`. The strings are kept without their NUL. -/
structure LinphoneContent where
  type : Option Block := none
  subtype : Option Block := none
  data : Option Block := none
  size : Nat := 0
  encoding : Option Block := none
  name : Option Block := none
  key : Option Block := none
  keyLength : Nat := 0
deriving DecidableEq

/-- The string in a block. -/
def text (b : Option Block) : Option (List UInt8) := b.map Block.bytes

namespace LinphoneContent

open HeapM

def setType (content : LinphoneContent) (type : Option (List UInt8)) : HeapM LinphoneContent := do
  return { content with type := ← strdup type }

def setSubtype (content : LinphoneContent) (subtype : Option (List UInt8)) :
    HeapM LinphoneContent := do
  return { content with subtype := ← strdup subtype }

def setEncoding (content : LinphoneContent) (encoding : Option (List UInt8)) :
    HeapM LinphoneContent := do
  return { content with encoding := ← strdup encoding }

def setName (content : LinphoneContent) (name : Option (List UInt8)) : HeapM LinphoneContent := do
  return { content with name := ← strdup name }

/-- The length of the key is not set. -/
def setKey (content : LinphoneContent) (key : Option (List UInt8)) (keyLength : Nat) :
    HeapM LinphoneContent :=
  match key with
  | some key => do
    let bytes ← read key keyLength
    return { content with key := some (← alloc bytes) }
  | none => return { content with key := none }

def setBuffer (content : LinphoneContent) (buffer : List UInt8) (size : Nat) :
    HeapM LinphoneContent := do
  let bytes ← read buffer size
  return { content with data := some (← alloc (bytes ++ [0])), size := size }

def setStringBuffer (content : LinphoneContent) (buffer : List UInt8) :
    HeapM LinphoneContent := do
  return { content with data := some (← alloc (buffer ++ [0])), size := buffer.length }

def setSize (content : LinphoneContent) (size : Nat) : LinphoneContent :=
  { content with size := size }

/-- `linphone_content_clone` into a new object, as `linphone_content_copy` calls it. -/
def copy (ref : LinphoneContent) : HeapM LinphoneContent := do
  let obj ← setType {} (text ref.type)
  let obj ← obj.setSubtype (text ref.subtype)
  let obj ← obj.setEncoding (text ref.encoding)
  let obj ← obj.setName (text ref.name)
  let obj ← obj.setKey (text ref.key) ref.keyLength
  match ref.data with
  | some data => obj.setBuffer data.bytes ref.size
  | none => return obj.setSize ref.size

end LinphoneContent

/-- The blocks of a body are those of the content it was made from. -/
structure SalBody where
  type : Option Block
  subtype : Option Block
  data : Option Block
  size : Nat
  encoding : Option Block

/-- `sal_body_from_content` -/
def LinphoneContent.toSalBody (content : LinphoneContent) : Option SalBody :=
  if content.type = none then none
  else some ⟨content.type, content.subtype, content.data, content.size, content.encoding⟩

/-- `linphone_content_from_sal_body` -/
def SalBody.toContent (ref : SalBody) : HeapM (Option LinphoneContent) :=
  if ref.type = none then return none
  else do
    let content ← LinphoneContent.setType {} (text ref.type)
    let content ← content.setSubtype (text ref.subtype)
    let content ← content.setEncoding (text ref.encoding)
    match ref.data with
    | some data => return some (← content.setBuffer data.bytes ref.size)
    | none => return some (content.setSize ref.size)

/-- A call of one of the setters; strings and bytes are what the caller passes. -/
inductive ContentCall
  | setType (type : Option (List UInt8))
  | setSubtype (subtype : Option (List UInt8))
  | setEncoding (encoding : Option (List UInt8))
  | setName (name : Option (List UInt8))
  | setKey (key : Option (List UInt8))
  | setBuffer (buffer : List UInt8)
  | setStringBuffer (buffer : List UInt8)
  | setSize (size : Nat)

def ContentCall.run (content : LinphoneContent) : ContentCall → HeapM LinphoneContent
  | setType type => content.setType type
  | setSubtype subtype => content.setSubtype subtype
  | setEncoding encoding => content.setEncoding encoding
  | setName name => content.setName name
  | setKey key => content.setKey key (key.elim 0 List.length)
  | setBuffer buffer => content.setBuffer buffer buffer.length
  | setStringBuffer buffer => content.setStringBuffer (buffer.takeWhile (· ≠ 0))
  | setSize size => return content.setSize size

/-- A content built with the setters. -/
def contentAfter (calls : List ContentCall) : HeapM LinphoneContent :=
  calls.foldlM ContentCall.run {}

/-! ## What is expected of a content -/

namespace LinphoneContent

/-- The bytes of the buffer, as many as the size says. -/
def buffer (content : LinphoneContent) : Option (List UInt8) :=
  content.data.map fun data => data.bytes.take content.size

def blocks (content : LinphoneContent) : List (Option Block) :=
  [content.type, content.subtype, content.data, content.encoding, content.name, content.key]

/-- What a `SalBody` has of a content. -/
structure SameBody (c d : LinphoneContent) : Prop where
  type : text d.type = text c.type
  subtype : text d.subtype = text c.subtype
  encoding : text d.encoding = text c.encoding
  size : d.size = c.size
  buffer : d.buffer = c.buffer

structure Same (c d : LinphoneContent) : Prop extends SameBody c d where
  name : text d.name = text c.name
  key : text d.key = text c.key
  keyLength : d.keyLength = c.keyLength

/-- No block is in both. -/
def Apart (c d : LinphoneContent) : Prop :=
  ∀ b b', some b ∈ c.blocks → some b' ∈ d.blocks → b.address ≠ b'.address

/-- It is copied and converted as it is, and knows the length of its key. -/
structure Kept (content : LinphoneContent) (next : Nat) : Prop where
  copied : Returns (content.copy next) fun r => content.Same r.1 ∧ content.Apart r.1
  keyLength : content.keyLength = (text content.key).elim 0 List.length
  converted : ∀ body, content.toSalBody = some body →
    Returns (body.toContent next) fun r => ∃ back, r.1 = some back ∧ content.SameBody back

end LinphoneContent

/-- The key, the buffer and the size that were set last. -/
structure ContentGiven where
  key : Option (List UInt8) := none
  buffer : Option (List UInt8) := none
  size : Nat := 0

def ContentGiven.step (given : ContentGiven) : ContentCall → ContentGiven
  | .setKey key => { given with key := key }
  | .setBuffer buffer => { given with buffer := some buffer, size := buffer.length }
  | .setStringBuffer buffer =>
    { given with
      buffer := some (buffer.takeWhile (· ≠ 0)), size := (buffer.takeWhile (· ≠ 0)).length }
  | .setSize size => { given with size := size }
  | _ => given

def contentGiven (calls : List ContentCall) : ContentGiven := calls.foldl ContentGiven.step {}

/-- The key set last is empty, and the size is not beyond the buffer and the NUL behind it. -/
structure ContentGiven.Fits (given : ContentGiven) : Prop where
  key : ∀ key, given.key = some key → key = []
  size : ∀ buffer, given.buffer = some buffer → given.size ≤ buffer.length + 1

/-! ## One setter -/

namespace LinphoneContent

open HeapM

variable {c : LinphoneContent} {lo next : Nat}

/-- The blocks have addresses from `lo` on, and below `hi`. -/
def Within (lo hi : Nat) (c : LinphoneContent) : Prop :=
  ∀ b, some b ∈ c.blocks → lo ≤ b.address ∧ b.address < hi

/-- The content that a new block gives, and where memory goes on. -/
def Sets (f : Option Block → LinphoneContent) (s : Option (List UInt8)) (lo next : Nat)
    (r : LinphoneContent × Nat) : Prop :=
  (∃ b, r.1 = f b ∧ text b = s) ∧ Within lo r.2 r.1 ∧ next ≤ r.2

theorem alloc_sets {f : Option Block → LinphoneContent} (h : Within lo next c) (hlo : lo ≤ next)
    (hf : ∀ b x, x ∈ (f b).blocks → x = b ∨ x ∈ c.blocks) (bytes : List UInt8) :
    Sets f (some bytes) lo next (f (some ⟨next, bytes⟩), next + 1) := by
  refine ⟨⟨_, rfl, rfl⟩, fun b hb => ?_, Nat.le_succ next⟩
  rcases hf _ _ hb with hb | hb
  · rw [Option.some.injEq] at hb
    subst hb
    exact ⟨hlo, Nat.lt_succ_self next⟩
  · exact ⟨(h b hb).1, Nat.lt_succ_of_lt (h b hb).2⟩

theorem strdup_sets {f : Option Block → LinphoneContent} (h : Within lo next c) (hlo : lo ≤ next)
    (hf : ∀ b x, x ∈ (f b).blocks → x = b ∨ x ∈ c.blocks) (s : Option (List UInt8)) :
    Returns ((do return f (← strdup s) : HeapM LinphoneContent) next) (Sets f s lo next) := by
  cases s with
  | none =>
    refine Returns.some ⟨⟨none, rfl, rfl⟩, fun b hb => ?_, Nat.le_refl next⟩
    rcases hf _ _ hb with hb | hb
    · exact absurd hb (by simp)
    · exact h b hb
  | some s => exact Returns.some (alloc_sets h hlo hf s)

theorem setType_returns (h : Within lo next c) (hlo : lo ≤ next) (s : Option (List UInt8)) :
    Returns (c.setType s next) (Sets (fun b => { c with type := b }) s lo next) :=
  strdup_sets h hlo (by simp [blocks]) s

theorem setSubtype_returns (h : Within lo next c) (hlo : lo ≤ next) (s : Option (List UInt8)) :
    Returns (c.setSubtype s next) (Sets (fun b => { c with subtype := b }) s lo next) :=
  strdup_sets h hlo (by simp [blocks]) s

theorem setEncoding_returns (h : Within lo next c) (hlo : lo ≤ next) (s : Option (List UInt8)) :
    Returns (c.setEncoding s next) (Sets (fun b => { c with encoding := b }) s lo next) :=
  strdup_sets h hlo (by simp [blocks]) s

theorem setName_returns (h : Within lo next c) (hlo : lo ≤ next) (s : Option (List UInt8)) :
    Returns (c.setName s next) (Sets (fun b => { c with name := b }) s lo next) :=
  strdup_sets h hlo (by simp [blocks]) s

theorem setKey_returns (h : Within lo next c) (hlo : lo ≤ next) {key : Option (List UInt8)}
    {keyLength : Nat} (hkey : ∀ k, key = some k → keyLength ≤ k.length) :
    Returns (c.setKey key keyLength next)
      (Sets (fun b => { c with key := b }) (key.map (·.take keyLength)) lo next) := by
  have hf : ∀ b x, x ∈ ({ c with key := b } : LinphoneContent).blocks → x = b ∨ x ∈ c.blocks := by
    simp [blocks]
  cases key with
  | none => exact strdup_sets h hlo hf none
  | some k =>
    have hread : read k keyLength next = some (k.take keyLength, next) := if_pos (hkey k rfl)
    refine ⟨_, ?_, alloc_sets h hlo hf (k.take keyLength)⟩
    show (read k keyLength next).bind _ = _
    rw [hread]
    rfl

theorem setBuffer_returns (h : Within lo next c) (hlo : lo ≤ next) {buffer : List UInt8}
    {size : Nat} (hsize : size ≤ buffer.length) :
    Returns (c.setBuffer buffer size next)
      (Sets (fun b => { c with data := b, size := size }) (some (buffer.take size ++ [0]))
        lo next) := by
  have hf : ∀ b x, x ∈ ({ c with data := b, size := size } : LinphoneContent).blocks →
      x = b ∨ x ∈ c.blocks := by
    simp [blocks]
  have hread : read buffer size next = some (buffer.take size, next) := if_pos hsize
  refine ⟨_, ?_, alloc_sets h hlo hf (buffer.take size ++ [0])⟩
  show (read buffer size next).bind _ = _
  rw [hread]
  rfl

theorem setStringBuffer_returns (h : Within lo next c) (hlo : lo ≤ next) (buffer : List UInt8) :
    Returns (c.setStringBuffer buffer next)
      (Sets (fun b => { c with data := b, size := buffer.length }) (some (buffer ++ [0]))
        lo next) :=
  ⟨_, rfl, alloc_sets h hlo (by simp [blocks]) (buffer ++ [0])⟩

theorem within_new : Within next next {} := by
  intro b hb
  simp [blocks] at hb

/-! ## Copies -/

/-- What a copy takes over, the buffer with as many bytes as the size says. -/
structure Copies (ref d : LinphoneContent) : Prop where
  type : text d.type = text ref.type
  subtype : text d.subtype = text ref.subtype
  encoding : text d.encoding = text ref.encoding
  data : text d.data = (text ref.data).map fun bytes => bytes.take ref.size ++ [0]
  size : d.size = ref.size

/-- A copy starts with the type, the subtype and the encoding of a new content. -/
theorem types_returns {α : Type} {P : α × Nat → Prop} {f : LinphoneContent → HeapM α}
    (ref : LinphoneContent) (next : Nat)
    (hf : ∀ type subtype encoding n, text type = text ref.type → text subtype = text ref.subtype →
      text encoding = text ref.encoding →
      Within next n { type := type, subtype := subtype, encoding := encoding } → next ≤ n →
      Returns (f { type := type, subtype := subtype, encoding := encoding } n) P) :
    Returns ((do
      let c ← setType {} (text ref.type)
      let c ← c.setSubtype (text ref.subtype)
      let c ← c.setEncoding (text ref.encoding)
      f c : HeapM α) next) P := by
  refine (setType_returns within_new (Nat.le_refl next) _).bind ?_
  rintro ⟨_, n⟩ ⟨⟨type, rfl, htype⟩, hw, hle⟩
  refine (setSubtype_returns hw hle _).bind ?_
  rintro ⟨_, n⟩ ⟨⟨subtype, rfl, hsubtype⟩, hw, hle'⟩
  replace hle := Nat.le_trans hle hle'
  refine (setEncoding_returns hw hle _).bind ?_
  rintro ⟨_, n⟩ ⟨⟨encoding, rfl, hencoding⟩, hw, hle'⟩
  exact hf type subtype encoding n htype hsubtype hencoding hw (Nat.le_trans hle hle')

theorem copy_returns (ref : LinphoneContent)
    (hkey : ∀ k, text ref.key = some k → ref.keyLength ≤ k.length)
    (hsize : ∀ b, text ref.data = some b → ref.size ≤ b.length) (next : Nat) :
    Returns (ref.copy next) fun r => ref.Copies r.1 ∧ text r.1.name = text ref.name ∧
      text r.1.key = (text ref.key).map (·.take ref.keyLength) ∧ r.1.keyLength = 0 ∧
      Within next r.2 r.1 := by
  refine types_returns ref next fun type subtype encoding n htype hsubtype hencoding hw hle => ?_
  refine (setName_returns hw hle _).bind ?_
  rintro ⟨_, n⟩ ⟨⟨name, rfl, hname⟩, hw, hle'⟩
  replace hle := Nat.le_trans hle hle'
  refine (setKey_returns hw hle hkey).bind ?_
  rintro ⟨_, n⟩ ⟨⟨key, rfl, hkey⟩, hw, hle'⟩
  replace hle := Nat.le_trans hle hle'
  cases hdata : ref.data with
  | none =>
    refine Returns.some ⟨⟨htype, hsubtype, hencoding, ?_, rfl⟩, hname, hkey, rfl, hw⟩
    rw [hdata]
    rfl
  | some data =>
    refine (setBuffer_returns hw hle (hsize _ (by rw [hdata]; rfl))).mono ?_
    rintro ⟨_, n⟩ ⟨⟨data', rfl, hdata'⟩, hw, -⟩
    refine ⟨⟨htype, hsubtype, hencoding, ?_, rfl⟩, hname, hkey, rfl, hw⟩
    rw [hdata]
    exact hdata'

/-- The bytes behind a block are not there to be copied. -/
theorem copy_undefined {ref : LinphoneContent} {b : List UInt8} (hdata : text ref.data = some b)
    (hsize : b.length < ref.size) (next : Nat) : ref.copy next = none := by
  rw [Option.eq_none_iff_forall_ne_some]
  intro r hr
  obtain ⟨obj₁, n₁, -, hr⟩ := bind_eq_some.mp hr
  obtain ⟨obj₂, n₂, -, hr⟩ := bind_eq_some.mp hr
  obtain ⟨obj₃, n₃, -, hr⟩ := bind_eq_some.mp hr
  obtain ⟨obj₄, n₄, -, hr⟩ := bind_eq_some.mp hr
  obtain ⟨obj₅, n₅, -, hr⟩ := bind_eq_some.mp hr
  obtain ⟨data, hsome, rfl⟩ := Option.map_eq_some_iff.mp hdata
  rw [hsome] at hr
  obtain ⟨bytes, n₆, hread, -⟩ := bind_eq_some.mp hr
  rw [show read data.bytes ref.size n₅ = none from if_neg (Nat.not_le.mpr hsize)] at hread
  exact absurd hread (by simp)

theorem toContent_returns (ref : LinphoneContent)
    (hsize : ∀ b, text ref.data = some b → ref.size ≤ b.length) (next : Nat) {body : SalBody}
    (hbody : ref.toSalBody = some body) :
    Returns (body.toContent next) fun r => ∃ back, r.1 = some back ∧ ref.Copies back := by
  rw [toSalBody, Option.ite_none_left_eq_some, Option.some.injEq] at hbody
  obtain ⟨htype, rfl⟩ := hbody
  rw [SalBody.toContent, if_neg htype]
  refine types_returns ref next fun type subtype encoding n htype hsubtype hencoding hw hle => ?_
  cases hdata : ref.data with
  | none =>
    refine Returns.some ⟨_, rfl, htype, hsubtype, hencoding, ?_, rfl⟩
    rw [hdata]
    rfl
  | some data =>
    refine (setBuffer_returns hw hle (hsize _ (by rw [hdata]; rfl))).bind ?_
    rintro ⟨_, n⟩ ⟨⟨data', rfl, hdata'⟩, -, -⟩
    refine Returns.some ⟨_, rfl, htype, hsubtype, hencoding, ?_, rfl⟩
    rw [hdata]
    exact hdata'

/-- As much of the buffer as the size says is in the copy. -/
theorem Copies.buffer {ref d : LinphoneContent} (h : ref.Copies d)
    (hsize : ∀ b, text ref.data = some b → ref.size ≤ b.length) : d.buffer = ref.buffer := by
  have hbuffer : ∀ c : LinphoneContent, c.buffer = (text c.data).map (·.take c.size) := fun c => by
    rw [LinphoneContent.buffer, text, Option.map_map]
    rfl
  rw [hbuffer, hbuffer, h.data, h.size, Option.map_map]
  cases hdata : text ref.data with
  | none => rfl
  | some b =>
    have hlen : (b.take ref.size).length = ref.size := List.length_take_of_le (hsize b hdata)
    exact congrArg some (List.take_left' hlen)

theorem Copies.sameBody {ref d : LinphoneContent} (h : ref.Copies d)
    (hsize : ∀ b, text ref.data = some b → ref.size ≤ b.length) : ref.SameBody d :=
  ⟨h.type, h.subtype, h.encoding, h.size, h.buffer hsize⟩

end LinphoneContent

/-! ## Any setters -/

/-- What a content has of the calls. -/
structure LinphoneContent.BuiltFrom (given : ContentGiven) (r : LinphoneContent × Nat) : Prop where
  key : text r.1.key = given.key
  keyLength : r.1.keyLength = 0
  data : text r.1.data = given.buffer.map (· ++ [0])
  size : r.1.size = given.size
  within : r.1.Within 0 r.2

theorem run_builtFrom {given : ContentGiven} {c : LinphoneContent} {next : Nat}
    (h : LinphoneContent.BuiltFrom given (c, next)) (call : ContentCall) :
    Returns (call.run c next) (LinphoneContent.BuiltFrom (given.step call)) := by
  obtain ⟨hkey, hlength, hdata, hsize, hw⟩ := h
  cases call with
  | setType type =>
    refine (LinphoneContent.setType_returns hw (Nat.zero_le next) type).mono ?_
    rintro ⟨_, n⟩ ⟨⟨b, rfl, -⟩, hw, -⟩
    exact ⟨hkey, hlength, hdata, hsize, hw⟩
  | setSubtype subtype =>
    refine (LinphoneContent.setSubtype_returns hw (Nat.zero_le next) subtype).mono ?_
    rintro ⟨_, n⟩ ⟨⟨b, rfl, -⟩, hw, -⟩
    exact ⟨hkey, hlength, hdata, hsize, hw⟩
  | setEncoding encoding =>
    refine (LinphoneContent.setEncoding_returns hw (Nat.zero_le next) encoding).mono ?_
    rintro ⟨_, n⟩ ⟨⟨b, rfl, -⟩, hw, -⟩
    exact ⟨hkey, hlength, hdata, hsize, hw⟩
  | setName name =>
    refine (LinphoneContent.setName_returns hw (Nat.zero_le next) name).mono ?_
    rintro ⟨_, n⟩ ⟨⟨b, rfl, -⟩, hw, -⟩
    exact ⟨hkey, hlength, hdata, hsize, hw⟩
  | setKey key =>
    have hall : ∀ k, key = some k → key.elim 0 List.length ≤ k.length := by
      rintro k rfl
      exact Nat.le_refl k.length
    refine (LinphoneContent.setKey_returns hw (Nat.zero_le next) hall).mono ?_
    rintro ⟨_, n⟩ ⟨⟨b, rfl, hb⟩, hw, -⟩
    refine ⟨hb.trans ?_, hlength, hdata, hsize, hw⟩
    cases key with
    | none => rfl
    | some k => exact congrArg some (List.take_length)
  | setBuffer buffer =>
    refine (LinphoneContent.setBuffer_returns hw (Nat.zero_le next)
      (Nat.le_refl buffer.length)).mono ?_
    rintro ⟨_, n⟩ ⟨⟨b, rfl, hb⟩, hw, -⟩
    rw [List.take_length] at hb
    exact ⟨hkey, hlength, hb, rfl, hw⟩
  | setStringBuffer buffer =>
    refine (LinphoneContent.setStringBuffer_returns hw (Nat.zero_le next) _).mono ?_
    rintro ⟨_, n⟩ ⟨⟨b, rfl, hb⟩, hw, -⟩
    exact ⟨hkey, hlength, hb, rfl, hw⟩
  | setSize size => exact Returns.some ⟨hkey, hlength, hdata, rfl, hw⟩

theorem contentAfter_builtFrom (calls : List ContentCall) :
    Returns (contentAfter calls 0) (LinphoneContent.BuiltFrom (contentGiven calls)) := by
  have hrun : ∀ (given : ContentGiven) (c : LinphoneContent) (next : Nat),
      LinphoneContent.BuiltFrom given (c, next) →
      Returns (calls.foldlM ContentCall.run c next)
        (LinphoneContent.BuiltFrom (calls.foldl ContentGiven.step given)) := by
    induction calls with
    | nil => exact fun given c next h => Returns.some h
    | cons call calls ih =>
      intro given c next h
      rw [List.foldlM_cons]
      exact (run_builtFrom h call).bind fun r hr => ih _ r.1 r.2 hr
  exact hrun {} {} 0 ⟨rfl, rfl, rfl, rfl, LinphoneContent.within_new⟩

variable {given : ContentGiven} {c : LinphoneContent} {next : Nat}

theorem kept_iff_fits (h : LinphoneContent.BuiltFrom given (c, next)) :
    c.Kept next ↔ given.Fits := by
  obtain ⟨hkey, hlength, hdata, hsize, hw⟩ := h
  simp only at hkey hlength hdata hsize hw
  constructor
  · intro hkept
    refine ⟨fun key hk => ?_, fun buffer hb => ?_⟩
    · have hlen := hkept.keyLength
      rw [hlength, hkey, hk] at hlen
      exact List.length_eq_zero_iff.mp hlen.symm
    · by_contra hlt
      rw [hb] at hdata
      have hnone := LinphoneContent.copy_undefined hdata (by
        rw [hsize, List.length_append, List.length_singleton]
        omega) next
      obtain ⟨r, hr, -⟩ := hkept.copied
      rw [hnone] at hr
      exact absurd hr (by simp)
  · intro hfits
    have hk : ∀ k, text c.key = some k → k = [] := fun k hk => hfits.key k (hkey.symm.trans hk)
    have hs : ∀ b, text c.data = some b → c.size ≤ b.length := by
      intro b hb
      rw [hdata, Option.map_eq_some_iff] at hb
      obtain ⟨buffer, hbuffer, rfl⟩ := hb
      rw [hsize, List.length_append, List.length_singleton]
      exact hfits.size buffer hbuffer
    refine ⟨?_, ?_, fun body hbody => ?_⟩
    · refine (c.copy_returns (fun k _ => hlength ▸ Nat.zero_le _) hs next).mono ?_
      rintro ⟨d, n⟩ ⟨hcopies, hname, hdkey, hdlength, hdw⟩
      refine ⟨⟨hcopies.sameBody hs, hname, ?_, hdlength.trans hlength.symm⟩, ?_⟩
      · rw [hdkey, hlength]
        cases hck : text c.key with
        | none => rfl
        | some k => rw [hk k hck]; rfl
      · intro b b' hb hb' heq
        exact absurd (hw b hb).2 (Nat.not_lt.mpr (heq ▸ (hdw b' hb').1))
    · rw [hlength]
      cases hck : text c.key with
      | none => rfl
      | some k => rw [hk k hck]; rfl
    · refine (c.toContent_returns hs next hbody).mono ?_
      rintro ⟨back, n⟩ ⟨d, rfl, hd⟩
      exact ⟨d, rfl, hd.sameBody hs⟩

/-- **A content is kept exactly if its key is empty and its size fits its buffer.** -/
theorem content_kept_iff (calls : List ContentCall) :
    Returns (contentAfter calls 0) fun r => r.1.Kept r.2 ↔ (contentGiven calls).Fits :=
  (contentAfter_builtFrom calls).mono fun _ h => kept_iff_fits h

/-- The length of a key of three bytes is not known. -/
theorem content_key_length_lost :
    ¬Returns (contentAfter [.setKey (some [1, 2, 3])] 0) fun r => r.1.Kept r.2 := by
  rintro ⟨r, hr, hkept⟩
  obtain rfl := Option.some.inj hr
  exact absurd hkept.keyLength (by decide)

end Linphone
