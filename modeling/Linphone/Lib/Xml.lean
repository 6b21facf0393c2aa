import Mathlib.Tactic.Common
import Mathlib.Data.List.Basic

/-!
# Documents in XML

The characters a document may hold, the references in a text that is taken as XML, and the tree of a
document with what is found when it was written and is read again.

`unescape_eq_self`: a text stands for itself when it has no ampersand.
-/

namespace Xml

/-! ## Characters -/

/-- The characters of a document. -/
def isChar (c : Char) : Bool :=
  c = '\t' || c = '\n' || c = '\r' || 0x20 ≤ c.val && c.val ≤ 0xD7FF ||
    0xE000 ≤ c.val && c.val ≤ 0xFFFD || 0x10000 ≤ c.val

/-- The value of a digit in a character reference. -/
def digit (c : Char) : Option Nat :=
  if c.isDigit then some (c.toNat - '0'.toNat)
  else if 'a' ≤ c && c ≤ 'f' then some (c.toNat - 'a'.toNat + 10)
  else if 'A' ≤ c && c ≤ 'F' then some (c.toNat - 'A'.toNat + 10)
  else none

/-- A number in a base, of one digit at least. -/
def number (base : Nat) (digits : List Char) : Option Nat :=
  if digits = [] then none
  else digits.foldlM (fun n c => do
    let d ← digit c
    if d < base then some (n * base + d) else none) 0

/-- The character with a code, when a document may hold it. -/
def charOf (code : Nat) : Option Char :=
  let c := Char.ofNat code
  if c.toNat = code && isChar c then some c else none

/-- The character between `&` and `;`. -/
def reference : List Char → Option Char
  | ['l', 't'] => some '<'
  | ['g', 't'] => some '>'
  | ['a', 'm', 'p'] => some '&'
  | ['a', 'p', 'o', 's'] => some '\''
  | ['q', 'u', 'o', 't'] => some '"'
  | '#' :: 'x' :: digits => (number 16 digits).bind charOf
  | '#' :: digits => (number 10 digits).bind charOf
  | _ => none

/-- The text that a text taken as XML stands for; `name` is what was read of a reference. There is
none when a reference is not closed or names nothing. -/
def unescapeFrom (name : Option (List Char)) : List Char → Option (List Char)
  | [] =>
      match name with
      | none => some []
      | some _ => none
  | c :: s =>
      match name with
      | none => if c = '&' then unescapeFrom (some []) s else (unescapeFrom none s).map (c :: ·)
      | some name =>
          if c = ';' then
            (reference name).bind fun d => (unescapeFrom none s).map (d :: ·)
          else unescapeFrom (some (name ++ [c])) s

/-- The text that a text taken as XML stands for. -/
def unescape (s : String) : Option String :=
  (unescapeFrom none s.toList).map String.ofList

theorem unescapeFrom_of_no_ampersand {s : List Char} (h : '&' ∉ s) :
    unescapeFrom none s = some s := by
  induction s with
  | nil => rfl
  | cons c s ih =>
    have hc : c ≠ '&' := fun hc => h (by simp [hc])
    have hs : '&' ∉ s := fun hs => h (List.mem_cons_of_mem _ hs)
    simp [unescapeFrom, hc, ih hs]

theorem length_unescapeFrom {name : Option (List Char)} {s t : List Char}
    (h : unescapeFrom name s = some t) : t.length ≤ s.length := by
  induction s generalizing name t with
  | nil =>
    cases name with
    | none =>
      injection h with h
      simp [← h]
    | some name => simp [unescapeFrom] at h
  | cons c s ih =>
    cases name with
    | none =>
      simp only [unescapeFrom] at h
      split at h
      · have := ih h
        simp only [List.length_cons]
        omega
      · obtain ⟨u, hu, rfl⟩ := Option.map_eq_some_iff.mp h
        have := ih hu
        simp only [List.length_cons]
        omega
    | some name =>
      simp only [unescapeFrom] at h
      split at h
      · obtain ⟨d, -, hd⟩ := Option.bind_eq_some_iff.mp h
        obtain ⟨u, hu, rfl⟩ := Option.map_eq_some_iff.mp hd
        have := ih hu
        simp only [List.length_cons]
        omega
      · have := ih h
        simp only [List.length_cons]
        omega

/-- A reference is longer than what it stands for. -/
theorem length_unescapeFrom_lt {s t : List Char} (hs : '&' ∈ s)
    (h : unescapeFrom none s = some t) : t.length < s.length := by
  induction s generalizing t with
  | nil => simp at hs
  | cons c s ih =>
    by_cases hc : c = '&'
    · subst hc
      have hlen := length_unescapeFrom (show unescapeFrom (some []) s = some t from h)
      simp only [List.length_cons]
      omega
    · have hs' : '&' ∈ s := by
        rcases List.mem_cons.mp hs with heq | hmem
        · exact absurd heq.symm hc
        · exact hmem
      simp only [unescapeFrom, if_neg hc] at h
      obtain ⟨u, hu, rfl⟩ := Option.map_eq_some_iff.mp h
      have := ih hs' hu
      simp only [List.length_cons]
      omega

/-- **Texts that stand for themselves.** They are those without an ampersand. -/
theorem unescape_eq_self {s : String} : unescape s = some s ↔ '&' ∉ s.toList := by
  unfold unescape
  constructor
  · intro h hmem
    obtain ⟨t, ht, heq⟩ := Option.map_eq_some_iff.mp h
    have hlen := length_unescapeFrom_lt hmem ht
    have : t = s.toList := by rw [← heq, String.toList_ofList]
    rw [this] at hlen
    exact absurd hlen (Nat.lt_irrefl _)
  · intro h
    rw [unescapeFrom_of_no_ampersand h, Option.map_some, String.ofList_toList]

/-! ## Lists of nodes -/

theorem mapM_eq_some_map {α β : Type} {f : α → Option β} {g : α → β} {l : List α}
    (h : ∀ a ∈ l, f a = some (g a)) : l.mapM f = some (l.map g) := by
  induction l with
  | nil => rfl
  | cons a l ih =>
    rw [List.mapM_cons, h a List.mem_cons_self,
      ih fun b hb => h b (List.mem_cons_of_mem a hb)]
    rfl

/-! ## Trees -/

/-- A node of a document. An attribute has a text, or none when it was read as empty; a reference is
one to an entity that no document declares. -/
inductive Node where
  | element (name : String) (attrs : List (String × Option String)) (children : List Node)
  | text (content : String)
  | reference

/-- A text a document may hold. -/
def IsText (s : String) : Prop := ∀ c ∈ s.toList, isChar c = true

instance (s : String) : Decidable (IsText s) := inferInstanceAs (Decidable (∀ c ∈ s.toList, _))

/-- What a library does where its documentation says nothing. -/
structure Library where
  /-- The text of a node whose content was set to a text with a malformed reference, where the
  document can still be read. -/
  malformed : String → Option String
  malformed_ne : ∀ s, unescape s = none → malformed s ≠ some s
  /-- An attribute that is read as empty has a text. -/
  emptyText : Bool

namespace Node

def isElement : Node → Bool
  | element _ _ _ => true
  | _ => false

mutual

/-- A document that is written can be read: its texts hold characters of XML, and every entity is
declared. -/
def readable : Node → Bool
  | element _ attrs children =>
      (attrs.all fun attr => decide (IsText (attr.2.getD ""))) && readableList children
  | text content => decide (IsText content)
  | reference => false

def readableList : List Node → Bool
  | [] => true
  | node :: nodes => node.readable && readableList nodes

end

/-- The line breaks and blanks between the children of an element, when none of them is a text. -/
def spread (level : Nat) (children : List Node) : List Node :=
  if children.isEmpty || children.any fun node => !node.isElement then children
  else
    children.flatMap (fun node =>
      [text ("\n" ++ String.ofList (List.replicate (2 * level) ' ')), node])
      ++ [text "\n"]

/-- An attribute that is read; an empty one may be left without a text. -/
def attrAsRead (lib : Library) (attr : String × Option String) : String × Option String :=
  (attr.1, if attr.2.getD "" = "" && !lib.emptyText then none else some (attr.2.getD ""))

mutual

/-- What is found of a node that was written with indentation and read again. -/
def asRead (lib : Library) (level : Nat) : Node → Node
  | element name attrs children =>
      element name (attrs.map (attrAsRead lib)) (spread level (asReadList lib (level + 1) children))
  | text content => text content
  | reference => reference

def asReadList (lib : Library) (level : Nat) : List Node → List Node
  | [] => []
  | node :: nodes => node.asRead lib level :: asReadList lib level nodes

end

end Node

namespace Library

variable (lib : Library)

/-- The text of a node whose content was set, where the document can be read. -/
def content (s : String) : Option String :=
  match unescape s with
  | some t => some t
  | none => lib.malformed s

/-- The children of a node whose content was set. -/
def setContent (s : String) : List Node :=
  match lib.content s with
  | none => [.reference]
  | some t => if t = "" then [] else [.text t]

/-- A document that is written and read again. -/
def readBack (doc : Node) : Option Node :=
  if doc.readable then some (doc.asRead lib 1) else none

/-- An attribute with this text has it when it is read. -/
def Keeps (s : String) : Prop := s = "" → lib.emptyText = true

instance (s : String) : Decidable (lib.Keeps s) := inferInstanceAs (Decidable (_ → _))

theorem content_eq_self {s : String} : lib.content s = some s ↔ '&' ∉ s.toList := by
  rw [← unescape_eq_self]
  unfold content
  cases h : unescape s with
  | some t => rfl
  | none => simpa using lib.malformed_ne s h

theorem readableList_setContent {s : String} :
    Node.readableList (lib.setContent s) = true ↔ ∃ t, lib.content s = some t ∧ IsText t := by
  unfold setContent
  cases h : lib.content s with
  | none => simp [Node.readableList, Node.readable]
  | some t =>
    by_cases ht : t = ""
    · subst ht
      simp [Node.readableList, IsText]
    · simp [ht, Node.readableList, Node.readable]

end Library

namespace Node

theorem readableList_eq_true {nodes : List Node} :
    readableList nodes = true ↔ ∀ node ∈ nodes, node.readable = true := by
  induction nodes with
  | nil => simp [readableList]
  | cons node nodes ih => simp [readableList, ih]

theorem asReadList_eq_map (lib : Library) (level : Nat) (nodes : List Node) :
    asReadList lib level nodes = nodes.map (asRead lib level) := by
  induction nodes with
  | nil => simp [asReadList]
  | cons node nodes ih => simp [asReadList, ih]

/-- A loop that passes over texts does not see the blanks. -/
theorem foldlM_spread {σ : Type} {f : σ → Node → Option σ}
    (hf : ∀ s content, f s (text content) = some s) (level : Nat) (children : List Node) (s : σ) :
    (spread level children).foldlM f s = children.foldlM f s := by
  unfold spread
  split
  · rfl
  · have hflat : ∀ (blank : String) (nodes : List Node) (s : σ),
        (nodes.flatMap fun node => [text blank, node]).foldlM f s = nodes.foldlM f s := by
      intro blank nodes
      induction nodes with
      | nil =>
        intro s
        rfl
      | cons node nodes ih =>
        intro s
        simp only [List.flatMap_cons, List.cons_append, List.nil_append, List.foldlM_cons, hf,
          Option.bind_eq_bind, Option.bind_some, ih]
    rw [List.foldlM_append, hflat]
    cases children.foldlM f s with
    | none => rfl
    | some s => simp [hf]

end Node

end Xml
