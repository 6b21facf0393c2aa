import Mathlib.Tactic.Common
import Mathlib.Data.UInt
import Mathlib.Tactic.Ring

/-!
# The XML and the hexadecimal texts of the ZRTP cache

The ZRTP cache and the encrypted messages are XML documents.  Keys, session identifiers, indices
and ZIDs are written in them as hexadecimal texts, which the functions of `lime.c` read with
`lime_strToUint8` and write with `lime_int8ToStr`.
-/

namespace Linphone

/-! ## Nodes -/

/-- A node of a document: a text, or an element with its children.  A comment is for these
functions an element without children. -/
inductive XmlNode where
  | text (content : List UInt8)
  | element (name : String) (children : List XmlNode)

/-- A document, whose root element may be missing. -/
structure XmlDoc where
  root : Option XmlNode

namespace XmlNode

/-- `cur->name`; libxml2 gives every text node the same name. -/
def name : XmlNode → String
  | text _ => "text"
  | element n _ => n

/-- `cur->xmlChildrenNode` and its siblings. -/
def children : XmlNode → List XmlNode
  | text _ => []
  | element _ cs => cs

/-- `xmlNodeSetContent` with a text that has no entity in it. -/
def setContent (s : List UInt8) : XmlNode → XmlNode
  | text _ => text s
  | element n _ => element n [text s]

@[simp] theorem name_setContent (s : List UInt8) (c : XmlNode) :
    (c.setContent s).name = c.name := by
  cases c <;> rfl

end XmlNode

namespace XmlDoc

/-- The nodes under the root element. -/
def nodes (d : XmlDoc) : List XmlNode :=
  match d.root with
  | some r => r.children
  | none => []

/-- The same root element over other nodes. -/
def setNodes (d : XmlDoc) (ns : List XmlNode) : XmlDoc :=
  match d.root with
  | some (.element n _) => ⟨some (.element n ns)⟩
  | _ => d

theorem nodes_setNodes {d : XmlDoc} {ns : List XmlNode} (h : ns.length = d.nodes.length) :
    (d.setNodes ns).nodes = ns := by
  rcases d with ⟨_ | _ | _⟩
  · exact (List.length_eq_zero_iff.mp h).symm
  · exact (List.length_eq_zero_iff.mp h).symm
  · rfl

end XmlDoc

/-- `xmlNodeListGetString`: the texts of a list of siblings, `NULL` when there is none. -/
def xmlNodeListGetString : List XmlNode → Option (List UInt8)
  | [] => none
  | .text s :: rest => some (s ++ (xmlNodeListGetString rest).getD [])
  | .element _ _ :: rest => xmlNodeListGetString rest

@[simp] theorem xmlNodeListGetString_text (s : List UInt8) :
    xmlNodeListGetString [.text s] = some s := by
  simp [xmlNodeListGetString]

/-- The text of a node, as the functions below read it. -/
def XmlNode.content (c : XmlNode) : Option (List UInt8) := xmlNodeListGetString c.children

theorem XmlNode.content_setContent {c : XmlNode} {s : List UInt8} (h : c.name ≠ "text") :
    (c.setContent s).content = some s := by
  cases c with
  | text t => exact absurd rfl h
  | element n cs => exact xmlNodeListGetString_text s

/-! ## Hexadecimal texts -/

/-- `lime_charToByte`.  The first test admits six characters below `0`. -/
def charToByte (inputChar : UInt8) : UInt8 :=
  if 0x29 < inputChar ∧ inputChar < 0x3A then inputChar - 0x30
  else if 0x60 < inputChar ∧ inputChar < 0x67 then inputChar - 0x57
  else if 0x40 < inputChar ∧ inputChar < 0x47 then inputChar - 0x37
  else 0

/-- `lime_byteToChar`. -/
def byteToChar (inputByte : UInt8) : UInt8 :=
  if inputByte &&& 0x0F < 0x0A then (inputByte &&& 0x0F) + 0x30 else (inputByte &&& 0x0F) + 0x57

/-- The byte that two characters stand for. -/
def charsToByte (high low : UInt8) : UInt8 :=
  charToByte high <<< 4 ||| charToByte low

/-- `lime_strToUint8` into a buffer of `n` bytes.  The terminating zero of the text may be read,
nothing behind it. -/
def strToUint8 (n : Nat) (s : List UInt8) : Option (Vector UInt8 n) :=
  if 2 * n ≤ s.length + 1 then
    some (.ofFn fun i => charsToByte (s.getD (2 * i) 0) (s.getD (2 * i + 1) 0))
  else none

/-- The two characters of a byte. -/
def byteToChars (b : UInt8) : List UInt8 :=
  [byteToChar (b >>> 4 &&& 0x0F), byteToChar (b &&& 0x0F)]

/-- `lime_int8ToStr`. -/
def int8ToStr {n : Nat} (v : Vector UInt8 n) : List UInt8 :=
  v.toList.flatMap byteToChars

theorem charsToByte_byteToChar (b : UInt8) :
    charsToByte (byteToChar (b >>> 4 &&& 0x0F)) (byteToChar (b &&& 0x0F)) = b := by
  have all : ∀ i : Fin 256,
      charsToByte (byteToChar (UInt8.ofNat i >>> 4 &&& 0x0F)) (byteToChar (UInt8.ofNat i &&& 0x0F))
        = UInt8.ofNat i := by decide +kernel
  simpa using all b.toFin

theorem length_flatMap_byteToChars (l : List UInt8) :
    (l.flatMap byteToChars).length = 2 * l.length := by
  induction l with
  | nil => rfl
  | cons b l ih =>
    rw [List.flatMap_cons, List.length_append, ih, List.length_cons]
    simp only [byteToChars, List.length_cons, List.length_nil]
    omega

theorem getD_flatMap_byteToChars (l : List UInt8) (i : Nat) (h : i < l.length) :
    charsToByte ((l.flatMap byteToChars).getD (2 * i) 0)
      ((l.flatMap byteToChars).getD (2 * i + 1) 0) = l[i] := by
  induction l generalizing i with
  | nil => exact absurd h (Nat.not_lt_zero i)
  | cons b l ih =>
    cases i with
    | zero => exact charsToByte_byteToChar b
    | succ i => exact ih i (Nat.lt_of_succ_lt_succ h)

@[simp] theorem length_int8ToStr {n : Nat} (v : Vector UInt8 n) : (int8ToStr v).length = 2 * n := by
  rw [int8ToStr, length_flatMap_byteToChars, Vector.length_toList]

/-- **A buffer written as a text reads back as itself.** -/
@[simp] theorem strToUint8_int8ToStr {n : Nat} (v : Vector UInt8 n) :
    strToUint8 n (int8ToStr v) = some v := by
  rw [strToUint8, if_pos (by rw [length_int8ToStr]; exact Nat.le_succ _)]
  refine congrArg some (Vector.ext fun i hi => ?_)
  rw [Vector.getElem_ofFn]
  exact getD_flatMap_byteToChars v.toList i (by simpa using hi)

theorem int8ToStr_inj {n : Nat} {v w : Vector UInt8 n} (h : int8ToStr v = int8ToStr w) : v = w := by
  have e := strToUint8_int8ToStr v
  rw [h, strToUint8_int8ToStr] at e
  exact (Option.some.inj e).symm

/-! ## Session indices -/

/-- The bytes of an index, most significant first. -/
def indexBytes (i : UInt32) : Vector UInt8 4 :=
  #v[(i >>> 24).toUInt8, (i >>> 16).toUInt8, (i >>> 8).toUInt8, i.toUInt8]

/-- The index that four bytes stand for. -/
def bytesIndex (v : Vector UInt8 4) : UInt32 :=
  v[3].toUInt32 + (v[2].toUInt32 <<< 8) + (v[1].toUInt32 <<< 16) + (v[0].toUInt32 <<< 24)

/-- The eight characters of an index, written from its half bytes. -/
def indexHex (i : UInt32) : List UInt8 :=
  [28, 24, 20, 16, 12, 8, 4, 0].map fun (s : UInt32) => byteToChar ((i >>> s).toUInt8 &&& 0x0F)

/-- The index that eight characters stand for. -/
def hexIndex (s : List UInt8) : Option UInt32 :=
  if 8 ≤ s.length + 1 then
    let half (i : Nat) : UInt32 := (charToByte (s.getD i 0)).toUInt32
    some (half 0 <<< 28 ||| half 1 <<< 24 ||| half 2 <<< 20 ||| half 3 <<< 16 ||| half 4 <<< 12
      ||| half 5 <<< 8 ||| half 6 <<< 4 ||| half 7)
  else none

theorem bytesIndex_indexBytes (i : UInt32) : bytesIndex (indexBytes i) = i := by
  apply UInt32.toNat_inj.mp
  have hi := i.toNat_lt
  simp only [bytesIndex, indexBytes, Vector.getElem_mk, List.getElem_toArray,
    List.getElem_cons_zero, List.getElem_cons_succ, UInt32.toNat_add, UInt32.toNat_shiftLeft,
    UInt32.toNat_shiftRight, UInt8.toNat_toUInt32, UInt32.toNat_toUInt8, Nat.shiftLeft_eq,
    Nat.shiftRight_eq_div_pow, UInt32.reduceToNat, Nat.reduceMod, Nat.reducePow]
  omega

/-- An index written half byte by half byte is its four bytes written as a text. -/
theorem indexHex_eq (i : UInt32) : indexHex i = int8ToStr (indexBytes i) := by
  simp only [indexHex, int8ToStr, indexBytes, byteToChars, List.map_cons, List.map_nil,
    Vector.toList_mk, List.flatMap_cons, List.flatMap_nil, List.cons_append, List.nil_append,
    List.cons.injEq, and_true, true_and]
  refine ⟨?_, ?_, ?_, ?_, ?_⟩
  all_goals
    refine congrArg byteToChar (UInt8.toNat_inj.mp ?_)
    simp only [UInt8.toNat_and, UInt32.toNat_toUInt8, UInt32.toNat_shiftRight,
      UInt8.toNat_shiftRight, Nat.shiftRight_eq_div_pow, UInt32.reduceToNat, UInt8.reduceToNat,
      Nat.reduceMod, Nat.reducePow, Nat.and_two_pow_sub_one_eq_mod _ 4]
    omega

theorem charToByte_byteToChar (b : UInt8) : charToByte (byteToChar b) = b &&& 0x0F := by
  have all : ∀ i : Fin 256, charToByte (byteToChar (UInt8.ofNat i)) = UInt8.ofNat i &&& 0x0F := by
    decide +kernel
  simpa using all b.toFin

theorem or_half (a b n : Nat) (h : b < 16) :
    2 ^ (n + 4) * a ||| 2 ^ n * b = 2 ^ n * (16 * a + b) := by
  have small : 2 ^ n * b < 2 ^ (n + 4) := by
    rw [pow_add]
    exact Nat.mul_lt_mul_of_pos_left h (Nat.two_pow_pos n)
  rw [← Nat.two_pow_add_eq_or_of_lt small, pow_add]
  ring

theorem toNat_half (i s : UInt32) (k : Nat) (hs : s.toNat = k) (hk : k ≤ 28) :
    (((i >>> s).toUInt8 &&& 0x0F &&& 0x0F).toUInt32 <<< s).toNat
      = 2 ^ k * (i.toNat / 2 ^ k % 16) := by
  have small : i.toNat / 2 ^ k % 16 * 2 ^ k < 4294967296 := by
    calc i.toNat / 2 ^ k % 16 * 2 ^ k < 2 ^ 4 * 2 ^ k :=
          Nat.mul_lt_mul_of_pos_right (Nat.mod_lt _ (by decide)) (Nat.two_pow_pos k)
      _ = 2 ^ (4 + k) := (pow_add 2 4 k).symm
      _ ≤ 2 ^ 32 := Nat.pow_le_pow_right (by decide) (by omega)
  have low : i.toNat / 2 ^ k % 256 % 16 % 16 = i.toNat / 2 ^ k % 16 := by omega
  simp only [UInt32.toNat_shiftLeft, UInt8.toNat_toUInt32, UInt8.toNat_and, UInt32.toNat_toUInt8,
    UInt32.toNat_shiftRight, hs, Nat.mod_eq_of_lt (show k < 32 by omega), UInt8.reduceToNat,
    Nat.and_two_pow_sub_one_eq_mod _ 4, Nat.reducePow, Nat.shiftRight_eq_div_pow, low,
    Nat.shiftLeft_eq]
  rw [Nat.mod_eq_of_lt small, Nat.mul_comm]

/-- **An index written into a message reads back as itself.** -/
theorem hexIndex_indexHex (i : UInt32) : hexIndex (indexHex i) = some i := by
  simp only [hexIndex, indexHex, List.map_cons, List.map_nil, List.getD_cons_succ,
    List.getD_cons_zero, charToByte_byteToChar, List.length_cons, List.length_nil, Nat.reduceAdd,
    Nat.reduceLeDiff, ↓reduceIte]
  refine congrArg some (UInt32.toNat_inj.mp ?_)
  have half0 := toNat_half i 0 0 rfl (by decide)
  rw [UInt32.shiftLeft_zero] at half0
  have lt16 (k : Nat) : i.toNat / 2 ^ k % 16 < 16 := Nat.mod_lt _ (by decide)
  simp only [UInt32.toNat_or, toNat_half i 28 28 rfl (by decide),
    toNat_half i 24 24 rfl (by decide), toNat_half i 20 20 rfl (by decide),
    toNat_half i 16 16 rfl (by decide), toNat_half i 12 12 rfl (by decide),
    toNat_half i 8 8 rfl (by decide), toNat_half i 4 4 rfl (by decide), half0]
  rw [or_half _ _ 24 (lt16 24), or_half _ _ 20 (lt16 20), or_half _ _ 16 (lt16 16),
    or_half _ _ 12 (lt16 12), or_half _ _ 8 (lt16 8), or_half _ _ 4 (lt16 4),
      or_half _ _ 0 (lt16 0)]
  have hi := i.toNat_lt
  simp only [Nat.reducePow] at hi ⊢
  omega

end Linphone
