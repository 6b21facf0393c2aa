import Linphone.Sal.Dtls
import Linphone.Lib.Format
import Mathlib.Data.List.Forall2
import Mathlib.Algebra.Group.Nat.Defs
import Mathlib.Algebra.Group.Int.Defs
import Mathlib.Algebra.GroupWithZero.Nat

/-!
# ICE attributes

`add_ice_candidates` and `add_ice_remote_candidates` of `bellesip_sal/sal_sdp.c` write the ICE
candidates of a stream as attributes of its m-line, and `sdp_parse_media_ice_parameters` reads
them. The loop over remote candidates moves its cursor by the length of an entry and looks for a
space that far once more, which can be past the end of the value; that, and a word too long for
its buffer, is undefined (`none`).

`ice_attributes_iff`: candidates are read back as they are, remote candidates too unless the first
is longer than the second by two, and what a value has to be like for its reading to be defined.
-/

namespace Linphone

open Scan (decimal isSpace Directive Field Value scanf fieldsText spaced Token)

/-! ## Fields -/

/-- A word for a buffer. -/
def WordFits (size : Nat) (s : String) : Prop := Token s.toList ∧ s.toList.length < size

/-- A number of type `int`. -/
def IsInt (n : Int) : Prop := -2 ^ 31 ≤ n ∧ n < 2 ^ 31

/-- A candidate that is in use. -/
structure SalIceCandidate.Fits (c : SalIceCandidate) : Prop where
  foundation : WordFits 32 c.foundation
  addr : WordFits 64 c.addr
  type : WordFits 6 c.type
  port : IsInt c.port ∧ c.port ≠ 0
  raddr : c.raddr = "" ∧ c.rport = 0 ∨ WordFits 64 c.raddr ∧ IsInt c.rport

/-- A remote candidate that is in use. -/
structure SalIceRemoteCandidate.Fits (c : SalIceRemoteCandidate) : Prop where
  addr : WordFits 64 c.addr
  port : IsInt c.port ∧ c.port ≠ 0

/-- An entry of `ice_remote_candidates`. -/
def remoteEntry (table : List SalIceRemoteCandidate) (i : Nat) : SalIceRemoteCandidate :=
  table[i]?.getD {}

/-- The entries of `ice_candidates` and of `ice_remote_candidates`. -/
def candidatesMax : Nat := 20

def remoteCandidatesMax : Nat := 2

/-- A stream whose ICE fields are in use or empty. -/
structure IceFieldsFit (desc : SalStreamDescription) : Prop where
  count : desc.iceCandidates.length ≤ candidatesMax
  candidates : ∀ c ∈ desc.iceCandidates, c.Fits
  remote : ∀ i < remoteCandidatesMax, remoteEntry desc.iceRemoteCandidates i = {} ∨
    (remoteEntry desc.iceRemoteCandidates i).Fits

/-! ## Writing -/

/-- `snprintf` into a buffer of a size. -/
def snprintf (size : Nat) (text : List Char) : List Char := text.take (size - 1)

namespace SalIceCandidate

variable (c : SalIceCandidate)

/-- `"%s %u UDP %u %s %d typ %s"` -/
def fields : List Field :=
  [.word c.foundation.toList, .number c.componentID.toNat, .word "UDP".toList,
    .number c.priority.toNat, .word c.addr.toList, .number c.port, .literal "typ".toList,
    .word c.type.toList]

/-- `" raddr %s rport %d"` -/
def relatedFields : List Field :=
  [.literal "raddr".toList, .word c.raddr.toList, .literal "rport".toList, .number c.rport]

/-- The value of a `candidate` attribute. The fields are bounded, so nothing is ever cut. -/
def value : List Char :=
  snprintf 1024 (fieldsText c.fields) ++
    if c.raddr = "" then []
    else snprintf (1024 - (fieldsText c.fields).length) (spaced c.relatedFields)

end SalIceCandidate

/-- `add_ice_candidates` -/
def addIceCandidates (desc : SalStreamDescription) : List SdpAttribute :=
  ((desc.iceCandidates.take candidatesMax).takeWhile fun c => c.addr ≠ "" ∧ c.port ≠ 0).map
    fun c => { name := "candidate", value := some (String.ofList c.value) }

/-- `"%d %s %d"` -/
def remoteFields (i : Nat) (c : SalIceRemoteCandidate) : List Field :=
  [.number (i + 1 : Nat), .word c.addr.toList, .number c.port]

/-- One turn of the loop of `add_ice_remote_candidates`. -/
def addRemote (buffer : List Char) (i : Nat) (c : SalIceRemoteCandidate) : List Char :=
  if c.addr ≠ "" ∧ c.port ≠ 0 then
    buffer ++ snprintf (1024 - buffer.length)
      ((if 0 < i then [' '] else []) ++ fieldsText (remoteFields i c))
  else buffer

/-- The buffer of `add_ice_remote_candidates`. -/
def remoteBuffer (table : List SalIceRemoteCandidate) : List Char :=
  (List.range remoteCandidatesMax).foldl
    (fun buffer i => addRemote buffer i (remoteEntry table i)) []

/-- `add_ice_remote_candidates` -/
def addIceRemoteCandidates (desc : SalStreamDescription) : List SdpAttribute :=
  let buffer := remoteBuffer desc.iceRemoteCandidates
  if buffer = [] then []
  else [{ name := "remote-candidates", value := some (String.ofList buffer) }]

/-! ## Reading -/

/-- What `%u` stores: a number of 64 bits, cut to 32. -/
def storeUnsigned (n : Int) : UInt32 := UInt32.ofInt (if n.natAbs < 2 ^ 64 then n else -1)

/-- What `%d` stores. -/
def storeInt (n : Int) : Int := (Int32.ofInt (max (-2 ^ 63) (min (2 ^ 63 - 1) n))).toInt

/-- `"%s %u %3s %u %s %d typ %s raddr %s rport %d"` -/
def candidateFormat : List Directive :=
  [.word none, .number, .word (some 3), .number, .word none, .number, .literal "typ".toList,
    .word none, .literal "raddr".toList, .word none, .literal "rport".toList, .number]

/-- A word is shorter than its buffer. -/
def fitsBuffer (size : Nat) : Value → Bool
  | .word w => w.length < size
  | .number _ => true

/-- The sizes of the buffers that take the words. -/
def candidateSizes : List Nat := [32, 0, 4, 0, 64, 0, 6, 64, 0]

/-- The candidate made of what was converted: seven values or nine. -/
def candidateOfValues : List Value → Option SalIceCandidate
  | .word foundation :: .number componentID :: .word proto :: .number priority :: .word addr ::
      .number port :: .word type :: related =>
      let candidate : SalIceCandidate :=
        { foundation := String.ofList foundation, componentID := storeUnsigned componentID
          priority := storeUnsigned priority, addr := String.ofList addr, port := storeInt port
          type := String.ofList type }
      if strcasecmp "udp" (String.ofList proto) then
        match related with
        | [] => some candidate
        | [.word raddr, .number rport] =>
          some { candidate with raddr := String.ofList raddr, rport := storeInt rport }
        | _ => none
      else none
  | _ => none

/-- A `candidate` attribute, refused or read. -/
def readCandidate (value : List Char) : Option (Option SalIceCandidate) :=
  let values := (scanf candidateFormat value).1
  if (values.zip candidateSizes).all fun v => fitsBuffer v.2 v.1 then
    some (candidateOfValues values)
  else none

/-- `sscanf(ptr, "%u %s %u%n", ...)`, when it converts all three: what it converts and what
follows. -/
def scanRemoteCandidate (s : List Char) : Option ((Int × List Char × Int) × List Char) :=
  match scanf [.number, .word none, .number] s with
  | ([.number componentID, .word addr, .number port], some rest) =>
    some ((componentID, addr, port), rest)
  | _ => none

/-- The entry of a remote candidate, if its number is one of the table. -/
def storeRemote (table : List SalIceRemoteCandidate) (c : Int × List Char × Int) :
    List SalIceRemoteCandidate :=
  (List.range remoteCandidatesMax).map fun i =>
    if (storeUnsigned c.1).toNat = i + 1 then
      { addr := String.ofList c.2.1, port := (storeUnsigned c.2.2).toInt32.toInt }
    else remoteEntry table i

theorem scanRemoteCandidate_length {s : List Char} {c : Int × List Char × Int} {rest : List Char}
    (h : scanRemoteCandidate s = some (c, rest)) : rest.length < s.length := by
  unfold scanRemoteCandidate at h
  split at h
  · rename_i heq
    obtain rfl := (Prod.mk.inj (Option.some.inj h)).2
    exact Scan.length_of_scanf_number (congrArg Prod.snd heq)
  · cases h

/-- Where the cursor goes behind an entry of `offset` characters: `ptr[offset]` is looked at. -/
def skipSpace (offset : Nat) (rest : List Char) : List Char :=
  if rest[offset]? = some ' ' then rest.drop 1 else rest

theorem skipSpace_length (offset : Nat) (rest : List Char) :
    (skipSpace offset rest).length ≤ rest.length := by
  unfold skipSpace
  split
  · rw [List.length_drop]
    omega
  · exact Nat.le_refl _

/-- The loop over remote candidates, from the cursor on. -/
def readRemoteCandidates (table : List SalIceRemoteCandidate) (s : List Char) :
    Option (List SalIceRemoteCandidate) :=
  match _h : scanRemoteCandidate s with
  | none => some table
  | some (c, rest) =>
    if c.2.1.length < 64 then
      if rest = [] then some (storeRemote table c)
      else if s.length - rest.length ≤ rest.length then
        readRemoteCandidates (storeRemote table c) (skipSpace (s.length - rest.length) rest)
      else none
    else none
termination_by s.length
decreasing_by
  exact Nat.lt_of_le_of_lt (skipSpace_length _ _) (scanRemoteCandidate_length _h)

/-- One attribute. The candidates of the stream are those read so far. -/
def iceStep (stream : SalStreamDescription) (att : SdpAttribute) : Option SalStreamDescription :=
  match att.value with
  | some value =>
    if stream.iceCandidates.length < candidatesMax ∧ att.name = "candidate" then
      (readCandidate value.toList).map fun c =>
        { stream with iceCandidates := stream.iceCandidates ++ c.toList }
    else if att.name = "remote-candidates" then
      (readRemoteCandidates stream.iceRemoteCandidates value.toList).map fun table =>
        { stream with iceRemoteCandidates := table }
    else if att.name = "ice-ufrag" then
      some { stream with iceUfrag := String.ofList (value.toList.take 255) }
    else if att.name = "ice-pwd" then
      some { stream with icePwd := String.ofList (value.toList.take 255) }
    else if att.name = "ice-mismatch" then some { stream with iceMismatch := true }
    else some stream
  | none => some (if att.name = "ice-mismatch" then { stream with iceMismatch := true } else stream)

/-- `sdp_parse_media_ice_parameters`, for a stream of a new description. -/
def sdpParseMediaIceParameters (attributes : List SdpAttribute) (stream : SalStreamDescription) :
    Option SalStreamDescription :=
  attributes.foldlM iceStep stream

/-! ## Numbers that are stored -/

theorem storeUnsigned_toNat (x : UInt32) : storeUnsigned (x.toNat : Int) = x := by
  have hlt : x.toNat < 2 ^ 32 := x.toNat_lt
  have habs : ((x.toNat : Int)).natAbs < 2 ^ 64 := by omega
  have hmod : (((x.toNat : Int)) % 2 ^ 32).toNat = x.toNat := by omega
  rw [storeUnsigned, if_pos habs, UInt32.ofInt, hmod]
  exact UInt32.ofNat_toNat

theorem storeInt_of_isInt {n : Int} (h : IsInt n) : storeInt n = n := by
  obtain ⟨hlow, hhigh⟩ := h
  have hmin : min (2 ^ 63 - 1) n = n := by omega
  have hmax : max (-2 ^ 63) n = n := by omega
  rw [storeInt, hmin, hmax]
  exact Int32.toInt_ofInt_of_le hlow hhigh

/-- A port is written as an `int` and read as an `unsigned int`. -/
theorem storeUnsigned_toInt {n : Int} (h : IsInt n) : (storeUnsigned n).toInt32.toInt = n := by
  obtain ⟨hlow, hhigh⟩ := h
  have habs : n.natAbs < 2 ^ 64 := by omega
  have hcast : (UInt32.ofInt n).toInt32 = Int32.ofInt n := by
    refine Int32.toBitVec_inj.mp (BitVec.eq_of_toNat_eq ?_)
    have hlt : (n % 2 ^ 32).toNat < 2 ^ 32 := by omega
    rw [Int32.toBitVec_ofInt, BitVec.toNat_ofInt]
    exact Nat.mod_eq_of_lt hlt
  rw [storeUnsigned, if_pos habs, hcast]
  exact Int32.toInt_ofInt_of_le hlow hhigh

theorem length_decimal {n : Int} (h : n.natAbs < 2 ^ 32) : (decimal n).length ≤ 11 := by
  have hdigits : (Nat.toDigits 10 n.natAbs).length ≤ 10 :=
    (Nat.length_toDigits_le_iff (by decide) (by decide)).mpr (by omega)
  unfold decimal
  split
  · rw [List.length_cons]
    omega
  · omega

theorem IsInt.length_decimal {n : Int} (h : IsInt n) : (decimal n).length ≤ 11 :=
  Linphone.length_decimal (by obtain ⟨hlow, hhigh⟩ := h; omega)

/-! ## Candidates -/

theorem snprintf_eq {size : Nat} {text : List Char} (h : text.length < size) :
    snprintf size text = text :=
  List.take_of_length_le (by omega)

theorem length_spaced (fields : List Field) :
    (spaced fields).length = (fields.map fun f => f.text.length + 1).sum := by
  induction fields with
  | nil => rfl
  | cons f fields ih =>
    have hcons : spaced (f :: fields) = ' ' :: (f.text ++ spaced fields) := rfl
    rw [hcons, List.length_cons, List.length_append, ih, List.map_cons, List.sum_cons]
    omega

variable {c : SalIceCandidate}

theorem SalIceCandidate.Fits.length_fields (h : c.Fits) :
    (spaced c.fields).length + (spaced c.relatedFields).length < 1024 := by
  have hfoundation := h.foundation.2
  have haddr := h.addr.2
  have htype := h.type.2
  have hport := h.port.1.length_decimal
  have hcomponent : (decimal (c.componentID.toNat : Int)).length ≤ 11 :=
    length_decimal (by have : c.componentID.toNat < 2 ^ 32 := c.componentID.toNat_lt; omega)
  have hpriority : (decimal (c.priority.toNat : Int)).length ≤ 11 :=
    length_decimal (by have : c.priority.toNat < 2 ^ 32 := c.priority.toNat_lt; omega)
  have hraddr : c.raddr.toList.length + (decimal c.rport).length < 64 + 12 := by
    rcases h.raddr with ⟨hempty, hzero⟩ | ⟨hword, hint⟩
    · rw [hempty, hzero]
      decide
    · have hlength := hword.2
      have hdecimal := hint.length_decimal
      omega
  have hliterals : "UDP".toList.length + "typ".toList.length + "raddr".toList.length +
      "rport".toList.length = 16 := by decide
  rw [length_spaced, length_spaced]
  simp only [SalIceCandidate.fields, SalIceCandidate.relatedFields, List.map_cons, List.map_nil,
    List.sum_cons, List.sum_nil, Field.text]
  omega

/-- The value is the fields between spaces. -/
theorem SalIceCandidate.Fits.value_eq (h : c.Fits) :
    c.value = fieldsText (c.fields ++ if c.raddr = "" then [] else c.relatedFields) := by
  have hlength := h.length_fields
  have hne : c.fields ≠ [] := by simp [SalIceCandidate.fields]
  have htext : (fieldsText c.fields).length < (spaced c.fields).length := by
    rw [Scan.spaced_eq hne]
    simp
  unfold SalIceCandidate.value
  rw [snprintf_eq (by omega)]
  split
  · rw [List.append_nil, List.append_nil]
  · rw [snprintf_eq (by omega), Scan.fieldsText_append hne]

/-- The format up to the type. -/
def leadingFormat : List Directive := candidateFormat.take 8

theorem SalIceCandidate.Fits.suits (h : c.Fits) :
    List.Forall₂ Directive.Suits leadingFormat c.fields := by
  have hudp : Token "UDP".toList ∧ "UDP".toList.length ≤ 3 := ⟨⟨by decide, by decide⟩, by decide⟩
  have htyp : Token "typ".toList := ⟨by decide, by decide⟩
  exact .cons h.foundation.1 (.cons trivial (.cons hudp (.cons trivial (.cons h.addr.1
    (.cons trivial (.cons ⟨rfl, htyp⟩ (.cons h.type.1 .nil)))))))

theorem suits_relatedFields (h : WordFits 64 c.raddr) :
    List.Forall₂ Directive.Suits (candidateFormat.drop 8) c.relatedFields := by
  have hraddr : Token "raddr".toList := ⟨by decide, by decide⟩
  have hrport : Token "rport".toList := ⟨by decide, by decide⟩
  exact .cons ⟨rfl, hraddr⟩ (.cons h.1 (.cons ⟨rfl, hrport⟩ (.cons trivial .nil)))

/-- What is converted of the value of a candidate. -/
theorem SalIceCandidate.Fits.scanf_value (h : c.Fits) :
    (scanf candidateFormat c.value).1 =
      c.fields.filterMap Field.value ++
        if c.raddr = "" then [] else c.relatedFields.filterMap Field.value := by
  have hformat : candidateFormat = leadingFormat ++ candidateFormat.drop 8 :=
    (List.take_append_drop 8 candidateFormat).symm
  have hfields : c.fields ≠ [] := by simp [SalIceCandidate.fields]
  rw [h.value_eq, hformat]
  split
  · rw [List.append_nil, List.append_nil, Scan.scanf_append,
      ← List.append_nil (fieldsText c.fields), Scan.scanf_fieldsText h.suits hfields Scan.blank_nil]
    have hend : scanf (candidateFormat.drop 8) [] = ([], none) := by
      refine Scan.scanf_nil fun text htext => ?_
      obtain rfl := Directive.literal.inj htext
      decide
    simp only [hend, List.append_nil]
  · rename_i hne
    have hraddr : WordFits 64 c.raddr := h.raddr.elim (fun he => absurd he.1 hne) And.left
    have hall := List.rel_append h.suits (suits_relatedFields hraddr)
    rw [← List.append_nil (fieldsText _), Scan.scanf_fieldsText hall (by simp [hfields])
      Scan.blank_nil, List.filterMap_append]

/-- What the values of the leading fields are made into. -/
theorem candidateOfValues_fields (hport : IsInt c.port) (related : List Value) :
    candidateOfValues (c.fields.filterMap Field.value ++ related) =
      match related with
      | [] => some { c with raddr := "", rport := 0 }
      | [.word raddr, .number rport] =>
        some { c with raddr := String.ofList raddr, rport := storeInt rport }
      | _ => none := by
  have hudp : strcasecmp "udp" (String.ofList "UDP".toList) = true := by decide
  have hvalues : c.fields.filterMap Field.value ++ related =
      .word c.foundation.toList :: .number c.componentID.toNat :: .word "UDP".toList ::
        .number c.priority.toNat :: .word c.addr.toList :: .number c.port ::
        .word c.type.toList :: related := rfl
  rw [hvalues]
  simp only [candidateOfValues]
  rw [if_pos hudp]
  simp only [String.ofList_toList, storeUnsigned_toNat, storeInt_of_isInt hport]

theorem SalIceCandidate.Fits.fits_fields (h : c.Fits) (related : List Value)
    (hrelated : (related.zip [64, 0]).all fun v => fitsBuffer v.2 v.1) :
    ((c.fields.filterMap Field.value ++ related).zip candidateSizes).all fun v =>
      fitsBuffer v.2 v.1 := by
  have hvalues : (c.fields.filterMap Field.value ++ related).zip candidateSizes =
      [(.word c.foundation.toList, 32), (.number c.componentID.toNat, 0), (.word "UDP".toList, 4),
        (.number c.priority.toNat, 0), (.word c.addr.toList, 64), (.number c.port, 0),
        (.word c.type.toList, 6)] ++ related.zip [64, 0] := rfl
  have hudp : "UDP".toList.length < 4 := by decide
  rw [hvalues, List.all_append, hrelated, Bool.and_true]
  simp only [List.all_cons, List.all_nil, fitsBuffer, h.foundation.2, h.addr.2, h.type.2, hudp,
    decide_true, Bool.and_true]

/-- **A candidate is read back.** -/
theorem SalIceCandidate.Fits.readCandidate (h : c.Fits) :
    Linphone.readCandidate c.value = some (some c) := by
  unfold Linphone.readCandidate
  rw [h.scanf_value]
  rcases h.raddr with ⟨hempty, hzero⟩ | ⟨hword, hint⟩
  · rw [if_pos hempty]
    simp only [h.fits_fields [] rfl, if_true]
    rw [candidateOfValues_fields h.port.1]
    exact congrArg (fun c => some (some c)) (by rw [← hempty, ← hzero])
  · have hne : c.raddr ≠ "" := by
      intro hempty
      exact hword.1.1 (by rw [hempty]; rfl)
    have hrelated : c.relatedFields.filterMap Field.value =
        [.word c.raddr.toList, .number c.rport] := rfl
    rw [if_neg hne, hrelated]
    have hfits := h.fits_fields [.word c.raddr.toList, .number c.rport]
      (by simp [fitsBuffer, hword.2])
    simp only [hfits, if_true]
    rw [candidateOfValues_fields h.port.1]
    simp only [String.ofList_toList, storeInt_of_isInt hint]

/-! ## Remote candidates -/

section

variable {c : SalIceRemoteCandidate} {table : List SalIceRemoteCandidate} {i : Nat}

/-- The text of an entry. -/
def remoteText (i : Nat) (c : SalIceRemoteCandidate) : List Char := fieldsText (remoteFields i c)

/-- How long an address and a port are. -/
def remoteLength (c : SalIceRemoteCandidate) : Nat := c.addr.toList.length + (decimal c.port).length

theorem length_remoteText (hi : i < remoteCandidatesMax) (c : SalIceRemoteCandidate) :
    (remoteText i c).length = remoteLength c + 3 := by
  have hone : (decimal ((i + 1 : Nat) : Int)).length = 1 := by
    revert i
    decide
  have hne : remoteFields i c ≠ [] := by simp [remoteFields]
  have hlength : (spaced (remoteFields i c)).length = (remoteText i c).length + 1 := by
    rw [Scan.spaced_eq hne, List.length_cons]
    rfl
  rw [length_spaced] at hlength
  simp only [remoteFields, List.map_cons, List.map_nil, List.sum_cons, List.sum_nil, Field.text,
    hone] at hlength
  unfold remoteLength
  omega

theorem scanRemoteCandidate_space (s : List Char) :
    scanRemoteCandidate (' ' :: s) = scanRemoteCandidate s := by
  unfold scanRemoteCandidate
  rw [Scan.scanf_space (by decide)]

theorem scanRemoteCandidate_text (h : c.Fits) (i : Nat) {s : List Char} (hs : Scan.Blank s) :
    scanRemoteCandidate (remoteText i c ++ s) =
      some ((((i + 1 : Nat) : Int), c.addr.toList, c.port), s) := by
  have hsuits : List.Forall₂ Directive.Suits [.number, .word none, .number] (remoteFields i c) :=
    .cons trivial (.cons h.addr.1 (.cons trivial .nil))
  unfold scanRemoteCandidate remoteText
  rw [Scan.scanf_fieldsText hsuits (by simp [remoteFields]) hs]
  rfl

theorem remoteEntry_storeRemote (h : c.Fits) (hi : i < remoteCandidatesMax) {j : Nat}
    (hj : j < remoteCandidatesMax) :
    remoteEntry (storeRemote table ((i + 1 : Nat), c.addr.toList, c.port)) j =
      if j = i then c else remoteEntry table j := by
  have hstored : (storeUnsigned ((i + 1 : Nat) : Int)).toNat = i + 1 := by
    revert i
    decide
  have hentry : remoteEntry (storeRemote table ((i + 1 : Nat), c.addr.toList, c.port)) j =
      if (storeUnsigned ((i + 1 : Nat) : Int)).toNat = j + 1 then
        { addr := String.ofList c.addr.toList, port := (storeUnsigned c.port).toInt32.toInt }
      else remoteEntry table j := by
    unfold storeRemote
    rw [remoteEntry, List.getElem?_map, List.getElem?_range hj]
    rfl
  rw [hentry, hstored, String.ofList_toList, storeUnsigned_toInt h.port.1]
  by_cases heq : j = i
  · rw [if_pos heq, if_pos (by omega)]
  · rw [if_neg heq, if_neg (by omega)]

theorem addRemote_of_fits (h : c.Fits) (hi : i < remoteCandidatesMax) {buffer : List Char}
    (hbuffer : buffer.length < 512) :
    addRemote buffer i c = buffer ++ ((if 0 < i then [' '] else []) ++ remoteText i c) := by
  have hne : c.addr ≠ "" := by
    intro hempty
    exact h.addr.1.1 (by rw [hempty]; rfl)
  have htext := length_remoteText hi c
  have haddr := h.addr.2
  have hport := h.port.1.length_decimal
  unfold remoteLength at htext
  have hlength : ((if 0 < i then [' '] else []) ++ remoteText i c).length <
      1024 - buffer.length := by
    rw [List.length_append]
    split <;> simp only [List.length_nil, List.length_cons] <;> omega
  unfold addRemote
  rw [if_pos ⟨hne, h.port.2⟩]
  exact congrArg _ (snprintf_eq hlength)

theorem addRemote_of_empty (buffer : List Char) (i : Nat) : addRemote buffer i {} = buffer :=
  if_neg fun h => h.1 rfl

/-! ## The loop -/

theorem readRemoteCandidates_last {s : List Char} {e : Int × List Char × Int}
    (hscan : scanRemoteCandidate s = some (e, [])) (hlength : e.2.1.length < 64) :
    readRemoteCandidates table s = some (storeRemote table e) := by
  rw [readRemoteCandidates]
  split
  · rename_i hnone
    rw [hscan] at hnone
    cases hnone
  · rename_i e' rest hsome
    obtain ⟨rfl, rfl⟩ := Prod.mk.inj (Option.some.inj (hscan.symm.trans hsome))
    rw [if_pos hlength, if_pos rfl]

theorem readRemoteCandidates_more {s rest : List Char} {e : Int × List Char × Int}
    (hscan : scanRemoteCandidate s = some (e, rest)) (hlength : e.2.1.length < 64)
    (hrest : rest ≠ []) :
    readRemoteCandidates table s =
      if s.length - rest.length ≤ rest.length then
        readRemoteCandidates (storeRemote table e) (skipSpace (s.length - rest.length) rest)
      else none := by
  rw [readRemoteCandidates]
  split
  · rename_i hnone
    rw [hscan] at hnone
    cases hnone
  · rename_i e' rest' hsome
    obtain ⟨rfl, rfl⟩ := Prod.mk.inj (Option.some.inj (hscan.symm.trans hsome))
    rw [if_pos hlength, if_neg hrest]

theorem readRemoteCandidates_text (h : c.Fits) :
    readRemoteCandidates table (remoteText i c) =
        some (storeRemote table (((i + 1 : Nat) : Int), c.addr.toList, c.port)) ∧
      readRemoteCandidates table (' ' :: remoteText i c) =
        some (storeRemote table (((i + 1 : Nat) : Int), c.addr.toList, c.port)) := by
  have hscan := scanRemoteCandidate_text h i Scan.blank_nil
  rw [List.append_nil] at hscan
  exact ⟨readRemoteCandidates_last hscan h.addr.2,
    readRemoteCandidates_last ((scanRemoteCandidate_space _).trans hscan) h.addr.2⟩

/-- **Two entries**: the second has to be as long as the first, less one. -/
theorem readRemoteCandidates_two {c' : SalIceRemoteCandidate} (h : c.Fits) (h' : c'.Fits) :
    readRemoteCandidates table (remoteText 0 c ++ ' ' :: remoteText 1 c') =
      if remoteLength c ≤ remoteLength c' + 1 then
        some (storeRemote (storeRemote table (((0 + 1 : Nat) : Int), c.addr.toList, c.port))
          (((1 + 1 : Nat) : Int), c'.addr.toList, c'.port))
      else none := by
  have hblank : Scan.Blank (' ' :: remoteText 1 c') := by
    intro x hx
    obtain rfl := Option.some.inj hx
    rfl
  have hfirst := @length_remoteText 0 (by decide) c
  have hsecond := @length_remoteText 1 (by decide) c'
  rw [readRemoteCandidates_more (scanRemoteCandidate_text h 0 hblank) h.addr.2 (by simp)]
  have hoffset : (remoteText 0 c ++ ' ' :: remoteText 1 c').length -
      (' ' :: remoteText 1 c').length = remoteLength c + 3 := by
    rw [List.length_append, hfirst]
    omega
  rw [hoffset, List.length_cons, hsecond]
  by_cases hle : remoteLength c ≤ remoteLength c' + 1
  · rw [if_pos hle, if_pos (by omega)]
    unfold skipSpace
    split
    · exact (readRemoteCandidates_text h').1
    · exact (readRemoteCandidates_text h').2
  · rw [if_neg hle, if_neg (by omega)]

end

/-! ## The attributes of an m-line -/

/-- An attribute of candidates. -/
def isCandidateAttribute (att : SdpAttribute) : Bool :=
  att.name = "candidate" || att.name = "remote-candidates"

/-- The tables of a stream. -/
def iceTables (stream : SalStreamDescription) :
    List SalIceCandidate × List SalIceRemoteCandidate :=
  (stream.iceCandidates, stream.iceRemoteCandidates)

/-- The attributes that leave the tables alone. -/
theorem iceStep_other {att : SdpAttribute} (h : isCandidateAttribute att = false)
    (stream : SalStreamDescription) :
    (iceStep stream att).map iceTables = some (iceTables stream) := by
  obtain ⟨name, value⟩ := att
  obtain ⟨hcandidate, hremote⟩ : name ≠ "candidate" ∧ name ≠ "remote-candidates" := by
    simpa [isCandidateAttribute] using h
  cases value with
  | none =>
    simp only [iceStep, Option.map_some]
    split <;> rfl
  | some value =>
    simp only [iceStep, hcandidate, hremote, and_false, if_false]
    split
    · rfl
    · split
      · rfl
      · split <;> rfl

/-- What becomes of the tables depends on them alone. -/
theorem iceStep_tables {s s' : SalStreamDescription} (h : iceTables s = iceTables s')
    (att : SdpAttribute) : (iceStep s att).map iceTables = (iceStep s' att).map iceTables := by
  by_cases hatt : isCandidateAttribute att = true
  · obtain ⟨hcandidates, hremote⟩ := Prod.mk.inj h
    obtain ⟨name, value⟩ := att
    cases value with
    | none =>
      simp only [iceStep]
      split <;> exact congrArg some h
    | some value =>
      have hname : name = "candidate" ∨ name = "remote-candidates" := by
        simpa [isCandidateAttribute] using hatt
      simp only [iceStep, hcandidates, hremote]
      rcases hname with rfl | rfl
      · split
        · rw [Option.map_map, Option.map_map]
          rfl
        · exact congrArg some h
      · have hne : ¬"remote-candidates" = "candidate" := by decide
        simp only [hne, and_false, if_false, if_true, Option.map_map]
        rfl
  · rw [Bool.not_eq_true] at hatt
    rw [iceStep_other hatt, iceStep_other hatt, h]

/-- **The tables depend on the attributes of candidates alone.** -/
theorem parse_tables (attributes : List SdpAttribute) {s s' : SalStreamDescription}
    (h : iceTables s = iceTables s') :
    (sdpParseMediaIceParameters attributes s).map iceTables =
      (sdpParseMediaIceParameters (attributes.filter isCandidateAttribute) s').map iceTables := by
  induction attributes generalizing s s' with
  | nil => exact congrArg some h
  | cons att attributes ih =>
    have hcons : ∀ (l : List SdpAttribute) t, sdpParseMediaIceParameters (att :: l) t =
        (iceStep t att).bind fun t => sdpParseMediaIceParameters l t := fun _ _ => rfl
    by_cases hatt : isCandidateAttribute att = true
    · have hstep := iceStep_tables h att
      rw [List.filter_cons_of_pos hatt, hcons, hcons]
      cases hs : iceStep s att with
      | none =>
        rw [hs] at hstep
        rw [Option.map_eq_none_iff.mp hstep.symm]
        rfl
      | some t =>
        rw [hs] at hstep
        obtain ⟨t', hs', ht⟩ := Option.map_eq_some_iff.mp hstep.symm
        rw [hs']
        exact ih ht.symm
    · rw [List.filter_cons_of_neg hatt, hcons]
      rw [Bool.not_eq_true] at hatt
      obtain ⟨t, hs, ht⟩ := Option.map_eq_some_iff.mp (iceStep_other hatt s)
      rw [hs]
      exact ih (ht.trans h)

/-- The attributes of candidates add them one by one. -/
theorem parse_candidates {candidates : List SalIceCandidate} (hfits : ∀ c ∈ candidates, c.Fits)
    {stream : SalStreamDescription}
    (hcount : stream.iceCandidates.length + candidates.length ≤ candidatesMax) :
    sdpParseMediaIceParameters (candidates.map fun c =>
        { name := "candidate", value := some (String.ofList c.value) }) stream =
      some { stream with iceCandidates := stream.iceCandidates ++ candidates } := by
  induction candidates generalizing stream with
  | nil =>
    rw [List.append_nil]
    rfl
  | cons c candidates ih =>
    rw [List.length_cons] at hcount
    have hstep : iceStep stream { name := "candidate", value := some (String.ofList c.value) } =
        some { stream with iceCandidates := stream.iceCandidates ++ [c] } := by
      simp only [iceStep]
      rw [if_pos ⟨by omega, trivial⟩, String.toList_ofList, (hfits c (by simp)).readCandidate]
      rfl
    rw [List.map_cons, sdpParseMediaIceParameters, List.foldlM_cons, hstep]
    refine (ih (fun x hx => hfits x (List.mem_cons_of_mem c hx)) ?_).trans ?_
    · simp only [List.length_append, List.length_singleton]
      omega
    · simp only [List.append_assoc, List.singleton_append]

/-- The tables of the stream `start` after the attributes. -/
def ReadTables (attributes : List SdpAttribute) (start desc : SalStreamDescription) : Prop :=
  ∃ stream, sdpParseMediaIceParameters attributes start = some stream ∧
    stream.iceCandidates = desc.iceCandidates ∧ ∀ i < remoteCandidatesMax,
      remoteEntry stream.iceRemoteCandidates i = remoteEntry desc.iceRemoteCandidates i

theorem readTables_iff {attributes : List SdpAttribute} {start desc : SalStreamDescription} :
    ReadTables attributes start desc ↔
      ∃ tables, (sdpParseMediaIceParameters attributes start).map iceTables = some tables ∧
        tables.1 = desc.iceCandidates ∧ ∀ i < remoteCandidatesMax,
          remoteEntry tables.2 i = remoteEntry desc.iceRemoteCandidates i := by
  constructor
  · rintro ⟨stream, hread, hcandidates, hremote⟩
    exact ⟨iceTables stream, by rw [hread]; rfl, hcandidates, hremote⟩
  · rintro ⟨tables, hread, hcandidates, hremote⟩
    obtain ⟨stream, hstream, rfl⟩ := Option.map_eq_some_iff.mp hread
    exact ⟨stream, hstream, hcandidates, hremote⟩

/-- The second remote candidate is as long as the first, less one. -/
def RemoteCandidatesInStep (table : List SalIceRemoteCandidate) : Prop :=
  remoteEntry table 0 ≠ {} → remoteEntry table 1 ≠ {} →
    remoteLength (remoteEntry table 0) ≤ remoteLength (remoteEntry table 1) + 1

theorem SalIceRemoteCandidate.Fits.ne_empty {c : SalIceRemoteCandidate} (h : c.Fits) : c ≠ {} := by
  rintro rfl
  exact h.port.2 rfl

theorem remoteText_ne_nil (i : Nat) (c : SalIceRemoteCandidate) : remoteText i c ≠ [] := by
  intro hnil
  have hne : remoteFields i c ≠ [] := by simp [remoteFields]
  have hlength := congrArg List.length (Scan.spaced_eq hne)
  rw [length_spaced, List.length_cons, ← remoteText, hnil] at hlength
  simp only [remoteFields, List.map_cons, List.sum_cons, List.length_nil] at hlength
  omega

/-- The buffer: an entry each for those that are in use. -/
theorem remoteBuffer_eq {table : List SalIceRemoteCandidate}
    (h : ∀ i < remoteCandidatesMax, remoteEntry table i = {} ∨ (remoteEntry table i).Fits) :
    remoteBuffer table =
      (if remoteEntry table 0 = {} then [] else remoteText 0 (remoteEntry table 0)) ++
        if remoteEntry table 1 = {} then [] else ' ' :: remoteText 1 (remoteEntry table 1) := by
  have hadd : ∀ (buffer : List Char) (i : Nat), i < remoteCandidatesMax → buffer.length < 512 →
      addRemote buffer i (remoteEntry table i) = buffer ++
        if remoteEntry table i = {} then []
        else (if 0 < i then [' '] else []) ++ remoteText i (remoteEntry table i) := by
    intro buffer i hi hbuffer
    rcases h i hi with hempty | hfits
    · rw [hempty, addRemote_of_empty, if_pos rfl, List.append_nil]
    · rw [if_neg hfits.ne_empty, addRemote_of_fits hfits hi hbuffer]
  have hlength : (if remoteEntry table 0 = {} then []
      else remoteText 0 (remoteEntry table 0)).length < 512 := by
    rcases h 0 (by decide) with hempty | hfits
    · rw [if_pos hempty]
      decide
    · have htext := @length_remoteText 0 (by decide) (remoteEntry table 0)
      have haddr := hfits.addr.2
      have hport := hfits.port.1.length_decimal
      rw [if_neg hfits.ne_empty, htext]
      unfold remoteLength
      omega
  have hbuffer : remoteBuffer table =
      addRemote (addRemote [] 0 (remoteEntry table 0)) 1 (remoteEntry table 1) := rfl
  rw [hbuffer, hadd [] 0 (by decide) (by decide)]
  exact hadd _ 1 (by decide) hlength

/-- The remote candidates that are read of the buffer. -/
theorem readRemoteCandidates_buffer {table : List SalIceRemoteCandidate}
    (h : ∀ i < remoteCandidatesMax, remoteEntry table i = {} ∨ (remoteEntry table i).Fits) :
    (∃ table', (if remoteBuffer table = [] then some []
        else readRemoteCandidates [] (remoteBuffer table)) = some table' ∧
      ∀ i < remoteCandidatesMax, remoteEntry table' i = remoteEntry table i) ↔
      RemoteCandidatesInStep table := by
  rw [remoteBuffer_eq h]
  unfold RemoteCandidatesInStep
  have hzero : ∀ i, remoteEntry [] i = {} := fun _ => rfl
  by_cases hfirst : remoteEntry table 0 = {}
  · rw [if_pos hfirst, List.nil_append]
    refine iff_of_true ?_ fun hne => absurd hfirst hne
    by_cases hsecond : remoteEntry table 1 = {}
    · rw [if_pos hsecond, if_pos rfl]
      refine ⟨[], rfl, fun i hi => ?_⟩
      match i, hi with
      | 0, _ => exact hfirst.symm
      | 1, _ => exact hsecond.symm
    · have hc := (h 1 (by decide)).resolve_left hsecond
      rw [if_neg hsecond, if_neg (List.cons_ne_nil _ _)]
      refine ⟨_, (@readRemoteCandidates_text _ [] 1 hc).2, fun i hi => ?_⟩
      rw [remoteEntry_storeRemote hc (by decide) hi]
      match i, hi with
      | 0, _ => exact hfirst.symm
      | 1, _ => rfl
  · have hc := (h 0 (by decide)).resolve_left hfirst
    rw [if_neg hfirst]
    by_cases hsecond : remoteEntry table 1 = {}
    · rw [if_pos hsecond, List.append_nil, if_neg (remoteText_ne_nil _ _)]
      refine iff_of_true ⟨_, (@readRemoteCandidates_text _ [] 0 hc).1, fun i hi => ?_⟩
        fun _ hne => absurd hsecond hne
      rw [remoteEntry_storeRemote hc (by decide) hi]
      match i, hi with
      | 0, _ => rfl
      | 1, _ => exact hsecond.symm
    · have hc' := (h 1 (by decide)).resolve_left hsecond
      have hne : remoteText 0 (remoteEntry table 0) ++
          ' ' :: remoteText 1 (remoteEntry table 1) ≠ [] := by simp
      rw [if_neg hsecond, if_neg hne, readRemoteCandidates_two hc hc']
      by_cases hle : remoteLength (remoteEntry table 0) ≤ remoteLength (remoteEntry table 1) + 1
      · rw [if_pos hle]
        refine iff_of_true ⟨_, rfl, fun i hi => ?_⟩ fun _ _ => hle
        rw [remoteEntry_storeRemote hc' (by decide) hi, remoteEntry_storeRemote hc (by decide) hi]
        match i, hi with
        | 0, _ => rfl
        | 1, _ => rfl
      · rw [if_neg hle]
        refine iff_of_false ?_ fun hstep => hle (hstep hfirst hsecond)
        rintro ⟨table', hnone, -⟩
        cases hnone

theorem addIceCandidates_eq {desc : SalStreamDescription} (h : IceFieldsFit desc) :
    addIceCandidates desc = desc.iceCandidates.map fun c =>
      { name := "candidate", value := some (String.ofList c.value) } := by
  have hall : ∀ c ∈ desc.iceCandidates, decide (c.addr ≠ "" ∧ c.port ≠ 0) = true := by
    intro c hc
    have hfits := h.candidates c hc
    have hne : c.addr ≠ "" := by
      intro hempty
      exact hfits.addr.1.1 (by rw [hempty]; rfl)
    exact decide_eq_true ⟨hne, hfits.port.2⟩
  unfold addIceCandidates
  rw [List.take_of_length_le h.count, List.takeWhile_eq_self_iff.mpr hall]

/-- The attribute of remote candidates, if there is one, is read into the table. -/
theorem parse_remoteCandidates {desc stream : SalStreamDescription}
    (hremote : stream.iceRemoteCandidates = []) :
    sdpParseMediaIceParameters (addIceRemoteCandidates desc) stream =
      (if remoteBuffer desc.iceRemoteCandidates = [] then some []
        else readRemoteCandidates [] (remoteBuffer desc.iceRemoteCandidates)).map fun table =>
          { stream with iceRemoteCandidates := table } := by
  by_cases hbuffer : remoteBuffer desc.iceRemoteCandidates = []
  · have hnone : addIceRemoteCandidates desc = [] := if_pos hbuffer
    rw [hnone, if_pos hbuffer, ← hremote]
    rfl
  · have hone : addIceRemoteCandidates desc = [{
        name := "remote-candidates"
        value := some (String.ofList (remoteBuffer desc.iceRemoteCandidates)) }] := if_neg hbuffer
    have hname : ¬"remote-candidates" = "candidate" := by decide
    rw [hone, if_neg hbuffer, sdpParseMediaIceParameters, List.foldlM_cons]
    simp only [iceStep, hname, and_false, if_false, if_true, String.toList_ofList, hremote,
      List.foldlM_nil]
    exact bind_pure _

/-- What a stream's own attributes are read as. -/
theorem readTables_written_iff {desc start : SalStreamDescription} (h : IceFieldsFit desc)
    (hcandidates : start.iceCandidates = []) (hremote : start.iceRemoteCandidates = []) :
    ReadTables (addIceCandidates desc ++ addIceRemoteCandidates desc) start desc ↔
      RemoteCandidatesInStep desc.iceRemoteCandidates := by
  rw [← readRemoteCandidates_buffer h.remote]
  have hread : sdpParseMediaIceParameters (addIceCandidates desc ++ addIceRemoteCandidates desc)
      start = sdpParseMediaIceParameters (addIceRemoteCandidates desc)
        { start with iceCandidates := desc.iceCandidates } := by
    rw [sdpParseMediaIceParameters, List.foldlM_append, addIceCandidates_eq h]
    have hfirst := @parse_candidates _ h.candidates start (by rw [hcandidates]; simpa using h.count)
    rw [hcandidates, List.nil_append] at hfirst
    rw [sdpParseMediaIceParameters] at hfirst
    rw [hfirst]
    rfl
  unfold ReadTables
  rw [hread,
    @parse_remoteCandidates desc { start with iceCandidates := desc.iceCandidates } hremote]
  constructor
  · rintro ⟨stream, hstream, -, hentries⟩
    obtain ⟨table, htable, rfl⟩ := Option.map_eq_some_iff.mp hstream
    exact ⟨table, htable, hentries⟩
  · rintro ⟨table, htable, hentries⟩
    rw [htable]
    exact ⟨_, rfl, rfl, hentries⟩

/-! ## Any value -/

/-- What follows an entry is as long as the entry, where anything follows, and addresses fit into
their buffer, entry after entry. -/
inductive RemoteEntriesInStep : List Char → Prop where
  | stop {s : List Char} : scanRemoteCandidate s = none → RemoteEntriesInStep s
  | last {s : List Char} {c : Int × List Char × Int} : scanRemoteCandidate s = some (c, []) →
      c.2.1.length < 64 → RemoteEntriesInStep s
  | more {s rest : List Char} {c : Int × List Char × Int} :
      scanRemoteCandidate s = some (c, rest) → c.2.1.length < 64 → rest ≠ [] →
      s.length - rest.length ≤ rest.length →
      RemoteEntriesInStep (skipSpace (s.length - rest.length) rest) → RemoteEntriesInStep s

/-- **Reading a value** is defined exactly when its entries are in step. -/
theorem readRemoteCandidates_isSome_iff (table : List SalIceRemoteCandidate) (value : List Char) :
    (readRemoteCandidates table value).isSome ↔ RemoteEntriesInStep value := by
  constructor
  · intro h
    induction table, value using readRemoteCandidates.induct with
    | case1 table s hscan => exact .stop hscan
    | case2 table s c hfits hscan => exact .last hscan hfits
    | case3 table s c rest hscan hfits hrest hle ih =>
      rw [readRemoteCandidates_more hscan hfits hrest, if_pos hle] at h
      exact .more hscan hfits hrest hle (ih h)
    | case4 table s c rest hscan hfits hrest hle =>
      rw [readRemoteCandidates_more hscan hfits hrest, if_neg hle] at h
      cases h
    | case5 table s c rest hscan hfits =>
      rw [readRemoteCandidates] at h
      split at h
      · rename_i hnone
        rw [hscan] at hnone
        cases hnone
      · rename_i c' rest' hsome
        obtain ⟨rfl, rfl⟩ := Prod.mk.inj (Option.some.inj (hscan.symm.trans hsome))
        rw [if_neg hfits] at h
        cases h
  · intro h
    induction h generalizing table with
    | stop hscan =>
      rw [readRemoteCandidates]
      split
      · rfl
      · rename_i c rest hsome
        rw [hscan] at hsome
        cases hsome
    | last hscan hfits =>
      rw [readRemoteCandidates_last hscan hfits]
      rfl
    | more hscan hfits hrest hle _ ih =>
      rw [readRemoteCandidates_more hscan hfits hrest, if_pos hle]
      exact ih _

/-- Streams with a candidate behind a relay, and with the addresses of two components. -/
def relayedStream (remote : List SalIceRemoteCandidate) : SalStreamDescription where
  iceCandidates := [{ foundation := "1", componentID := 1, priority := 16777215, addr := "10.0.0.1"
                      port := 7078, type := "relay", raddr := "10.0.0.2", rport := 7078 }]
  iceRemoteCandidates := remote

theorem iceFieldsFit_relayedStream {c c' : SalIceRemoteCandidate} (h : c.Fits) (h' : c'.Fits) :
    IceFieldsFit (relayedStream [c, c']) where
  count := show 1 ≤ 20 by decide
  candidates := by
    intro candidate hmem
    obtain rfl := List.mem_singleton.mp hmem
    exact ⟨⟨⟨by decide, by decide⟩, by decide⟩, ⟨⟨by decide, by decide⟩, by decide⟩,
      ⟨⟨by decide, by decide⟩, by decide⟩, ⟨⟨by decide, by decide⟩, by decide⟩,
      .inr ⟨⟨⟨by decide, by decide⟩, by decide⟩, by decide, by decide⟩⟩
  remote := by
    intro i hi
    match i, hi with
    | 0, _ => exact .inr h
    | 1, _ => exact .inr h'

end Linphone
