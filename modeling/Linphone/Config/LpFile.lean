import Linphone.Lib.CString
import Mathlib.Data.List.DropRight

/-!
# The configuration file

`coreapi/lpconfig.c` with what a file holds: sections with parameters after their names, and items
with comments between them. `parse` is `lp_config_parse`: `fgets` fills a buffer line by line,
`scanLine` is what `lp_config_parse_line` finds in it, and `readLine` what it does to the
configuration. `sync` is the text `lp_config_sync` writes.

A character stands for a byte. The memory behind what is written to the buffer is zero.
-/

namespace Linphone

open CString

/-- The characters of a C string. -/
abbrev LpText : Type := List Char

/-- `LpItem` -/
inductive LpItem
  | comment (value : LpText)
  | entry (key value : LpText)
deriving DecidableEq

structure LpSectionParam where
  key : LpText
  value : LpText
deriving DecidableEq

/-- `LpSection`, with its parameters and comments. -/
structure LpFileSection where
  name : LpText
  params : List LpSectionParam := []
  items : List LpItem := []
deriving DecidableEq

/-- The sections of an `LpConfig`. -/
abbrev LpFile : Type := List LpFileSection

/-! ## Items -/

namespace LpItem

/-- The value `lp_section_find_item` finds for a key. -/
def find (key : LpText) : List LpItem → Option LpText
  | [] => none
  | .comment _ :: items => find key items
  | .entry key' value :: items => if key' = key then some value else find key items

/-- The value of an item is replaced, or an item is added at the end. -/
def put (key value : LpText) : List LpItem → List LpItem
  | [] => [.entry key value]
  | .comment text :: items => .comment text :: put key value items
  | .entry key' value' :: items =>
      if key' = key then .entry key' value :: items else .entry key' value' :: put key value items

/-- `lp_section_remove_item`, for the item of a key. -/
def remove (key : LpText) : List LpItem → List LpItem
  | [] => []
  | .comment text :: items => .comment text :: remove key items
  | .entry key' value :: items =>
      if key' = key then items else .entry key' value :: remove key items

/-- The keys of the items that are no comments. -/
def keys (items : List LpItem) : List LpText :=
  items.filterMap fun
    | .comment _ => none
    | .entry key _ => some key

/-- `lp_item_write` -/
def write : LpItem → LpText
  | .comment value => value ++ ['\n']
  | .entry key value => if value ≠ [] then key ++ '=' :: value ++ ['\n'] else []

end LpItem

/-- `lp_section_param_write` -/
def LpSectionParam.write (param : LpSectionParam) : LpText :=
  if param.value ≠ [] then ' ' :: param.key ++ '=' :: param.value else []

namespace LpFileSection

variable (sec : LpFileSection)

def addParams (params : List LpSectionParam) : LpFileSection :=
  { sec with params := sec.params ++ params }

def addComment (text : LpText) : LpFileSection :=
  { sec with items := sec.items ++ [.comment text] }

def setItem (key value : LpText) : LpFileSection :=
  { sec with items := LpItem.put key value sec.items }

def removeItem (key : LpText) : LpFileSection :=
  { sec with items := LpItem.remove key sec.items }

/-- The line with the name of a section. -/
def header : LpText := '[' :: sec.name ++ sec.params.flatMap LpSectionParam.write ++ [']']

/-- `lp_section_write` -/
def write : LpText := sec.header ++ '\n' :: sec.items.flatMap LpItem.write ++ ['\n']

end LpFileSection

/-! ## Lines -/

/-- What `lp_config_parse_line` finds in a line. -/
inductive LpLine
  | header (name : LpText) (params : List LpSectionParam)
  | comment (text : LpText)
  | pair (key value : LpText)
  | other
deriving DecidableEq

/-- `MAX_LEN` -/
def maxLen : Nat := 16384

/-- `is_first_char` -/
def isFirstChar (start : LpText) (pos : Nat) : Bool := (start.take pos).all (· = ' ')

/-- `is_a_comment` -/
def isAComment (str : LpText) : Bool := (str.dropWhile (· = ' ')).head? = some '#'

/-- A text up to the carriage return in it, or else up to the line feed. -/
def untilLineEnd (s : LpText) : LpText :=
  if '\r' ∈ s then s.takeWhile (· ≠ '\r') else s.takeWhile (· ≠ '\n')

/-- NULs are written to a piece of memory. -/
def blank (mem : LpText) (start stop : Nat) : LpText :=
  mem.take start ++ List.replicate (stop - start) nul ++ mem.drop (max start stop)

/-- The parameters of a section: each `=` in turn is replaced by a space, and two words are read. -/
def scanParams : Nat → LpText → Nat → List LpSectionParam × LpText
  | 0, mem, _ => ([], mem)
  | fuel + 1, mem, pos2 =>
      match strchr mem pos2 '=' with
      | none => ([], mem)
      | some pos1 =>
          let mem := mem.set pos1 ' '
          match twoWords (read (mem.drop pos2)) with
          | none => ([], mem)
          | some (key, value) =>
              let rest := scanParams fuel mem (pos2 + key.length + value.length + 2)
              (⟨key, value⟩ :: rest.1, rest.2)

/-- A line that begins with a bracket, at `pos1`. -/
def scanHeader (mem : LpText) (pos1 : Nat) : LpLine × LpText :=
  match strchr mem pos1 ']' with
  | none => (.other, mem)
  | some pos2 =>
      let mem := mem.set pos2 nul
      let secname := word (read (mem.drop (pos1 + 1)))
      if secname = [] then (.other, mem)
      else if pos1 + 1 + secname.length < pos2 then
        let found := scanParams (mem.length + 1) mem (pos1 + 1 + secname.length + 1)
        (.header secname found.1, found.2)
      else (.header secname [], mem)

/-- A line with a key and a value, or a comment. -/
def scanItem (mem : LpText) : LpLine × LpText :=
  if isAComment (read mem) then (.comment (untilLineEnd (read mem)), mem)
  else
    match strchr mem 0 '=' with
    | none => (.other, mem)
    | some pos1 =>
        let mem := mem.set pos1 nul
        let key := word (read mem)
        if key = [] then (.other, mem)
        else
          let rest := read (mem.drop (pos1 + 1))
          let value := (untilLineEnd rest).rdropWhile (· = ' ')
          -- the end of the line, if there is one, and the spaces before it are overwritten
          let stop := min rest.length ((untilLineEnd rest).length + 1)
          let mem := blank mem (pos1 + 1 + value.length) (pos1 + 1 + stop)
          if value = [] then (.other, mem) else (.pair key value, mem)

/-- What is found in the line at the start of the buffer, and the buffer after it. -/
def scanLine (mem : LpText) : LpLine × LpText :=
  match strchr mem 0 '[' with
  | some pos1 => if isFirstChar mem pos1 then scanHeader mem pos1 else scanItem mem
  | none => scanItem mem

/-- The lines `fgets` reads into the buffer, one after the other. -/
def scanPieces (mem : LpText) : List LpText → List LpLine
  | [] => []
  | piece :: pieces =>
      let line := scanLine (piece ++ nul :: mem.drop (piece.length + 1))
      line.1 :: scanPieces line.2 pieces

def linesOf (file : LpText) : List LpLine := scanPieces [] (pieces (maxLen - 1) [] file)

/-- A line that begins with a bracket is a header, or nothing. -/
theorem scanHeader_cases (mem : LpText) (pos1 : Nat) :
    (scanHeader mem pos1).1 = .other ∨
      ∃ name params, (scanHeader mem pos1).1 = .header name params := by
  unfold scanHeader
  split
  · exact Or.inl rfl
  · dsimp only
    split
    · exact Or.inl rfl
    · split
      · exact Or.inr ⟨_, _, rfl⟩
      · exact Or.inr ⟨_, _, rfl⟩

/-- Any other line is a comment, a pair with a value, or nothing. -/
theorem scanItem_cases (mem : LpText) :
    (scanItem mem).1 = .other ∨ (∃ text, (scanItem mem).1 = .comment text) ∨
      ∃ key value, (scanItem mem).1 = .pair key value ∧ value ≠ [] := by
  unfold scanItem
  split
  · exact Or.inr (Or.inl ⟨_, rfl⟩)
  · split
    · exact Or.inl rfl
    · dsimp only
      split
      · exact Or.inl rfl
      · split
        · exact Or.inl rfl
        · rename_i hne
          exact Or.inr (Or.inr ⟨_, _, rfl, hne⟩)

/-! ## The configuration -/

namespace LpFile

variable (lpconfig : LpFile)

/-- `lp_config_find_section` -/
def findSection (name : LpText) : Option LpFileSection := lpconfig.find? (·.name = name)

/-- A change of the section `lp_config_find_section` finds. -/
def modifySection (name : LpText) (f : LpFileSection → LpFileSection) : LpFile → LpFile
  | [] => []
  | sec :: secs => if sec.name = name then f sec :: secs else sec :: modifySection name f secs

/-- `lp_config_get_string`, with a default of `NULL`. -/
def getString (sec key : LpText) : Option LpText :=
  (findSection lpconfig sec).bind fun s => LpItem.find key s.items

/-- `lp_config_set_string` -/
def setString (sec key : LpText) (value : Option LpText) : LpFile :=
  let text := value.getD []
  match findSection lpconfig sec with
  | some _ =>
      if text ≠ [] then modifySection sec (·.setItem key text) lpconfig
      else modifySection sec (·.removeItem key) lpconfig
  | none =>
      if text ≠ [] then lpconfig ++ [{ name := sec, items := [.entry key text] }] else lpconfig

/-- `lp_config_clean_section` -/
def cleanSection (sec : LpText) : LpFile := lpconfig.eraseP (·.name = sec)

/-- A section is found by its name, or added. -/
def openSection (name : LpText) : LpFile :=
  match findSection lpconfig name with
  | some _ => lpconfig
  | none => lpconfig ++ [{ name := name }]

/-- A line that was read, when there is a section or none. As sections are found by their names,
the current section is the one of its name. -/
def readLine (state : LpFile × Option LpText) (line : LpLine) : LpFile × Option LpText :=
  match line, state with
  | .header name params, (lpconfig, _) =>
      (modifySection name (·.addParams params) (openSection lpconfig name), some name)
  | .comment text, (lpconfig, some cur) =>
      (modifySection cur (·.addComment text) lpconfig, some cur)
  | .pair key value, (lpconfig, some cur) =>
      (modifySection cur (·.setItem key value) lpconfig, some cur)
  | _, state => state

def readLines (state : LpFile × Option LpText) (lines : List LpLine) : LpFile × Option LpText :=
  lines.foldl readLine state

/-- `lp_config_parse` -/
def parse (file : LpText) : LpFile := (readLines (lpconfig, none) (linesOf file)).1

/-- The text `lp_config_sync` writes. -/
def sync : LpText := lpconfig.flatMap LpFileSection.write

end LpFile

end Linphone
