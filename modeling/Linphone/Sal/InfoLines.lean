import Linphone.Lib.Buffer
import Linphone.Sal.Description
import Mathlib.Data.List.DropRight
import Mathlib.Data.Option.Basic

/-!
# Values in the lines of an INFO body

`sal_lines_get_value` looks for a line `key=value`. Each line is copied into 256 characters, and a
line that fills them has no NUL: its search for `=` and the reading of its value then go on behind
the buffer.

`info_lines_read_iff`: when the value found is that of the first line with the key.
-/

namespace Linphone

open Buffer
open CString (nul word)
open Scan (isSpace)

/-! ## The parser -/

def removeTrailingSpaces (line : List Char) : List Char := line.rdropWhile isSpace

/-- The length of the first line, with its end. -/
def lineLength (input : List Char) : Nat :=
  if '\n' ∈ input then input.idxOf '\n' + 1 else input.length

/-- `line_get_value`, which also sets `*read` to the length of the line: what it leaves in `value`
when the line has the key. The outer option is `none` when a buffer is read or written behind its
end. -/
def lineGetValue (input key value : List Char) (valueSize : Nat) : Option (Option (List Char)) :=
  (strncpy (List.replicate 256 nul) 0 input (min (lineLength input) 256)).bind fun line =>
    (Buffer.strchr line 0 '=').bind fun equal =>
      match equal with
      | none => some none
      | some equal =>
        (write line equal [nul]).bind fun line =>
          (string line 0).bind fun before =>
            if word before = [] then some none
            else
              (write (List.replicate 256 nul) 0 (word before ++ [nul])).bind fun candidate =>
                (string candidate 0).bind fun candidate =>
                  if strcasecmp (String.ofList key) (String.ofList candidate) then
                    (string line (equal + 1)).bind fun after =>
                      (strncpy value 0 (removeTrailingSpaces after) (valueSize - 1)).bind fun v =>
                        (write v (valueSize - 1) [nul]).map some
                  else some none

theorem lineLength_le (input : List Char) : lineLength input ≤ input.length := by
  unfold lineLength
  split_ifs with hmem
  · exact List.idxOf_lt_length_of_mem hmem
  · exact le_rfl

/-- `sal_lines_get_value`: the buffer for the value when a line has the key. -/
def salLinesGetValue (data key value : List Char) (valueSize : Nat) :
    Option (Option (List Char)) :=
  (lineGetValue data key value valueSize).bind fun found =>
    match found with
    | some v => some (some v)
    | none =>
      if lineLength data = 0 then some none
      else salLinesGetValue (data.drop (lineLength data)) key value valueSize
termination_by data.length
decreasing_by
  rename_i hread
  rw [List.length_drop]
  have hle := lineLength_le data
  omega

/-! ## Lines with a key and a value -/

theorem lineLength_pos {input : List Char} (h : input ≠ []) : 0 < lineLength input := by
  unfold lineLength
  split_ifs with hmem
  · exact Nat.succ_pos _
  · exact List.length_pos_iff.mpr h

/-- The lines of a text, each with its end. -/
def bodyLines (text : List Char) : List (List Char) :=
  if _hne : text = [] then []
  else text.take (lineLength text) :: bodyLines (text.drop (lineLength text))
termination_by text.length
decreasing_by
  rw [List.length_drop]
  have hle := lineLength_le text
  have hpos := lineLength_pos _hne
  omega

def beforeEqual (line : List Char) : List Char := line.takeWhile (· ≠ '=')

/-- What stands behind the first `=`, without trailing spaces. -/
def lineValue (line : List Char) : List Char :=
  removeTrailingSpaces ((line.dropWhile (· ≠ '=')).drop 1)

/-- The text in front of `=` is the key, in any case, with blanks around it. -/
def HasKey (key line : List Char) : Bool :=
  decide ('=' ∈ line) && strcasecmp (String.ofList key)
    (String.ofList (removeTrailingSpaces ((beforeEqual line).dropWhile isSpace)))

/-- The first word in front of `=` is the key, in any case. -/
def HasWord (key line : List Char) : Bool :=
  decide ('=' ∈ line) && decide (word (beforeEqual line) ≠ []) &&
    strcasecmp (String.ofList key) (String.ofList (word (beforeEqual line)))

/-- The value of the first line that has the key is found, cut to the buffer, and nothing is found
when no line has it. -/
def InfoLinesRead (text key : CText) (n : Nat) : Prop :=
  ∀ value : List Char, value.length = n + 1 →
    ∃ found, salLinesGetValue text.val key.val value (n + 1) = some found ∧
      found.map (string · 0) =
        ((bodyLines text.val).find? (HasKey key.val)).map fun line =>
          some ((lineValue line).take n)

/-! ## The condition -/

/-- A line has a NUL in the buffer, or it is left for its key. -/
def LineEnds (key line : List Char) : Prop :=
  line.length < 256 ∨ '=' ∈ line.take 256 ∧ HasWord key line = false

/-- The lines up to the first one whose first word is the key. -/
def linesReached (key : List Char) (lines : List (List Char)) : List (List Char) :=
  lines.takeWhile (!HasWord key ·) ++ (lines.find? (HasWord key)).toList

/-- The first line whose first word is the key has the value of the first line with the key. -/
def SameValue (key : List Char) (n : Nat) (lines : List (List Char)) : Prop :=
  (lines.find? (HasWord key)).map (fun line => (lineValue line).take n) =
    (lines.find? (HasKey key)).map fun line => (lineValue line).take n

/-! ## One line -/

section Line

variable {input key value : List Char} {n : Nat}

/-- The first line, with its end. -/
def firstLine (input : List Char) : List Char := input.take (lineLength input)

/-- What the buffer has of a line, with NULs behind it when there is room. -/
theorem copied_line (input : List Char) :
    strncpy (List.replicate 256 nul) 0 input (min (lineLength input) 256) =
      some ((firstLine input).take 256 ++
        List.replicate (256 - ((firstLine input).take 256).length) nul) := by
  have hle := lineLength_le input
  have hcells : copied input (min (lineLength input) 256) = (firstLine input).take 256 := by
    rw [copied_of_le (by omega), firstLine, List.take_take, Nat.min_comm]
  have hlen : ((firstLine input).take 256).length = min (lineLength input) 256 := by
    rw [← hcells, length_copied]
  have hfits : 0 + (copied input (min (lineLength input) 256)).length ≤
      (List.replicate 256 nul).length := by
    rw [length_copied, List.length_replicate]
    omega
  rw [strncpy, write_of_le hfits, hcells, List.take_zero, List.nil_append, Nat.zero_add,
    List.drop_replicate]

theorem not_nul_mem_firstLine (hnul : nul ∉ input) : nul ∉ (firstLine input).take 256 :=
  fun hmem => hnul (List.mem_of_mem_take (List.mem_of_mem_take hmem))

theorem lineGetValue_of_no_equal (hnul : nul ∉ input)
    (h : '=' ∉ (firstLine input).take 256) (valueSize : Nat) :
    lineGetValue input key value valueSize =
      if (firstLine input).length < 256 then some none else none := by
  rw [lineGetValue, copied_line, Option.bind_some,
    strchr_padded (not_nul_mem_firstLine hnul), if_neg h, List.length_take]
  by_cases hlen : (firstLine input).length < 256
  · rw [if_neg (by omega), if_pos hlen]
    rfl
  · rw [if_pos (by omega), if_neg hlen]
    rfl

theorem lineGetValue_of_equal (hnul : nul ∉ input) {a b : List Char} (ha : '=' ∉ a)
    (h : (firstLine input).take 256 = a ++ '=' :: b) (valueSize : Nat) :
    lineGetValue input key value valueSize =
      if word a = [] then some none
      else if strcasecmp (String.ofList key) (String.ofList (word a)) then
        if 256 ≤ (firstLine input).length then none
        else
          (strncpy value 0 (removeTrailingSpaces b) (valueSize - 1)).bind fun v =>
            (write v (valueSize - 1) [nul]).map some
      else some none := by
  have hcells := not_nul_mem_firstLine hnul
  rw [h] at hcells
  have hanul : nul ∉ a := fun hmem => hcells (List.mem_append_left _ hmem)
  have hbnul : nul ∉ b := fun hmem => hcells (by simp [hmem])
  have hequal : (a ++ '=' :: b).idxOf '=' = a.length := by
    rw [List.idxOf_append_of_notMem ha, List.idxOf_cons_self, Nat.add_zero]
  have hlen := congrArg List.length h
  rw [List.length_take, List.length_append, List.length_cons] at hlen
  have hword : (word a).length < (List.replicate 256 nul).length := by
    have hle : (word a).length ≤ a.length :=
      ((List.takeWhile_sublist _).trans (List.dropWhile_sublist _)).length_le
    rw [List.length_replicate]
    omega
  obtain ⟨candidate, hwrite, -, hcandidate⟩ := exists_write_string hword fun hmem =>
    hanul (CString.mem_of_mem_word hmem)
  have hpad : a ++ '=' :: b ++ List.replicate (256 - (a ++ '=' :: b).length) nul =
      a ++ '=' :: (b ++ List.replicate (256 - (a ++ '=' :: b).length) nul) := by
    rw [List.append_assoc, List.cons_append]
  have hafter : string (a ++ nul :: (b ++ List.replicate (256 - (a ++ '=' :: b).length) nul))
      (a.length + 1) = if 256 ≤ (firstLine input).length then none else some b := by
    have hdrop : (a ++ nul :: (b ++ List.replicate (256 - (a ++ '=' :: b).length) nul)).drop
        (a.length + 1) = b ++ List.replicate (256 - (a ++ '=' :: b).length) nul := by
      rw [← List.drop_drop, List.drop_left, List.drop_one, List.tail_cons]
    rw [string_padded hdrop hbnul, List.length_append, List.length_cons]
    by_cases hlong : 256 ≤ (firstLine input).length
    · rw [if_pos (by omega), if_pos hlong]
    · rw [if_neg (by omega), if_neg hlong]
  have hbefore : string (a ++ nul :: (b ++ List.replicate (256 - (a ++ '=' :: b).length) nul)) 0 =
      some a := string_of_drop rfl hanul
  rw [lineGetValue, copied_line, Option.bind_some, h, strchr_padded hcells, if_pos (by simp),
    hequal, hpad]
  simp only [Option.bind_some, write_middle, hbefore, hwrite, hcandidate, hafter]
  split_ifs <;> rfl

/-- The text in front of `=` of a line that the buffer has up to there. -/
theorem beforeEqual_of_take {line a b : List Char} (ha : '=' ∉ a)
    (h : line.take 256 = a ++ '=' :: b) :
    '=' ∈ line ∧ beforeEqual line = a ∧
      lineValue line = removeTrailingSpaces (b ++ line.drop 256) := by
  have hline : line = a ++ '=' :: (b ++ line.drop 256) := by
    conv_lhs => rw [← List.take_append_drop 256 line, h, List.append_assoc, List.cons_append]
  have hall : ∀ c ∈ a, decide (c ≠ '=') = true := by
    intro c hc
    have hne : c ≠ '=' := fun heq => ha (heq ▸ hc)
    simpa using hne
  refine ⟨?_, ?_, ?_⟩
  · rw [hline]
    simp
  · rw [beforeEqual, hline, List.takeWhile_append_of_pos hall]
    simp
  · rw [lineValue]
    conv_lhs => rw [hline]
    rw [List.dropWhile_append_of_pos hall]
    simp

theorem exists_equal {line : List Char} (h : '=' ∈ line.take 256) :
    ∃ a b, '=' ∉ a ∧ line.take 256 = a ++ '=' :: b := by
  obtain ⟨a, b, hsplit, ha⟩ := List.eq_append_cons_of_mem h
  exact ⟨a, b, ha, hsplit⟩

/-- A line that ends in the buffer, or is left for its key, is passed without its key. -/
theorem lineGetValue_of_not_hasWord (hnul : nul ∉ input)
    (hends : LineEnds key (firstLine input)) (hword : HasWord key (firstLine input) = false)
    (valueSize : Nat) : lineGetValue input key value valueSize = some none := by
  by_cases h : '=' ∈ (firstLine input).take 256
  · obtain ⟨a, b, ha, hsplit⟩ := exists_equal h
    obtain ⟨hmem, hbefore, -⟩ := beforeEqual_of_take ha hsplit
    rw [lineGetValue_of_equal hnul ha hsplit]
    simp only [HasWord, hmem, hbefore, decide_true, Bool.true_and] at hword
    split_ifs with hempty hsame hlong
    · rfl
    · simp [hempty, hsame] at hword
    · simp [hempty, hsame] at hword
    · rfl
  · rw [lineGetValue_of_no_equal hnul h, if_pos]
    rcases hends with hlen | ⟨hmem, -⟩
    · exact hlen
    · exact absurd hmem h

/-- The value of a line with the key is copied, when the line ends in the buffer. -/
theorem lineGetValue_of_hasWord (hnul : nul ∉ input)
    (hlen : (firstLine input).length < 256) (hword : HasWord key (firstLine input) = true)
    (hvalue : value.length = n + 1) :
    ∃ mem, lineGetValue input key value (n + 1) = some (some mem) ∧
      string mem 0 = some ((lineValue (firstLine input)).take n) := by
  have htake : (firstLine input).take 256 = firstLine input := List.take_of_length_le hlen.le
  simp only [HasWord, Bool.and_eq_true, decide_eq_true_eq] at hword
  obtain ⟨⟨hmem, hne⟩, hsame⟩ := hword
  obtain ⟨a, b, ha, hsplit⟩ := exists_equal (htake.symm ▸ hmem)
  obtain ⟨-, hbefore, hlineValue⟩ := beforeEqual_of_take ha hsplit
  rw [List.drop_eq_nil_of_le hlen.le, List.append_nil] at hlineValue
  have hbnul : nul ∉ removeTrailingSpaces b := by
    intro hin
    have hcells := not_nul_mem_firstLine hnul
    rw [hsplit] at hcells
    have hb := (List.rdropWhile_prefix isSpace b).subset hin
    exact hcells (by simp [hb])
  obtain ⟨v, mem, hcopy, hwrite, hstring⟩ := exists_strncpy_nul hbnul hvalue
  rw [hbefore] at hne hsame
  refine ⟨mem, ?_, by rw [hlineValue, hstring]⟩
  rw [lineGetValue_of_equal hnul ha hsplit, if_neg hne, if_pos hsame, if_neg (by omega),
    Nat.add_sub_cancel, hcopy, Option.bind_some, hwrite, Option.map_some]

/-- Any other line is read behind the buffer. -/
theorem lineGetValue_of_not_ends (hnul : nul ∉ input)
    (hends : ¬ LineEnds key (firstLine input)) (valueSize : Nat) :
    lineGetValue input key value valueSize = none := by
  rw [LineEnds, not_or, not_and, Bool.not_eq_false] at hends
  obtain ⟨hlen, hkey⟩ := hends
  by_cases h : '=' ∈ (firstLine input).take 256
  · obtain ⟨a, b, ha, hsplit⟩ := exists_equal h
    obtain ⟨-, hbefore, -⟩ := beforeEqual_of_take ha hsplit
    have hword := hkey h
    simp only [HasWord, hbefore, Bool.and_eq_true, decide_eq_true_eq] at hword
    obtain ⟨⟨-, hne⟩, hsame⟩ := hword
    rw [lineGetValue_of_equal hnul ha hsplit, if_neg hne, if_pos hsame,
      if_pos (Nat.not_lt.mp hlen)]
  · rw [lineGetValue_of_no_equal hnul h, if_neg hlen]

end Line

/-! ## All lines -/

theorem bodyLines_nil : bodyLines [] = [] := by
  rw [bodyLines, dif_pos rfl]

theorem bodyLines_of_ne {text : List Char} (h : text ≠ []) :
    bodyLines text = firstLine text :: bodyLines (text.drop (lineLength text)) := by
  rw [bodyLines, dif_neg h, firstLine]

theorem linesReached_cons (key line : List Char) (lines : List (List Char)) :
    linesReached key (line :: lines) =
      if HasWord key line = true then [line] else line :: linesReached key lines := by
  unfold linesReached
  by_cases h : HasWord key line = true
  · simp [h]
  · simp [h]

section Lines

variable {text key value : List Char} {n : Nat}

theorem salLinesGetValue_nil : salLinesGetValue [] key value n = some none := by
  rw [salLinesGetValue, lineGetValue_of_no_equal (by simp) (by simp [firstLine])]
  simp [firstLine, lineLength]

theorem salLinesGetValue_of_ne (h : text ≠ []) (valueSize : Nat) :
    salLinesGetValue text key value valueSize =
      (lineGetValue text key value valueSize).bind fun found =>
        match found with
        | some v => some (some v)
        | none => salLinesGetValue (text.drop (lineLength text)) key value valueSize := by
  have hpos := lineLength_pos h
  conv_lhs => rw [salLinesGetValue]
  simp only [if_neg hpos.ne']

/-- **The value of the first line whose first word is the key is found.** -/
theorem salLinesGetValue_eq (hnul : nul ∉ text) (hvalue : value.length = n + 1)
    (hends : ∀ line ∈ linesReached key (bodyLines text), LineEnds key line) :
    ∃ found, salLinesGetValue text key value (n + 1) = some found ∧
      found.map (string · 0) = ((bodyLines text).find? (HasWord key)).map fun line =>
        some ((lineValue line).take n) := by
  induction text using bodyLines.induct with
  | case1 => exact ⟨none, salLinesGetValue_nil, by rw [bodyLines_nil]; rfl⟩
  | case2 text hne ih =>
    rw [bodyLines_of_ne hne, linesReached_cons] at hends
    rw [salLinesGetValue_of_ne hne, bodyLines_of_ne hne, List.find?_cons]
    by_cases hword : HasWord key (firstLine text) = true
    · rw [if_pos hword] at hends
      have hlen : (firstLine text).length < 256 := by
        rcases hends _ List.mem_cons_self with hlen | ⟨-, hnot⟩
        · exact hlen
        · rw [hword] at hnot
          cases hnot
      obtain ⟨mem, hline, hstring⟩ := lineGetValue_of_hasWord hnul hlen hword hvalue
      refine ⟨some mem, by rw [hline]; rfl, ?_⟩
      rw [hword, Option.map_some, Option.map_some, hstring]
    · rw [if_neg hword] at hends
      rw [Bool.not_eq_true] at hword
      rw [lineGetValue_of_not_hasWord hnul (hends _ List.mem_cons_self) hword, hword]
      exact ih (fun hmem => hnul (List.mem_of_mem_drop hmem))
        fun line hline => hends line (List.mem_cons_of_mem _ hline)

theorem salLinesGetValue_eq_none (hnul : nul ∉ text) {line : List Char}
    (hline : line ∈ linesReached key (bodyLines text)) (hends : ¬ LineEnds key line) :
    salLinesGetValue text key value n = none := by
  induction text using bodyLines.induct with
  | case1 =>
    rw [bodyLines_nil] at hline
    cases hline
  | case2 text hne ih =>
    rw [bodyLines_of_ne hne, linesReached_cons] at hline
    rw [salLinesGetValue_of_ne hne]
    by_cases hfirst : LineEnds key (firstLine text)
    · have hword : HasWord key (firstLine text) = false := by
        by_contra hword
        rw [Bool.not_eq_false] at hword
        rw [if_pos hword, List.mem_singleton] at hline
        exact hends (hline ▸ hfirst)
      rw [if_neg (by rw [hword]; exact Bool.false_ne_true)] at hline
      rw [lineGetValue_of_not_hasWord hnul hfirst hword]
      refine ih (fun hmem => hnul (List.mem_of_mem_drop hmem)) ?_
      rcases List.mem_cons.mp hline with heq | hrest
      · exact absurd (heq ▸ hfirst) hends
      · exact hrest
    · rw [lineGetValue_of_not_ends hnul hfirst, Option.bind_none]

end Lines

theorem removeTrailingSpaces_append {w r : List Char} (hw : ∀ c ∈ w, isSpace c = false)
    (hne : w ≠ []) (hr : ∀ c ∈ r, isSpace c = true) : removeTrailingSpaces (w ++ r) = w := by
  have hword : ∀ c ∈ w.reverse, isSpace c = false := fun c hc => hw c (List.mem_reverse.mp hc)
  have hback := CString.dropWhile_isSpace (s := []) hword (by simpa using hne)
  rw [List.append_nil] at hback
  rw [removeTrailingSpaces, List.rdropWhile, List.reverse_append,
    List.dropWhile_append_of_pos (fun c hc => hr c (List.mem_reverse.mp hc)), hback,
    List.reverse_reverse]

/-- A line with one word in front of `=` has the word for its key. -/
theorem hasWord_eq_hasKey {key line l w r : List Char} (hline : beforeEqual line = l ++ (w ++ r))
    (hl : ∀ c ∈ l, isSpace c = true) (hw : ∀ c ∈ w, isSpace c = false) (hne : w ≠ [])
    (hr : ∀ c ∈ r, isSpace c = true) : HasWord key line = HasKey key line := by
  have hdrop : (l ++ (w ++ r)).dropWhile isSpace = w ++ r := by
    rw [List.dropWhile_append_of_pos hl, CString.dropWhile_isSpace hw hne]
  have hword : word (l ++ (w ++ r)) = w := by
    rw [word, hdrop]
    refine Scan.takeWhile_append_of_ends (fun c hc => by simp [hw c hc]) fun c hc => ?_
    simp [hr c (List.mem_of_mem_head? hc)]
  simp [HasWord, HasKey, hline, hword, hdrop, removeTrailingSpaces_append hw hne hr, hne]

/-- When each line has one word in front of its `=`, only the ends of the lines matter. -/
theorem sameValue_of_hasWord_eq {key : List Char} {lines : List (List Char)} (n : Nat)
    (h : ∀ line ∈ lines, HasWord key line = HasKey key line) : SameValue key n lines := by
  have hfind : lines.find? (HasWord key) = lines.find? (HasKey key) := by
    induction lines with
    | nil => rfl
    | cons line lines ih =>
      rw [List.find?_cons, List.find?_cons, h line List.mem_cons_self,
        ih fun other hother => h other (List.mem_cons_of_mem _ hother)]
  rw [SameValue, hfind]

/-! ## A long line -/

def longLine : CText :=
  ⟨List.replicate 256 'a', fun h => absurd (List.eq_of_mem_replicate h) (by decide)⟩

def signalKey : CText := ⟨"Signal".toList, by decide⟩

end Linphone
