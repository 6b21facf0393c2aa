import Linphone.Lib.Scan

/-!
# Formats of fields between spaces

`sscanf` with a format of directives that stand between spaces. `scanf_fieldsText`: fields printed
between single spaces are converted to their values when each of them suits its directive.
-/

namespace Scan

/-! ## Directives -/

/-- A directive of a format, with white space in front of it: `%s` or `%3s`, `%d` or `%u`, or a
literal word. -/
inductive Directive where
  | word (width : Option Nat)
  | number
  | literal (text : List Char)
deriving DecidableEq

/-- What a directive converts, if it is not a literal. -/
inductive Value where
  | word (w : List Char)
  | number (n : Int)
deriving DecidableEq

/-- The characters of a literal one after the other. -/
def literals : List Char → List Char → Option (List Char)
  | [], s => some s
  | c :: text, s => (literal c s).bind (literals text)

/-- `%s` -/
def token (s : List Char) : Option (List Char × List Char) :=
  field (s.dropWhile isSpace).length (fun c => !isSpace c) (s.dropWhile isSpace)

/-- One directive: its value and what follows. -/
def Directive.read : Directive → List Char → Option (Option Value × List Char)
  | .word none, s => (token s).map fun r => (some (.word r.1), r.2)
  | .word (some width), s => (Scan.word width s).map fun r => (some (.word r.1), r.2)
  | .number, s => (Scan.number s).map fun r => (some (.number r.1), r.2)
  | .literal text, s => (literals text (s.dropWhile isSpace)).map fun s => (none, s)

/-- `sscanf`: the values up to the first directive that fails, and what follows if none does. -/
def scanf : List Directive → List Char → List Value × Option (List Char)
  | [], s => ([], some s)
  | d :: format, s =>
      match d.read s with
      | none => ([], none)
      | some (v, s) => (v.toList ++ (scanf format s).1, (scanf format s).2)

/-! ## Fields -/

/-- What is printed. -/
inductive Field where
  | word (w : List Char)
  | number (n : Int)
  | literal (text : List Char)

def Field.text : Field → List Char
  | .word w => w
  | .number n => decimal n
  | .literal text => text

def Field.value : Field → Option Value
  | .word w => some (.word w)
  | .number n => some (.number n)
  | .literal _ => none

/-- Not empty, and without white space. -/
def Token (w : List Char) : Prop := w ≠ [] ∧ ∀ c ∈ w, isSpace c = false

/-- The fields a directive is meant for. -/
def Directive.Suits : Directive → Field → Prop
  | .word none, .word w => Token w
  | .word (some width), .word w => Token w ∧ w.length ≤ width
  | .number, .number _ => True
  | .literal text, .literal text' => text = text' ∧ Token text
  | _, _ => False

/-- Fields with a space in front of each. -/
def spaced (fields : List Field) : List Char := fields.flatMap fun f => ' ' :: f.text

/-- Fields between single spaces. -/
def fieldsText (fields : List Field) : List Char := (spaced fields).drop 1

/-! ## Reading one field -/

/-- Nothing, or white space first. -/
def Blank (s : List Char) : Prop := ∀ c ∈ s.head?, isSpace c = true

theorem blank_nil : Blank [] := fun _ h => by cases h

theorem blank_spaced (fields : List Field) : Blank (spaced fields) := by
  cases fields with
  | nil => exact blank_nil
  | cons f fields =>
      intro c hc
      obtain rfl := Option.some.inj hc
      rfl

theorem Blank.ends {s : List Char} (h : Blank s) : Ends s := by
  intro c hc
  have hspace := h c hc
  simp only [isSpace, Bool.or_eq_true, decide_eq_true_eq] at hspace
  rcases hspace with ((((rfl | rfl) | rfl) | rfl) | rfl) | rfl <;> decide

variable {w s : List Char}

theorem Token.dropWhile (h : Token w) (s : List Char) : (w ++ s).dropWhile isSpace = w ++ s := by
  obtain ⟨hne, hspace⟩ := h
  cases w with
  | nil => exact absurd rfl hne
  | cons c w => simp [hspace c (by simp)]

theorem Token.field (h : Token w) (hs : Blank s) {width : Nat} (hwidth : w.length ≤ width) :
    field width (fun c => !isSpace c) ((w ++ s).dropWhile isSpace) = some (w, s) := by
  have htake : (w ++ s).takeWhile (fun c => !isSpace c) = w :=
    takeWhile_append_of_ends (fun c hc => by simp [h.2 c hc]) fun c hc => by simp [hs c hc]
  unfold Scan.field
  rw [h.dropWhile, htake, List.take_of_length_le hwidth, if_neg h.1, List.drop_left]

theorem literals_append (text s : List Char) : literals text (text ++ s) = some s := by
  induction text with
  | nil => rfl
  | cons c text ih =>
      rw [List.cons_append, literals, literal, if_pos rfl, Option.bind_some, ih]

/-- A field is converted to its value. -/
theorem Directive.read_field {d : Directive} {f : Field} (hsuits : d.Suits f) (hs : Blank s) :
    d.read (f.text ++ s) = some (f.value, s) := by
  cases d with
  | word width =>
      cases f with
      | word w =>
          cases width with
          | none =>
              have hlength : w.length ≤ ((w ++ s).dropWhile isSpace).length := by
                rw [Token.dropWhile hsuits]
                simp
              simp only [Directive.read, token, Field.text, Field.value]
              rw [Token.field hsuits hs hlength]
              rfl
          | some width =>
              simp only [Directive.read, Scan.word, Field.text, Field.value]
              rw [hsuits.1.field hs hsuits.2]
              rfl
      | number n => cases width <;> exact hsuits.elim
      | literal text => cases width <;> exact hsuits.elim
  | number =>
      cases f with
      | word w => exact hsuits.elim
      | number n =>
          simp only [Directive.read, Field.text, Field.value]
          rw [number_decimal n hs.ends]
          rfl
      | literal text => exact hsuits.elim
  | literal text =>
      cases f with
      | word w => exact hsuits.elim
      | number n => exact hsuits.elim
      | literal text' =>
          obtain ⟨rfl, htoken⟩ := hsuits
          simp only [Directive.read, Field.text, Field.value]
          rw [htoken.dropWhile, literals_append]
          rfl

theorem Directive.read_space (d : Directive) (s : List Char) : d.read (' ' :: s) = d.read s := by
  cases d with
  | word width => cases width <;> rfl
  | number => rfl
  | literal text => rfl

/-! ## Reading fields -/

theorem scanf_append (format more : List Directive) (s : List Char) :
    scanf (format ++ more) s =
      match (scanf format s).2 with
      | none => ((scanf format s).1, none)
      | some rest => ((scanf format s).1 ++ (scanf more rest).1, (scanf more rest).2) := by
  induction format generalizing s with
  | nil => rfl
  | cons d format ih =>
      rw [List.cons_append, scanf, scanf]
      cases d.read s with
      | none => rfl
      | some r =>
          obtain ⟨v, s⟩ := r
          simp only [ih]
          cases (scanf format s).2 with
          | none => rfl
          | some rest => simp

/-- **Fields are converted** one after the other, each by the directive that suits it. -/
theorem scanf_spaced {format : List Directive} {fields : List Field}
    (h : List.Forall₂ Directive.Suits format fields) (hs : Blank s) :
    scanf format (spaced fields ++ s) = (fields.filterMap Field.value, some s) := by
  induction h with
  | nil => rfl
  | @cons d f format fields hsuits _ ih =>
      have htext : spaced (f :: fields) ++ s = ' ' :: (f.text ++ (spaced fields ++ s)) := by
        simp [spaced]
      have hblank : Blank (spaced fields ++ s) := by
        cases fields with
        | nil => exact hs
        | cons f fields => exact blank_spaced (f :: fields)
      rw [htext, scanf, d.read_space, Directive.read_field hsuits hblank]
      simp only [ih]
      cases hv : f.value <;> simp [hv]

theorem scanf_space {format : List Directive} (hne : format ≠ []) (s : List Char) :
    scanf format (' ' :: s) = scanf format s := by
  cases format with
  | nil => exact absurd rfl hne
  | cons d format => rw [scanf, scanf, d.read_space]

theorem spaced_eq {fields : List Field} (hne : fields ≠ []) :
    spaced fields = ' ' :: fieldsText fields := by
  cases fields with
  | nil => exact absurd rfl hne
  | cons f fields => rfl

/-- **Fields between single spaces are converted to their values.** -/
theorem scanf_fieldsText {format : List Directive} {fields : List Field}
    (h : List.Forall₂ Directive.Suits format fields) (hne : fields ≠ []) (hs : Blank s) :
    scanf format (fieldsText fields ++ s) = (fields.filterMap Field.value, some s) := by
  have hformat : format ≠ [] := by
    rintro rfl
    cases h
    exact hne rfl
  rw [← scanf_space hformat, ← List.cons_append, ← spaced_eq hne]
  exact scanf_spaced h hs

/-- Nothing is converted where the text has ended. -/
theorem scanf_nil {d : Directive} {format : List Directive}
    (hd : ∀ text, d = .literal text → text ≠ []) : scanf (d :: format) [] = ([], none) := by
  have hread : d.read [] = none := by
    cases d with
    | word width => cases width <;> simp [Directive.read, token, Scan.word, field]
    | number => rfl
    | literal text =>
        cases text with
        | nil => exact absurd rfl (hd [] rfl)
        | cons c text => rfl
  rw [scanf, hread]

theorem fieldsText_append {fields : List Field} (hne : fields ≠ []) (more : List Field) :
    fieldsText (fields ++ more) = fieldsText fields ++ spaced more := by
  have happend : spaced (fields ++ more) = spaced fields ++ spaced more := List.flatMap_append
  rw [fieldsText, happend, spaced_eq hne]
  rfl

/-! ## What is left -/

theorem length_dropWhile_le {α : Type} (p : α → Bool) (l : List α) :
    (l.dropWhile p).length ≤ l.length :=
  (List.dropWhile_sublist p).length_le

theorem length_of_field {width : Nat} {p : Char → Bool} {r : List Char × List Char}
    (h : field width p s = some r) : r.2.length < s.length := by
  simp only [field] at h
  split at h
  · cases h
  · rename_i hne
    obtain rfl := Option.some.inj h
    have htake : ((s.takeWhile p).take width).length ≤ s.length := by
      rw [List.length_take]
      exact Nat.le_trans (Nat.min_le_right _ _) (List.takeWhile_sublist p).length_le
    have hpos := List.length_pos_iff.mpr hne
    simp only [List.length_drop]
    omega

theorem length_of_digits {base : Nat} {r : Nat × List Char} (h : digits base s = some r) :
    r.2.length < s.length := by
  simp only [digits] at h
  split at h
  · cases h
  · rename_i hne
    obtain rfl := Option.some.inj h
    have htake := (@List.takeWhile_sublist _ s (fun c => decide (digitValue c < base))).length_le
    have hpos := List.length_pos_iff.mpr hne
    simp only [List.length_drop]
    omega

theorem length_of_number {r : Int × List Char} (h : number s = some r) :
    r.2.length < s.length := by
  have hdrop := length_dropWhile_le isSpace s
  unfold number at h
  split at h
  · rename_i t ht
    rw [ht, List.length_cons] at hdrop
    obtain ⟨d, hd, rfl⟩ := Option.map_eq_some_iff.mp h
    have := length_of_digits hd
    simp only
    omega
  · rename_i t ht
    rw [ht, List.length_cons] at hdrop
    obtain ⟨d, hd, rfl⟩ := Option.map_eq_some_iff.mp h
    have := length_of_digits hd
    simp only
    omega
  · obtain ⟨d, hd, rfl⟩ := Option.map_eq_some_iff.mp h
    have := length_of_digits hd
    simp only
    omega

theorem length_of_literals {text rest : List Char} (h : literals text s = some rest) :
    rest.length + text.length = s.length := by
  induction text generalizing s with
  | nil =>
      obtain rfl := Option.some.inj h
      rfl
  | cons c text ih =>
      obtain ⟨t, ht, hrest⟩ := Option.bind_eq_some_iff.mp h
      have hlength := ih hrest
      cases s with
      | nil => cases ht
      | cons x s =>
          simp only [literal] at ht
          split at ht
          · obtain rfl := Option.some.inj ht
            simp only [List.length_cons]
            omega
          · cases ht

theorem Directive.length_of_read {d : Directive} {r : Option Value × List Char}
    (h : d.read s = some r) : r.2.length ≤ s.length ∧ (d = .number → r.2.length < s.length) := by
  have hdrop := length_dropWhile_le isSpace s
  cases d with
  | word width =>
      cases width with
      | none =>
          obtain ⟨t, ht, rfl⟩ := Option.map_eq_some_iff.mp h
          exact ⟨Nat.le_trans (Nat.le_of_lt (length_of_field ht)) hdrop, fun heq => by cases heq⟩
      | some width =>
          obtain ⟨t, ht, rfl⟩ := Option.map_eq_some_iff.mp h
          exact ⟨Nat.le_trans (Nat.le_of_lt (length_of_field ht)) hdrop, fun heq => by cases heq⟩
  | number =>
      obtain ⟨t, ht, rfl⟩ := Option.map_eq_some_iff.mp h
      exact ⟨Nat.le_of_lt (length_of_number ht), fun _ => length_of_number ht⟩
  | literal text =>
      obtain ⟨t, ht, rfl⟩ := Option.map_eq_some_iff.mp h
      have hlength := length_of_literals ht
      exact ⟨by simp only; omega, fun heq => by cases heq⟩

theorem length_of_scanf {format : List Directive} {rest : List Char}
    (h : (scanf format s).2 = some rest) : rest.length ≤ s.length := by
  induction format generalizing s with
  | nil =>
      obtain rfl := Option.some.inj h
      exact Nat.le_refl _
  | cons d format ih =>
      rw [scanf] at h
      cases hread : d.read s with
      | none =>
          rw [hread] at h
          cases h
      | some r =>
          rw [hread] at h
          exact Nat.le_trans (ih h) (Directive.length_of_read hread).1

theorem length_of_scanf_number {format : List Directive} {rest : List Char}
    (h : (scanf (.number :: format) s).2 = some rest) : rest.length < s.length := by
  rw [scanf] at h
  cases hread : Directive.number.read s with
  | none =>
      rw [hread] at h
      cases h
  | some r =>
      rw [hread] at h
      exact Nat.lt_of_le_of_lt (length_of_scanf h) ((Directive.length_of_read hread).2 rfl)

end Scan
