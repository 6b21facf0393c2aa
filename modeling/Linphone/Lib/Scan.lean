import Mathlib.Tactic.Common
import Mathlib.Data.List.TakeWhile

/-!
# Formatted numbers and words

What `printf` writes and `scanf` reads, for the conversions `%d`, `%i` and words: `integer_decimal`
reads back a number that was printed, as long as nothing follows it that looks like a digit.
-/

namespace Scan

/-- What holds of every character of a text is decided along the text, not over all characters. -/
instance (priority := high) decidableForallMem (s : List Char) (p : Char → Prop) [DecidablePred p] :
    Decidable (∀ c ∈ s, p c) :=
  List.decidableBAll p s

/-! ## Conversions -/

/-- `isspace` -/
def isSpace (c : Char) : Bool :=
  c = ' ' || c = '\t' || c = '\n' || c = '\x0b' || c = '\x0c' || c = '\r'

/-- `%d` of `printf` -/
def decimal (n : Int) : List Char :=
  if n < 0 then '-' :: Nat.toDigits 10 n.natAbs else Nat.toDigits 10 n.natAbs

/-- A character of the format. -/
def literal (c : Char) : List Char → Option (List Char)
  | x :: s => if x = c then some s else none
  | [] => none

/-- At least one character of a kind, and no more than a width: `%128[^-]`. -/
def field (width : Nat) (p : Char → Bool) (s : List Char) : Option (List Char × List Char) :=
  let f := (s.takeWhile p).take width
  if f = [] then none else some (f, s.drop f.length)

/-- `%3s` -/
def word (width : Nat) (s : List Char) : Option (List Char × List Char) :=
  field width (fun c => !isSpace c) (s.dropWhile isSpace)

/-- `%3c`, which needs that many characters when something follows it. -/
def chars (width : Nat) (s : List Char) : Option (List Char × List Char) :=
  if s.length < width then none else some (s.take width, s.drop width)

/-- `strstr`: the text from the first place on where it starts with `needle`. -/
def strstr (needle : List Char) : List Char → Option (List Char)
  | [] => if needle = [] then some [] else none
  | c :: s => if needle.isPrefixOf (c :: s) then some (c :: s) else strstr needle s

/-- The value of a digit, of a base up to sixteen. -/
def digitValue (c : Char) : Nat :=
  if '0'.toNat ≤ c.toNat ∧ c.toNat ≤ '9'.toNat then c.toNat - '0'.toNat
  else if 'a'.toNat ≤ c.toNat ∧ c.toNat ≤ 'f'.toNat then c.toNat - 'a'.toNat + 10
  else if 'A'.toNat ≤ c.toNat ∧ c.toNat ≤ 'F'.toNat then c.toNat - 'A'.toNat + 10
  else 16

/-- The digits of a base, and what follows them. -/
def digits (base : Nat) (s : List Char) : Option (Nat × List Char) :=
  let ds := s.takeWhile (digitValue · < base)
  if ds = [] then none
  else some (ds.foldl (fun v c => base * v + digitValue c) 0, s.drop ds.length)

/-- `%d` of `scanf` -/
def number (s : List Char) : Option (Int × List Char) :=
  match s.dropWhile isSpace with
  | '-' :: s => (digits 10 s).map fun r => (-(r.1 : Int), r.2)
  | '+' :: s => (digits 10 s).map fun r => ((r.1 : Int), r.2)
  | s => (digits 10 s).map fun r => ((r.1 : Int), r.2)

/-- A number whose prefix gives the base. -/
def natural : List Char → Option (Nat × List Char)
  | '0' :: 'x' :: s | '0' :: 'X' :: s => digits 16 s
  | '0' :: s => digits 8 ('0' :: s)
  | s => digits 10 s

/-- `%i` of `scanf` -/
def integer (s : List Char) : Option (Int × List Char) :=
  match s.dropWhile isSpace with
  | '-' :: s => (natural s).map fun r => (-(r.1 : Int), r.2)
  | '+' :: s => (natural s).map fun r => ((r.1 : Int), r.2)
  | s => (natural s).map fun r => ((r.1 : Int), r.2)

/-! ## Reading back -/

theorem strstr_append (needle s : List Char) :
    strstr needle (needle ++ s) = some (needle ++ s) := by
  cases hall : needle ++ s with
  | nil =>
      have hneedle := (List.append_eq_nil_iff.mp hall).1
      simp [strstr, hneedle]
  | cons c t =>
      have hprefix : needle.isPrefixOf (c :: t) = true := by
        rw [← hall, List.isPrefixOf_iff_prefix]
        exact List.prefix_append needle s
      simp [strstr, hprefix]

/-- What can follow a number. -/
def Ends (s : List Char) : Prop := ∀ c ∈ s.head?, 10 ≤ digitValue c ∧ c ≠ 'x' ∧ c ≠ 'X'

theorem digitValue_of_isDigit {c : Char} (h : c.isDigit = true) :
    digitValue c < 10 ∧ digitValue c = c.toNat - '0'.toNat := by
  have hc := Char.isDigit_iff_toNat.mp h
  have hrange : '0'.toNat ≤ c.toNat ∧ c.toNat ≤ '9'.toNat := hc
  unfold digitValue
  rw [if_pos hrange]
  have hnine : '9'.toNat = 57 := rfl
  have hzero : '0'.toNat = 48 := rfl
  exact ⟨by omega, rfl⟩

theorem takeWhile_append_of_ends {α : Type} {p : α → Bool} {l s : List α} (hl : ∀ x ∈ l, p x = true)
    (hs : ∀ x ∈ s.head?, p x = false) : (l ++ s).takeWhile p = l := by
  have hnil : s.takeWhile p = [] := by
    cases s with
    | nil => rfl
    | cons x s => simp [hs x rfl]
  rw [List.takeWhile_append_of_pos hl, hnil, List.append_nil]

theorem foldl_digitValue {ds : List Char} (h : ∀ c ∈ ds, c.isDigit = true) (v : Nat) :
    ds.foldl (fun v c => 10 * v + digitValue c) v = Nat.ofDigitChars 10 ds v := by
  induction ds generalizing v with
  | nil => rfl
  | cons c ds ih =>
      rw [List.foldl_cons, Nat.ofDigitChars_cons, (digitValue_of_isDigit (h c (by simp))).2]
      exact ih (fun x hx => h x (List.mem_cons_of_mem c hx)) _

theorem isDigit_toDigits {n : Nat} {c : Char} (h : c ∈ Nat.toDigits 10 n) : c.isDigit = true :=
  Nat.isDigit_of_mem_toDigits (by decide) (by decide) h

theorem digits_toDigits (n : Nat) {s : List Char} (hs : Ends s) :
    digits 10 (Nat.toDigits 10 n ++ s) = some (n, s) := by
  have htake : (Nat.toDigits 10 n ++ s).takeWhile (digitValue · < 10) = Nat.toDigits 10 n := by
    refine takeWhile_append_of_ends (fun c hc => ?_) fun c hc => ?_
    · simpa using (digitValue_of_isDigit (isDigit_toDigits hc)).1
    · simpa using (hs c hc).1
  unfold digits
  rw [htake, if_neg Nat.toDigits_ne_nil, List.drop_left,
    foldl_digitValue (fun c hc => isDigit_toDigits hc), Nat.ofDigitChars_ten_toDigits]

/-- The digits of a number have its value, in any base. -/
theorem foldl_toDigits {base : Nat} (hbase : 1 < base) (hmax : base ≤ 16) (n : Nat) :
    (Nat.toDigits base n).foldl (fun v c => base * v + digitValue c) 0 = n ∧
      ∀ c ∈ Nat.toDigits base n, digitValue c < base := by
  have hdigit : ∀ d < 16, digitValue d.digitChar = d := by decide
  induction n using Nat.strongRecOn with
  | ind n ih =>
    by_cases hlt : n < base
    · rw [Nat.toDigits_of_lt_base hlt]
      have hn := hdigit n (by omega)
      refine ⟨by simp [hn], fun c hc => ?_⟩
      rw [List.mem_singleton.mp hc, hn]
      exact hlt
    · have hle : base ≤ n := Nat.le_of_not_lt hlt
      have hmod : n % base < base := Nat.mod_lt n (by omega)
      have hlast := hdigit (n % base) (by omega)
      obtain ⟨hvalue, hsmall⟩ := ih (n / base) (Nat.div_lt_self (by omega) hbase)
      rw [Nat.toDigits_of_base_le hbase hle]
      refine ⟨?_, fun c hc => ?_⟩
      · rw [List.foldl_append, hvalue, List.foldl_cons, List.foldl_nil, hlast]
        exact Nat.div_add_mod n base
      · rcases List.mem_append.mp hc with hc | hc
        · exact hsmall c hc
        · rw [List.mem_singleton.mp hc, hlast]
          exact hmod

theorem digits_hexadecimal (n : Nat) : digits 16 (Nat.toDigits 16 n) = some (n, []) := by
  have hbase : 1 < 16 := by decide
  obtain ⟨hvalue, hsmall⟩ := foldl_toDigits hbase (Nat.le_refl 16) n
  have htake : (Nat.toDigits 16 n ++ []).takeWhile (digitValue · < 16) = Nat.toDigits 16 n :=
    takeWhile_append_of_ends (fun c hc => decide_eq_true (hsmall c hc)) fun c hc => nomatch hc
  rw [List.append_nil] at htake
  unfold digits
  rw [htake, if_neg Nat.toDigits_ne_nil, hvalue, List.drop_length]

/-- A number that is not zero does not start with a zero. -/
theorem head_toDigits_ne_zero {n : Nat} (hn : n ≠ 0) : (Nat.toDigits 10 n).head? ≠ some '0' := by
  induction n using Nat.strongRecOn with
  | ind n ih =>
      by_cases hlt : n < 10
      · rw [Nat.toDigits_of_lt_base hlt]
        have hne : ∀ m < 10, m ≠ 0 → m.digitChar ≠ '0' := by decide
        simpa using hne n hlt hn
      · rw [Nat.toDigits_of_base_le (by decide) (by omega)]
        cases hds : Nat.toDigits 10 (n / 10) with
        | nil => exact absurd hds Nat.toDigits_ne_nil
        | cons c ds =>
            have hhead := ih (n / 10) (by omega) (by omega)
            rw [hds] at hhead
            exact hhead

theorem natural_of_head {s : List Char} (h : s.head? ≠ some '0') : natural s = digits 10 s := by
  unfold natural
  split
  · exact absurd rfl h
  · exact absurd rfl h
  · exact absurd rfl h
  · rfl

theorem natural_zero {s : List Char} (hs : Ends s) : natural ('0' :: s) = some (0, s) := by
  have hocts : natural ('0' :: s) = digits 8 ('0' :: s) := by
    unfold natural
    split
    · rename_i heq
      obtain rfl := (List.cons.inj heq).2
      exact absurd rfl (hs 'x' rfl).2.1
    · rename_i heq
      obtain rfl := (List.cons.inj heq).2
      exact absurd rfl (hs 'X' rfl).2.2
    · rename_i heq
      rw [heq]
    · rename_i hne
      exact absurd rfl (hne s)
  have htake : ('0' :: s).takeWhile (digitValue · < 8) = ['0'] := by
    refine takeWhile_append_of_ends (l := ['0']) (fun c hc => ?_) fun c hc => ?_
    · rw [List.mem_singleton.mp hc]
      rfl
    · have hten := (hs c hc).1
      exact decide_eq_false (by omega)
  rw [hocts, digits, htake]
  rfl

theorem natural_toDigits (n : Nat) {s : List Char} (hs : Ends s) :
    natural (Nat.toDigits 10 n ++ s) = some (n, s) := by
  by_cases hn : n = 0
  · rw [hn, Nat.toDigits_zero]
    exact natural_zero hs
  · rw [natural_of_head, digits_toDigits n hs]
    cases hds : Nat.toDigits 10 n with
    | nil => exact absurd hds Nat.toDigits_ne_nil
    | cons c ds =>
        have hhead := head_toDigits_ne_zero hn
        rw [hds] at hhead
        exact hhead

theorem isSpace_of_isDigit {c : Char} (h : c.isDigit = true) :
    isSpace c = false ∧ c ≠ '-' ∧ c ≠ '+' := by
  have hc := Char.isDigit_iff_toNat.mp h
  have hne : ∀ d : Char, d.toNat < 48 → c ≠ d := by
    intro d hd heq
    rw [heq] at hc
    have hzero : '0'.toNat = 48 := rfl
    omega
  have h₁ := hne ' ' (by decide)
  have h₂ := hne '\t' (by decide)
  have h₃ := hne '\n' (by decide)
  have h₄ := hne '\x0b' (by decide)
  have h₅ := hne '\x0c' (by decide)
  have h₆ := hne '\r' (by decide)
  refine ⟨?_, hne '-' (by decide), hne '+' (by decide)⟩
  simp [isSpace, h₁, h₂, h₃, h₄, h₅, h₆]

/-- **A printed number is read back.** -/
theorem integer_decimal (n : Int) {s : List Char} (hs : Ends s) :
    integer (decimal n ++ s) = some (n, s) := by
  unfold decimal
  split
  · rename_i hneg
    have hskip : (('-' :: Nat.toDigits 10 n.natAbs) ++ s).dropWhile isSpace =
        '-' :: (Nat.toDigits 10 n.natAbs ++ s) := rfl
    have habs : -(n.natAbs : Int) = n := by omega
    unfold integer
    rw [hskip]
    change (natural (Nat.toDigits 10 n.natAbs ++ s)).map _ = _
    rw [natural_toDigits _ hs]
    exact congrArg (fun m => some (m, s)) habs
  · rename_i hneg
    have habs : (n.natAbs : Int) = n := by omega
    cases hds : Nat.toDigits 10 n.natAbs with
    | nil => exact absurd hds Nat.toDigits_ne_nil
    | cons c ds =>
        have hdigit : c.isDigit = true := isDigit_toDigits (n := n.natAbs) (by rw [hds]; simp)
        obtain ⟨hspace, hminus, hplus⟩ := isSpace_of_isDigit hdigit
        have hskip : ((c :: ds) ++ s).dropWhile isSpace = (c :: ds) ++ s := by
          simp [hspace]
        have hnatural := natural_toDigits n.natAbs hs
        rw [hds] at hnatural
        unfold integer
        rw [hskip]
        split
        · rename_i heq
          exact absurd (List.cons.inj heq).1 hminus
        · rename_i heq
          exact absurd (List.cons.inj heq).1 hplus
        · rw [hnatural]
          exact congrArg (fun m => some (m, s)) habs

theorem ends_nil : Ends [] := fun _ hc => nomatch hc

theorem decimal_ne_nil (n : Int) : decimal n ≠ [] := by
  unfold decimal
  split
  · exact List.cons_ne_nil _ _
  · exact Nat.toDigits_ne_nil

theorem mem_decimal {n : Int} {c : Char} (h : c ∈ decimal n) : c.isDigit = true ∨ c = '-' := by
  unfold decimal at h
  split at h
  · rcases List.mem_cons.mp h with rfl | hc
    · exact Or.inr rfl
    · exact Or.inl (isDigit_toDigits hc)
  · exact Or.inl (isDigit_toDigits h)

theorem not_hex_decimal (n : Int) : ¬['0', 'x'].isPrefixOf (decimal n) = true := by
  intro h
  have hx : 'x' ∈ decimal n :=
    (List.isPrefixOf_iff_prefix.mp h).subset (List.mem_cons_of_mem _ List.mem_cons_self)
  rcases mem_decimal hx with hdigit | hminus
  · exact absurd hdigit (by decide)
  · exact absurd hminus (by decide)

theorem decimal_inj {m n : Int} (h : decimal m = decimal n) : m = n := by
  have hm := integer_decimal m ends_nil
  rw [h, integer_decimal n ends_nil] at hm
  exact (Prod.mk.inj (Option.some.inj hm)).1.symm

/-! ## Digits with padding -/

/-- The digits of a number are read whatever they are. -/
theorem number_of_digits {ds s : List Char} (hne : ds ≠ []) (hds : ∀ c ∈ ds, c.isDigit = true)
    (hs : Ends s) : number (ds ++ s) = some (((Nat.ofDigitChars 10 ds 0 : Nat) : Int), s) := by
  have hdigits : digits 10 (ds ++ s) = some (Nat.ofDigitChars 10 ds 0, s) := by
    have htake : (ds ++ s).takeWhile (digitValue · < 10) = ds := by
      refine takeWhile_append_of_ends (fun c hc => ?_) fun c hc => ?_
      · simpa using (digitValue_of_isDigit (hds c hc)).1
      · simpa using (hs c hc).1
    unfold digits
    rw [htake, if_neg hne, List.drop_left, foldl_digitValue hds]
  cases hcons : ds with
  | nil => exact absurd hcons hne
  | cons c rest =>
      obtain ⟨hspace, hminus, hplus⟩ := isSpace_of_isDigit (hds c (by rw [hcons]; simp))
      have hskip : ((c :: rest) ++ s).dropWhile isSpace = (c :: rest) ++ s := by simp [hspace]
      rw [hcons] at hdigits
      unfold number
      rw [hskip]
      split
      · rename_i heq
        exact absurd (List.cons.inj heq).1 hminus
      · rename_i heq
        exact absurd (List.cons.inj heq).1 hplus
      · rw [hdigits]
        rfl

/-- Digits up to the end of a text. -/
theorem digitValue_of_digits {base v : Nat} {s : List Char} (h : digits base s = some (v, [])) :
    ∀ c ∈ s, digitValue c < base := by
  unfold digits at h
  dsimp only at h
  split at h
  · cases h
  · have hdrop := (Prod.mk.inj (Option.some.inj h)).2
    have hlen := List.drop_eq_nil_iff.mp hdrop
    have hall : s.takeWhile (digitValue · < base) = s :=
      (List.takeWhile_prefix _).eq_of_length_le hlen
    intro c hc
    rw [← hall] at hc
    simpa using List.mem_takeWhile_imp hc

/-- A text that is a number up to its end has blanks, a sign and digits. -/
theorem mem_of_number {n : Int} {s : List Char} (h : number s = some (n, [])) {c : Char}
    (hc : c ∈ s) : isSpace c = true ∨ c = '-' ∨ c = '+' ∨ digitValue c < 10 := by
  rw [← List.takeWhile_append_dropWhile (p := isSpace) (l := s), List.mem_append] at hc
  rcases hc with hspace | hc
  · exact .inl (List.mem_takeWhile_imp hspace)
  · have hdigits : ∀ (f : Nat → Int) {t : List Char},
        (digits 10 t).map (fun r => (f r.1, r.2)) = some (n, []) → ∀ x ∈ t, digitValue x < 10 := by
      intro f t hmap
      obtain ⟨⟨v, rest⟩, hread, heq⟩ := Option.map_eq_some_iff.mp hmap
      obtain ⟨-, rfl⟩ := Prod.mk.inj heq
      exact digitValue_of_digits hread
    unfold number at h
    right
    split at h
    · rename_i t ht
      rw [ht] at hc
      rcases List.mem_cons.mp hc with rfl | hmem
      · exact .inl rfl
      · exact .inr (.inr (hdigits (fun v => -(v : Int)) h c hmem))
    · rename_i t ht
      rw [ht] at hc
      rcases List.mem_cons.mp hc with rfl | hmem
      · exact .inr (.inl rfl)
      · exact .inr (.inr (hdigits (fun v => (v : Int)) h c hmem))
    · exact .inr (.inr (hdigits (fun v => (v : Int)) h c hc))

theorem number_spaces (k : Nat) (s : List Char) :
    number (List.replicate k ' ' ++ s) = number s := by
  have hskip : (List.replicate k ' ' ++ s).dropWhile isSpace = s.dropWhile isSpace := by
    induction k with
    | zero => rfl
    | succ k ih => simp [List.replicate_succ, isSpace, ← ih]
  unfold number
  rw [hskip]

/-- **A printed number is read back** by `%d`. -/
theorem number_decimal (n : Int) {s : List Char} (hs : Ends s) :
    number (decimal n ++ s) = some (n, s) := by
  unfold decimal
  split
  · rename_i hneg
    have habs : -(n.natAbs : Int) = n := by omega
    change (digits 10 (Nat.toDigits 10 n.natAbs ++ s)).map _ = _
    rw [digits_toDigits _ hs]
    exact congrArg (fun m => some (m, s)) habs
  · rename_i hneg
    have habs : (n.natAbs : Int) = n := by omega
    rw [number_of_digits Nat.toDigits_ne_nil (fun c hc => isDigit_toDigits hc) hs,
      Nat.ofDigitChars_ten_toDigits, habs]

end Scan
