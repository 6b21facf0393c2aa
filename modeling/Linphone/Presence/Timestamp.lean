import Linphone.Lib.Scan

/-!
# Timestamps of presence

`linphone_timestamp_to_rfc3339_string` and `parse_timestamp` (`coreapi/presence.c`). A time is
written into 22 bytes; of the text of a year with more than six characters the end is lost.

`parse_toString_iff`: a time is read back when `mktime` puts what the text holds of it at the
distance `timezone`, and not one second before the epoch.
-/

namespace Linphone

/-! ## Times -/

/-- `struct tm`, with `tm_isdst` zero -/
structure BrokenDownTime where
  tmYear : Int := 0
  tmMon : Int := 0
  tmMday : Int := 0
  tmHour : Int := 0
  tmMin : Int := 0
  tmSec : Int := 0
deriving DecidableEq

namespace BrokenDownTime

/-- The fields of a time in their ranges. -/
structure InRange (tm : BrokenDownTime) : Prop where
  year : -2147483648 ≤ tm.tmYear ∧ tm.tmYear < 2147483648
  mon : 0 ≤ tm.tmMon ∧ tm.tmMon ≤ 11
  mday : 1 ≤ tm.tmMday ∧ tm.tmMday ≤ 31
  hour : 0 ≤ tm.tmHour ∧ tm.tmHour ≤ 23
  min : 0 ≤ tm.tmMin ∧ tm.tmMin ≤ 59
  sec : 0 ≤ tm.tmSec ∧ tm.tmSec ≤ 60

end BrokenDownTime

/-- The C library. -/
structure CTime where
  /-- `gmtime_r`; there is none when the year does not fit. -/
  gmtime : Int → Option BrokenDownTime
  mktime : BrokenDownTime → Int
  timezone : Int
  gmtime_inRange : ∀ t tm, gmtime t = some tm → tm.InRange

/-! ## Writing -/

/-- `%4d` -/
def fourColumns (n : Int) : List Char :=
  List.replicate (4 - (Scan.decimal n).length) ' ' ++ Scan.decimal n

/-- `%02d` of a number that is not negative -/
def twoDigits (n : Int) : List Char :=
  List.replicate (2 - (Scan.decimal n).length) '0' ++ Scan.decimal n

/-- `%4d-%02d-%02dT%02d:%02d:%02dZ` -/
def BrokenDownTime.rfc3339 (tm : BrokenDownTime) : List Char :=
  fourColumns (tm.tmYear + 1900) ++ '-' :: (twoDigits (tm.tmMon + 1) ++ '-' ::
    (twoDigits tm.tmMday ++ 'T' :: (twoDigits tm.tmHour ++ ':' ::
      (twoDigits tm.tmMin ++ ':' :: (twoDigits tm.tmSec ++ ['Z'])))))

/-- `linphone_timestamp_to_rfc3339_string`: `snprintf` into 22 bytes -/
def timestampToRfc3339String (lib : CTime) (timestamp : Int) : Option String :=
  (lib.gmtime timestamp).map fun tm => String.ofList (tm.rfc3339.take 21)

/-! ## Reading -/

/-- The numbers that `sscanf` finds, each after its separator, until one is not there. -/
def scanFields : List Char → List Char → List Int
  | [], _ => []
  | sep :: seps, s =>
      match (Scan.literal sep s).bind Scan.number with
      | some (n, s) => n :: scanFields seps s
      | none => []

/-- `sscanf` of `%d-%d-%dT%d:%d:%d` -/
def scanTimestamp (timestamp : List Char) : List Int :=
  match Scan.number timestamp with
  | some (year, s) => year :: scanFields ['-', '-', 'T', ':', ':'] s
  | none => []

/-- `parse_timestamp`; `mktime` can fail. -/
def parseTimestamp (lib : CTime) (timestamp : String) : Int :=
  let fields := scanTimestamp timestamp.toList
  let seconds := lib.mktime {
    tmYear := fields.getD 0 0 - 1900
    tmMon := fields.getD 1 0 - 1
    tmMday := fields.getD 2 0
    tmHour := fields.getD 3 0
    tmMin := fields.getD 4 0
    tmSec := fields.getD 5 0 }
  if seconds = -1 then -1 else seconds - lib.timezone

/-! ## What a text holds -/

/-- What is left of a time in 21 characters: all of it for a year of up to six characters. -/
def BrokenDownTime.held (tm : BrokenDownTime) : BrokenDownTime :=
  match 11 - (fourColumns (tm.tmYear + 1900)).length with
  | 0 => { tm with tmMin := 0, tmSec := 0 }
  | 1 => { tm with tmMin := tm.tmMin / 10, tmSec := 0 }
  | 2 | 3 => { tm with tmSec := 0 }
  | 4 => { tm with tmSec := tm.tmSec / 10 }
  | _ => tm

/-- A time that is read back: it is that of what the text holds, and `mktime` does not give the
value of its failure. -/
def TimestampKept (lib : CTime) (timestamp : Int) : Prop :=
  ∃ tm, lib.gmtime timestamp = some tm ∧
    if lib.mktime tm.held = -1 then timestamp = -1
    else lib.mktime tm.held = timestamp + lib.timezone

theorem BrokenDownTime.held_of_short {tm : BrokenDownTime}
    (hshort : (fourColumns (tm.tmYear + 1900)).length ≤ 6) : tm.held = tm := by
  unfold held
  split
  · omega
  · omega
  · omega
  · omega
  · omega
  · rfl

/-! ## Digits -/

section

open Scan (Ends number literal)

theorem twoDigits_eq {n : Int} (hn : 0 ≤ n) (hlt : n < 100) :
    twoDigits n = [(n.toNat / 10).digitChar, (n.toNat % 10).digitChar] := by
  obtain ⟨m, rfl⟩ := Int.eq_ofNat_of_zero_le hn
  have hdigits : ∀ m : Nat, m < 100 →
      twoDigits (m : Int) = [(m / 10).digitChar, (m % 10).digitChar] := by decide
  exact hdigits m (by omega)

theorem isDigit_digitChar {d : Nat} (hd : d < 10) : d.digitChar.isDigit = true := by
  have hdigits : ∀ d < 10, d.digitChar.isDigit = true := by decide
  exact hdigits d hd

theorem number_digit {d : Nat} (hd : d < 10) {s : List Char} (hs : Ends s) :
    number (d.digitChar :: s) = some ((d : Int), s) := by
  have hvalue : ∀ d < 10, Nat.ofDigitChars 10 [d.digitChar] 0 = d := by decide
  have hread := Scan.number_of_digits (List.cons_ne_nil d.digitChar [])
    (by simpa using isDigit_digitChar hd) hs
  rwa [hvalue d hd] at hread

/-- Two digits are read. -/
theorem number_twoDigits {n : Int} (hn : 0 ≤ n) (hlt : n < 100) {s : List Char} (hs : Ends s) :
    number (twoDigits n ++ s) = some (n, s) := by
  have hvalue : ∀ m < 100,
      Nat.ofDigitChars 10 [(m / 10).digitChar, (m % 10).digitChar] 0 = m := by decide
  rw [twoDigits_eq hn hlt, Scan.number_of_digits (by simp) ?_ hs, hvalue n.toNat (by omega)]
  · rw [Int.toNat_of_nonneg hn]
  · intro c hc
    rcases List.mem_cons.mp hc with rfl | hc
    · exact isDigit_digitChar (by omega)
    · rw [List.mem_singleton.mp hc]
      exact isDigit_digitChar (by omega)

theorem number_fourColumns (n : Int) {s : List Char} (hs : Ends s) :
    number (fourColumns n ++ s) = some (n, s) := by
  rw [fourColumns, List.append_assoc, Scan.number_spaces, Scan.number_decimal n hs]

theorem ends_separator {c : Char} (hc : 10 ≤ Scan.digitValue c ∧ c ≠ 'x' ∧ c ≠ 'X')
    (s : List Char) : Ends (c :: s) := by
  intro d hd
  rw [← Option.mem_some.mp hd]
  exact hc

theorem scanFields_twoDigits {n : Int} (hn : 0 ≤ n) (hlt : n < 100) (sep : Char)
    (seps : List Char) {s : List Char} (hs : Ends s) :
    scanFields (sep :: seps) (sep :: (twoDigits n ++ s)) = n :: scanFields seps s := by
  have hread : (literal sep (sep :: (twoDigits n ++ s))).bind number = some (n, s) := by
    rw [literal, if_pos rfl, Option.bind_some, number_twoDigits hn hlt hs]
  simp only [scanFields, hread]

/-! ## What is left of the minutes and the seconds -/

/-- The minutes and the seconds that are found in the first characters of `MM:SSZ`. -/
def heldMinSec (min sec : Int) : Nat → List Int
  | 0 => []
  | 1 => [min / 10]
  | 2 | 3 => [min]
  | 4 => [min, sec / 10]
  | _ => [min, sec]

theorem scan_minSec {min sec : Int} (hmin : 0 ≤ min ∧ min < 100) (hsec : 0 ≤ sec ∧ sec < 100)
    (k : Nat) :
    scanFields [':', ':'] (':' :: (twoDigits min ++ ':' :: (twoDigits sec ++ ['Z'])).take k) =
      heldMinSec min sec k := by
  have hnil : Ends [] := fun c hc => absurd hc (by simp)
  have hcolon : ∀ s, Ends (':' :: s) := ends_separator (by decide)
  have htens : ((min.toNat / 10 : Nat) : Int) = min / 10 := by omega
  have htens' : ((sec.toNat / 10 : Nat) : Int) = sec / 10 := by omega
  have hmins := twoDigits_eq hmin.1 hmin.2
  have hsecs := twoDigits_eq hsec.1 hsec.2
  have hread : ∀ s, Ends s → scanFields [':', ':'] (':' :: (twoDigits min ++ s)) =
      min :: scanFields [':'] s := fun s hs => scanFields_twoDigits hmin.1 hmin.2 ':' [':'] hs
  have hread' : ∀ s, Ends s → scanFields [':'] (':' :: (twoDigits sec ++ s)) = [sec] :=
    fun s hs => scanFields_twoDigits hsec.1 hsec.2 ':' [] hs
  have hfull : ∀ s, (s = [] ∨ s = ['Z']) →
      scanFields [':', ':'] (':' :: (twoDigits min ++ ':' :: (twoDigits sec ++ s))) =
        [min, sec] := by
    intro s hs
    rw [hread _ (hcolon _), hread' _ ?_]
    rcases hs with rfl | rfl
    · exact hnil
    · exact ends_separator (by decide) []
  match k with
  | 0 => rfl
  | 1 =>
      rw [hmins]
      have hdigit := number_digit (d := min.toNat / 10) (by omega) hnil
      simp [scanFields, literal, heldMinSec, hdigit, htens]
  | 2 =>
      have htake : (twoDigits min ++ ':' :: (twoDigits sec ++ ['Z'])).take 2 =
          twoDigits min ++ [] := by rw [hmins]; rfl
      rw [htake, hread _ hnil]
      rfl
  | 3 =>
      have htake : (twoDigits min ++ ':' :: (twoDigits sec ++ ['Z'])).take 3 =
          twoDigits min ++ [':'] := by rw [hmins]; rfl
      rw [htake, hread _ (hcolon _)]
      rfl
  | 4 =>
      have htake : (twoDigits min ++ ':' :: (twoDigits sec ++ ['Z'])).take 4 =
          twoDigits min ++ [':', (sec.toNat / 10).digitChar] := by rw [hmins, hsecs]; rfl
      have hdigit := number_digit (d := sec.toNat / 10) (by omega) hnil
      rw [htake, hread _ (hcolon _)]
      simp [scanFields, literal, heldMinSec, hdigit, htens']
  | 5 =>
      have htake : (twoDigits min ++ ':' :: (twoDigits sec ++ ['Z'])).take 5 =
          twoDigits min ++ ':' :: (twoDigits sec ++ []) := by rw [hmins, hsecs]; rfl
      rw [htake]
      exact hfull [] (Or.inl rfl)
  | k + 6 =>
      have htake : (twoDigits min ++ ':' :: (twoDigits sec ++ ['Z'])).take (k + 6) =
          twoDigits min ++ ':' :: (twoDigits sec ++ ['Z']) := by
        refine List.take_of_length_le ?_
        rw [hmins, hsecs]
        simp
      rw [htake]
      exact hfull ['Z'] (Or.inr rfl)

/-! ## Reading a time back -/

theorem length_fourColumns {n : Int} (hlow : -9999999999 ≤ n) (hhigh : n < 100000000000) :
    (fourColumns n).length ≤ 11 := by
  have hdecimal : (Scan.decimal n).length ≤ 11 := by
    unfold Scan.decimal
    split
    · have hlength : (Nat.toDigits 10 n.natAbs).length ≤ 10 :=
        (Nat.length_toDigits_le_iff (by decide) (by decide)).mpr (by omega)
      rw [List.length_cons]
      omega
    · exact (Nat.length_toDigits_le_iff (by decide) (by decide)).mpr (by omega)
  simp only [fourColumns, List.length_append, List.length_replicate]
  omega

/-- **The numbers found in the text of a time.** -/
theorem scanTimestamp_rfc3339 {tm : BrokenDownTime} (htm : tm.InRange) :
    scanTimestamp (tm.rfc3339.take 21) =
      [tm.tmYear + 1900, tm.tmMon + 1, tm.tmMday, tm.tmHour] ++
        heldMinSec tm.tmMin tm.tmSec (11 - (fourColumns (tm.tmYear + 1900)).length) := by
  obtain ⟨hyear, hmon, hmday, hhour, hmin, hsec⟩ := htm
  have hwidth := length_fourColumns (n := tm.tmYear + 1900) (by omega) (by omega)
  have htwo : ∀ n : Int, 0 ≤ n → n < 100 → (twoDigits n).length = 2 := by
    intro n hn hlt
    rw [twoDigits_eq hn hlt]
    rfl
  have hmon' := htwo (tm.tmMon + 1) (by omega) (by omega)
  have hmday' := htwo tm.tmMday (by omega) (by omega)
  have hhour' := htwo tm.tmHour (by omega) (by omega)
  -- the text up to the colon after the hour is never cut
  have htext : tm.rfc3339.take 21 =
      fourColumns (tm.tmYear + 1900) ++ '-' :: (twoDigits (tm.tmMon + 1) ++ '-' ::
        (twoDigits tm.tmMday ++ 'T' :: (twoDigits tm.tmHour ++ ':' ::
          (twoDigits tm.tmMin ++ ':' :: (twoDigits tm.tmSec ++ ['Z'])).take
            (11 - (fourColumns (tm.tmYear + 1900)).length)))) := by
    have hsplit : tm.rfc3339 =
        (fourColumns (tm.tmYear + 1900) ++ '-' :: (twoDigits (tm.tmMon + 1) ++ '-' ::
          (twoDigits tm.tmMday ++ 'T' :: (twoDigits tm.tmHour ++ [':'])))) ++
          (twoDigits tm.tmMin ++ ':' :: (twoDigits tm.tmSec ++ ['Z'])) := by
      simp [BrokenDownTime.rfc3339]
    have hlength : (fourColumns (tm.tmYear + 1900) ++ '-' :: (twoDigits (tm.tmMon + 1) ++ '-' ::
        (twoDigits tm.tmMday ++ 'T' :: (twoDigits tm.tmHour ++ [':'])))).length =
          (fourColumns (tm.tmYear + 1900)).length + 10 := by
      simp [hmon', hmday', hhour']
    have hrest : 21 - ((fourColumns (tm.tmYear + 1900)).length + 10) =
        11 - (fourColumns (tm.tmYear + 1900)).length := by omega
    rw [hsplit, List.take_append, List.take_of_length_le (by rw [hlength]; omega), hlength, hrest]
    simp
  rw [htext]
  have hcolon : ∀ c s, (c = '-' ∨ c = 'T' ∨ c = ':') → Ends (c :: s) := by
    rintro c s (rfl | rfl | rfl) <;> exact ends_separator (by decide) s
  simp only [scanTimestamp, number_fourColumns _ (hcolon '-' _ (Or.inl rfl))]
  rw [scanFields_twoDigits (by omega) (by omega) _ _ (hcolon _ _ (Or.inl rfl)),
    scanFields_twoDigits (by omega) (by omega) _ _ (hcolon _ _ (Or.inr (Or.inl rfl))),
    scanFields_twoDigits (by omega) (by omega) _ _ (hcolon _ _ (Or.inr (Or.inr rfl))),
    scan_minSec (by omega) (by omega)]
  rfl

/-- What is parsed of the text of a time. -/
theorem parseTimestamp_rfc3339 (lib : CTime) {tm : BrokenDownTime} (htm : tm.InRange) :
    parseTimestamp lib (String.ofList (tm.rfc3339.take 21)) =
      if lib.mktime tm.held = -1 then -1 else lib.mktime tm.held - lib.timezone := by
  unfold parseTimestamp
  rw [String.toList_ofList, scanTimestamp_rfc3339 htm]
  unfold BrokenDownTime.held
  generalize 11 - (fourColumns (tm.tmYear + 1900)).length = k
  match k with
  | 0 => simp [heldMinSec]
  | 1 => simp [heldMinSec]
  | 2 => simp [heldMinSec]
  | 3 => simp [heldMinSec]
  | 4 => simp [heldMinSec]
  | k + 5 => simp [heldMinSec]

/-- **A time is written and read back exactly when it is kept.** -/
theorem parse_toString_iff (lib : CTime) (timestamp : Int) :
    (timestampToRfc3339String lib timestamp).map (parseTimestamp lib) = some timestamp ↔
      TimestampKept lib timestamp := by
  unfold timestampToRfc3339String TimestampKept
  cases htm : lib.gmtime timestamp with
  | none => simp
  | some tm =>
      rw [Option.map_some, Option.map_some,
        parseTimestamp_rfc3339 lib (lib.gmtime_inRange timestamp tm htm)]
      simp only [Option.some.injEq, exists_eq_left']
      split
      · exact eq_comm
      · constructor
        · intro heq
          omega
        · intro heq
          omega

end

end Linphone
