import Linphone.Config.LpConfig
import Mathlib.Algebra.Group.Int.Defs

/-!
# Numbers in the configuration

The typed accessors of `coreapi/lpconfig.c` print a number into an item and scan it again. A range
is printed as two numbers with a minus between them, and taken apart at the first minus.

`accessors_inverse`: every number that is set is read back, and a range exactly if it starts with a
number that has no sign.
-/

namespace Linphone.LpConfig

variable (lpconfig : LpConfig)

/-- `lp_config_set_int_hex`: `%x` takes the value as an unsigned one. -/
def setIntHex (sec key : String) (value : Int) : LpConfig :=
  lpconfig.setString sec key
    (some (String.ofList ('0' :: 'x' :: Nat.toDigits 16 (value % 2 ^ 32).toNat)))

/-- `atoi` and `atoll` -/
def atoi (s : List Char) : Int := ((Scan.number s).map Prod.fst).getD 0

/-- `lp_config_get_int64` -/
def getInt64 (sec key : String) (defaultValue : Int) : Int :=
  match lpconfig.getString sec key with
  | none => defaultValue
  | some str => atoi str.toList

/-- `lp_config_set_int64` -/
def setInt64 (sec key : String) (value : Int) : LpConfig :=
  lpconfig.setString sec key (some (String.ofList (Scan.decimal value)))

/-- `lp_config_get_range`: what it returns, and what it stores. -/
def getRange (sec key : String) (defaultMin defaultMax : Int) : Bool × Int × Int :=
  match lpconfig.getString sec key with
  | none => (true, defaultMin, defaultMax)
  | some str =>
    match str.toList.dropWhile (· ≠ '-') with
    | [] => (false, defaultMin, defaultMax)
    | _ :: minusptr =>
      -- a minus at the very start is not taken for the separator
      if str.toList.head? = some '-' then (false, defaultMin, defaultMax)
      else (true, atoi str.toList, atoi minusptr)

/-- `lp_config_set_range` -/
def setRange (sec key : String) (minValue maxValue : Int) : LpConfig :=
  lpconfig.setString sec key
    (some (String.ofList (Scan.decimal minValue ++ '-' :: Scan.decimal maxValue)))

/-! ## Reading back -/

variable {lpconfig} {sec key : String}

theorem getString_setString_self {s : List Char} (h : s ≠ []) :
    (lpconfig.setString sec key (some (String.ofList s))).getString sec key =
      some (String.ofList s) := by
  have hne : String.ofList s ≠ "" := fun heq => h (String.ofList_inj.mp (heq.trans rfl))
  rw [getString_setString, if_pos ⟨rfl, rfl⟩, map_ofOption_some, if_pos hne]

theorem atoi_decimal (n : Int) {s : List Char} (hs : Scan.Ends s) :
    atoi (Scan.decimal n ++ s) = n := by
  rw [atoi, Scan.number_decimal n hs]
  rfl

theorem getInt64_setInt64 (value defaultValue : Int) :
    (lpconfig.setInt64 sec key value).getInt64 sec key defaultValue = value := by
  have hread := atoi_decimal value Scan.ends_nil
  rw [List.append_nil] at hread
  rw [getInt64, setInt64, getString_setString_self (Scan.decimal_ne_nil value)]
  show atoi (String.ofList (Scan.decimal value)).toList = value
  rw [String.toList_ofList, hread]

/-- The unsigned value is taken back into the range of an `int`. -/
theorem getInt_setIntHex {value : Int} (hmin : -2 ^ 31 ≤ value) (hmax : value < 2 ^ 31)
    (defaultValue : Int) :
    (lpconfig.setIntHex sec key value).getInt sec key defaultValue = value := by
  have hunsigned : ((value % 2 ^ 32).toNat : Int) = value % 2 ^ 32 :=
    Int.toNat_of_nonneg (Int.emod_nonneg value (by decide))
  have hsigned : (value % 2 ^ 32).bmod (2 ^ 32) = value := by
    have hmod : (value % ((2 ^ 32 : Nat) : Int)).bmod (2 ^ 32) = value.bmod (2 ^ 32) :=
      Int.emod_bmod value (2 ^ 32)
    exact hmod.trans (Int.bmod_eq_of_le (by omega) (by omega))
  have hhex : ∀ s, ['0', 'x'].isPrefixOf ('0' :: 'x' :: s) = true := fun s =>
    List.isPrefixOf_iff_prefix.mpr (List.prefix_append ['0', 'x'] s)
  rw [getInt, setIntHex, getString_setString_self (List.cons_ne_nil _ _)]
  dsimp only
  rw [String.toList_ofList, if_pos (hhex _)]
  show ((Scan.digits 16 (Nat.toDigits 16 (value % 2 ^ 32).toNat)).map _).getD 0 = value
  rw [Scan.digits_hexadecimal, Option.map_some, Option.getD_some, hunsigned, hsigned]

theorem ne_minus_of_mem_decimal {n : Int} (hn : 0 ≤ n) {c : Char} (h : c ∈ Scan.decimal n) :
    c ≠ '-' := by
  rw [Scan.decimal, if_neg (by omega)] at h
  rintro rfl
  exact absurd (Scan.isDigit_toDigits h) (by decide)

theorem ends_minus (s : List Char) : Scan.Ends ('-' :: s) := by
  intro c hc
  obtain rfl := Option.some.inj hc
  decide

/-- What is read of a range. -/
theorem getRange_setRange (minValue maxValue defaultMin defaultMax : Int) :
    (lpconfig.setRange sec key minValue maxValue).getRange sec key defaultMin defaultMax =
      if 0 ≤ minValue then (true, minValue, maxValue) else (false, defaultMin, defaultMax) := by
  have hne : Scan.decimal minValue ++ '-' :: Scan.decimal maxValue ≠ [] := by simp
  rw [getRange, setRange, getString_setString_self hne]
  dsimp only
  rw [String.toList_ofList]
  by_cases hmin : 0 ≤ minValue
  · have hplain : ∀ c ∈ Scan.decimal minValue, decide (c ≠ '-') = true := fun c hc =>
      decide_eq_true (ne_minus_of_mem_decimal hmin hc)
    have hdrop : (Scan.decimal minValue ++ '-' :: Scan.decimal maxValue).dropWhile (· ≠ '-') =
        '-' :: Scan.decimal maxValue := by
      rw [List.dropWhile_append_of_pos hplain]
      rfl
    have hhead : ¬(Scan.decimal minValue ++ '-' :: Scan.decimal maxValue).head? = some '-' := by
      cases hdigits : Scan.decimal minValue with
      | nil => exact absurd hdigits (Scan.decimal_ne_nil minValue)
      | cons c rest =>
        intro hc
        exact ne_minus_of_mem_decimal hmin (hdigits ▸ List.mem_cons_self) (Option.some.inj hc)
    have hmax := atoi_decimal maxValue Scan.ends_nil
    rw [List.append_nil] at hmax
    rw [hdrop, if_pos hmin]
    dsimp only
    rw [if_neg hhead, atoi_decimal minValue (ends_minus _), hmax]
  · have hsign : Scan.decimal minValue = '-' :: Nat.toDigits 10 minValue.natAbs :=
      if_pos (by omega)
    rw [hsign, if_neg hmin]
    rfl

/-- **Numbers are read back**, in base ten and in base sixteen; a range is exactly if it does not
start with a sign. -/
theorem accessors_inverse (lpconfig : LpConfig) (sec key : String) (v : Int32) (w : Int64)
    (min max : Int32) (defaultValue defaultMin defaultMax : Int) :
    (lpconfig.setInt sec key v.toInt).getInt sec key defaultValue = v.toInt ∧
      (lpconfig.setIntHex sec key v.toInt).getInt sec key defaultValue = v.toInt ∧
      (lpconfig.setInt64 sec key w.toInt).getInt64 sec key defaultValue = w.toInt ∧
      ((lpconfig.setRange sec key min.toInt max.toInt).getRange sec key defaultMin defaultMax =
          (true, min.toInt, max.toInt) ↔ 0 ≤ min) := by
  refine ⟨?_, getInt_setIntHex v.le_toInt v.toInt_lt defaultValue,
    getInt64_setInt64 w.toInt defaultValue, ?_⟩
  · rw [getInt_setInt, if_pos ⟨rfl, rfl⟩]
  · rw [getRange_setRange, Int32.le_iff_toInt_le]
    by_cases hmin : (0 : Int) ≤ min.toInt
    · rw [if_pos hmin]
      exact ⟨fun _ => hmin, fun _ => rfl⟩
    · rw [if_neg hmin]
      exact ⟨fun h => absurd (Prod.mk.inj h).1 (by decide), fun h => absurd h hmin⟩

/-- The sign of the first number is taken for the separator. -/
theorem negative_range_refused :
    (setRange ∅ "rtp" "audio_rtp_port" (-5) 10).getRange "rtp" "audio_rtp_port" 0 0 ≠
      (true, -5, 10) := by
  decide +kernel

end Linphone.LpConfig
