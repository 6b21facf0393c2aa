import Linphone.Lib.Table
import Linphone.Lib.Scan
import Mathlib.Algebra.Group.Nat.Defs

/-!
# The configuration

`coreapi/lpconfig.c`: sections with a name, that hold keys with a value. A section is found by its
name and an item by its key, so no two sections have one name and no two items of a section one
key; an item with an empty value is removed.

The comments of a section, and the parameters after its name, are not read by the functions below.
-/

namespace Linphone

/-- The value of an item. -/
abbrev LpValue : Type := { value : String // value ≠ "" }

/-- A value that is set: `NULL` and the empty text stand for none. -/
def LpValue.ofOption (value : Option String) : Option LpValue :=
  match value with
  | none => none
  | some value => if h : value ≠ "" then some ⟨value, h⟩ else none

/-- The items of a section. -/
abbrev LpSection : Type := Table String LpValue

/-- `LpConfig` -/
abbrev LpConfig : Type := Table String LpSection

namespace LpConfig

variable (lpconfig : LpConfig)

/-- `lp_config_get_string`, with a default of `NULL`. -/
def getString (sec key : String) : Option String :=
  match lpconfig.lookup sec with
  | none => none
  | some s => (s.lookup key).map Subtype.val

/-- `lp_config_set_string` -/
def setString (sec key : String) (value : Option String) : LpConfig :=
  match lpconfig.lookup sec, LpValue.ofOption value with
  | some s, some value => Table.put sec (Table.put key value s) lpconfig
  | some s, none => Table.put sec (s.erase key) lpconfig
  | none, some value => Table.put sec (AList.singleton key value) lpconfig
  | none, none => lpconfig

/-- `lp_config_get_int`. A number in base sixteen is read as an unsigned one into an `int`. -/
def getInt (sec key : String) (defaultValue : Int) : Int :=
  match lpconfig.getString sec key with
  | none => defaultValue
  | some str =>
    if ['0', 'x'].isPrefixOf str.toList then
      ((Scan.digits 16 (str.toList.drop 2)).map fun r => (r.1 : Int).bmod (2 ^ 32)).getD 0
    else ((Scan.integer str.toList).map Prod.fst).getD 0

/-- `lp_config_set_int` -/
def setInt (sec key : String) (value : Int) : LpConfig :=
  lpconfig.setString sec key (some (String.ofList (Scan.decimal value)))

/-- `lp_config_clean_section` -/
def cleanSection (sec : String) : LpConfig := lpconfig.erase sec

/-- `lp_config_has_section` -/
def hasSection (sec : String) : Bool := decide (sec ∈ lpconfig)

/-- The names `lp_config_for_each_section` calls back. -/
def sectionNames : List String := lpconfig.keys

/-- The keys `lp_config_for_each_entry` calls back. -/
def entryKeys (sec : String) : List String :=
  match lpconfig.lookup sec with
  | none => []
  | some s => s.keys

/-! ## What is read after a change -/

@[simp] theorem ofOption_none : LpValue.ofOption none = none := rfl

theorem map_ofOption_some (value : String) :
    (LpValue.ofOption (some value)).map Subtype.val = if value ≠ "" then some value else none := by
  unfold LpValue.ofOption
  split
  · contradiction
  · next h =>
    injection h with h
    subst h
    split
    · rfl
    · rfl

@[simp] theorem getString_empty (sec key : String) : getString ∅ sec key = none := rfl

theorem getString_of_lookup_eq {lpconfig lpconfig' : LpConfig} {sec : String}
    (h : lpconfig'.lookup sec = lpconfig.lookup sec) (key : String) :
    lpconfig'.getString sec key = lpconfig.getString sec key := by
  unfold getString
  rw [h]

theorem lookup_setString_ne {sec sec' : String} (hsec : sec' ≠ sec) (key : String)
    (value : Option String) :
    (lpconfig.setString sec key value).lookup sec' = lpconfig.lookup sec' := by
  unfold setString
  cases lpconfig.lookup sec with
  | none =>
    cases LpValue.ofOption value with
    | none => rfl
    | some value => exact Table.lookup_put_ne hsec _ lpconfig
  | some s =>
    cases LpValue.ofOption value with
    | none => exact Table.lookup_put_ne hsec _ lpconfig
    | some value => exact Table.lookup_put_ne hsec _ lpconfig

/-- Setting an item changes what is read of it, and nothing else. -/
theorem getString_setString (sec key : String) (value : Option String) (sec' key' : String) :
    (lpconfig.setString sec key value).getString sec' key' =
      if sec' = sec ∧ key' = key then (LpValue.ofOption value).map Subtype.val
      else lpconfig.getString sec' key' := by
  by_cases hsec : sec' = sec
  · subst hsec
    unfold getString setString
    cases hs : lpconfig.lookup sec' with
    | none =>
      cases LpValue.ofOption value with
      | none => simp [hs]
      | some value =>
        rw [Table.lookup_put_self]
        by_cases hkey : key' = key
        · subst hkey
          simp [AList.lookup]
        · simp [AList.lookup, hkey]
    | some s =>
      cases LpValue.ofOption value with
      | none =>
        simp only [Table.lookup_put_self]
        by_cases hkey : key' = key
        · subst hkey
          simp
        · rw [AList.lookup_erase_ne hkey, if_neg (fun h => hkey h.2)]
      | some value =>
        simp only [Table.lookup_put_self]
        by_cases hkey : key' = key
        · subst hkey
          simp
        · rw [Table.lookup_put_ne hkey, if_neg (fun h => hkey h.2)]
  · rw [if_neg (fun h => hsec h.1)]
    exact getString_of_lookup_eq (lookup_setString_ne lpconfig hsec key value) key'

theorem getInt_congr {lpconfig lpconfig' : LpConfig} {sec key : String}
    (h : lpconfig'.getString sec key = lpconfig.getString sec key) (defaultValue : Int) :
    lpconfig'.getInt sec key defaultValue = lpconfig.getInt sec key defaultValue := by
  rw [getInt, getInt, h]

theorem getInt_setString_ne {sec key sec' key' : String} (h : ¬(sec' = sec ∧ key' = key))
    (value : Option String) (defaultValue : Int) :
    (lpconfig.setString sec key value).getInt sec' key' defaultValue =
      lpconfig.getInt sec' key' defaultValue :=
  getInt_congr ((getString_setString lpconfig ..).trans (if_neg h)) defaultValue

theorem getString_setInt (sec key : String) (value : Int) (sec' key' : String) :
    (lpconfig.setInt sec key value).getString sec' key' =
      if sec' = sec ∧ key' = key then some (String.ofList (Scan.decimal value))
      else lpconfig.getString sec' key' := by
  have hne : String.ofList (Scan.decimal value) ≠ "" := by
    intro h
    exact Scan.decimal_ne_nil value (String.ofList_inj.mp (h.trans rfl))
  rw [setInt, getString_setString, map_ofOption_some, if_pos hne]

/-- A number that is set is read. -/
theorem getInt_setInt (sec key : String) (value : Int) (sec' key' : String) (defaultValue : Int) :
    (lpconfig.setInt sec key value).getInt sec' key' defaultValue =
      if sec' = sec ∧ key' = key then value else lpconfig.getInt sec' key' defaultValue := by
  by_cases hsame : sec' = sec ∧ key' = key
  · rw [getInt, getString_setInt, if_pos hsame, if_pos hsame]
    dsimp only
    rw [String.toList_ofList, if_neg (Scan.not_hex_decimal value)]
    have hread := Scan.integer_decimal value Scan.ends_nil
    rw [List.append_nil] at hread
    rw [hread]
    rfl
  · rw [if_neg hsame]
    exact getInt_congr ((getString_setInt lpconfig ..).trans (if_neg hsame)) defaultValue

theorem getString_cleanSection (sec sec' key : String) :
    (lpconfig.cleanSection sec).getString sec' key =
      if sec' = sec then none else lpconfig.getString sec' key := by
  by_cases hsec : sec' = sec
  · subst hsec
    simp [getString, cleanSection]
  · rw [if_neg hsec]
    exact getString_of_lookup_eq (AList.lookup_erase_ne hsec) key

theorem mem_entryKeys {sec key : String} :
    key ∈ lpconfig.entryKeys sec ↔ (lpconfig.getString sec key).isSome := by
  unfold entryKeys getString
  cases lpconfig.lookup sec with
  | none => simp
  | some s => simp [← AList.lookup_isSome, ← AList.mem_keys]

end LpConfig

end Linphone
