import Mathlib.Data.List.Basic
import Mathlib.Data.List.Infix
import Linphone.Lib.Scan

/-!
# Dial plans

`linphone_proxy_config_normalize_number` of `coreapi/proxy.c` brings a phone number into one form,
with the dial prefix of a proxy as the country code and the dial plan of that country. The plan of
a prefix that is no country code of the table is a generic one, into which the prefix is copied
whatever its length.

`normalize_canonical_iff`: the form is canonical exactly for dial prefixes of digits (or `+`) that
fit into a plan.
-/

namespace Linphone

/-! ## Plans -/

/-- `dial_plan_t`: country code, number of digits at most, international call prefix. -/
structure DialPlan where
  isoCountryCode : String
  ccc : String
  nnl : Nat
  icp : String
deriving DecidableEq

/-- `dial_plans` -/
def dialPlans : List DialPlan :=
  [⟨"AF", "93", 9, "00"⟩, ⟨"AL", "355", 9, "00"⟩, ⟨"DZ", "213", 9, "00"⟩, ⟨"AS", "1", 10, "011"⟩,
   ⟨"AD", "376", 6, "00"⟩, ⟨"AO", "244", 9, "00"⟩, ⟨"AI", "1", 10, "011"⟩, ⟨"AG", "1", 10, "011"⟩,
   ⟨"AR", "54", 10, "00"⟩, ⟨"AM", "374", 8, "00"⟩, ⟨"AW", "297", 7, "011"⟩,
   ⟨"AU", "61", 9, "0011"⟩, ⟨"AT", "43", 10, "00"⟩, ⟨"AZ", "994", 9, "00"⟩,
   ⟨"BS", "1", 10, "011"⟩, ⟨"BH", "973", 8, "00"⟩, ⟨"BD", "880", 10, "00"⟩,
   ⟨"BB", "1", 10, "011"⟩, ⟨"BY", "375", 9, "00"⟩, ⟨"BE", "32", 9, "00"⟩, ⟨"BZ", "501", 7, "00"⟩,
   ⟨"BJ", "229", 8, "00"⟩, ⟨"BM", "1", 10, "011"⟩, ⟨"BT", "975", 8, "00"⟩, ⟨"BO", "591", 8, "00"⟩,
   ⟨"BA", "387", 8, "00"⟩, ⟨"BW", "267", 8, "00"⟩, ⟨"BR", "55", 10, "00"⟩, ⟨"BN", "673", 7, "00"⟩,
   ⟨"BG", "359", 9, "00"⟩, ⟨"BF", "226", 8, "00"⟩, ⟨"BI", "257", 8, "011"⟩,
   ⟨"KH", "855", 9, "00"⟩, ⟨"CM", "237", 8, "00"⟩, ⟨"CA", "1", 10, "011"⟩, ⟨"CV", "238", 7, "00"⟩,
   ⟨"KY", "1", 10, "011"⟩, ⟨"CF", "236", 8, "00"⟩, ⟨"TD", "235", 8, "00"⟩, ⟨"CL", "56", 9, "00"⟩,
   ⟨"CN", "86", 11, "00"⟩, ⟨"CO", "57", 10, "00"⟩, ⟨"KM", "269", 7, "00"⟩, ⟨"CG", "242", 9, "00"⟩,
   ⟨"CD", "243", 9, "00"⟩, ⟨"CK", "682", 5, "00"⟩, ⟨"CR", "506", 8, "00"⟩, ⟨"AD", "225", 8, "00"⟩,
   ⟨"HR", "385", 9, "00"⟩, ⟨"CU", "53", 8, "119"⟩, ⟨"CY", "357", 8, "00"⟩, ⟨"CZ", "420", 9, "00"⟩,
   ⟨"DK", "45", 8, "00"⟩, ⟨"DJ", "253", 8, "00"⟩, ⟨"DM", "1", 10, "011"⟩, ⟨"DO", "1", 10, "011"⟩,
   ⟨"EC", "593", 9, "00"⟩, ⟨"EG", "20", 10, "00"⟩, ⟨"SV", "503", 8, "00"⟩, ⟨"GQ", "240", 9, "00"⟩,
   ⟨"ER", "291", 7, "00"⟩, ⟨"EE", "372", 8, "00"⟩, ⟨"ET", "251", 9, "00"⟩, ⟨"FK", "500", 5, "00"⟩,
   ⟨"FO", "298", 6, "00"⟩, ⟨"FJ", "679", 7, "00"⟩, ⟨"FI", "358", 9, "00"⟩, ⟨"FR", "33", 9, "00"⟩,
   ⟨"GF", "594", 9, "00"⟩, ⟨"PF", "689", 6, "00"⟩, ⟨"GA", "241", 8, "00"⟩, ⟨"GM", "220", 7, "00"⟩,
   ⟨"GE", "995", 9, "00"⟩, ⟨"DE", "49", 11, "00"⟩, ⟨"GH", "233", 9, "00"⟩, ⟨"GI", "350", 8, "00"⟩,
   ⟨"GR", "30", 10, "00"⟩, ⟨"GL", "299", 6, "00"⟩, ⟨"GD", "1", 10, "011"⟩, ⟨"GP", "590", 9, "00"⟩,
   ⟨"GU", "1", 10, "011"⟩, ⟨"GT", "502", 8, "00"⟩, ⟨"GN", "224", 8, "00"⟩, ⟨"GW", "245", 7, "00"⟩,
   ⟨"GY", "592", 7, "001"⟩, ⟨"HT", "509", 8, "00"⟩, ⟨"HN", "504", 8, "00"⟩,
   ⟨"HK", "852", 8, "001"⟩, ⟨"HU", "36", 9, "00"⟩, ⟨"IS", "354", 9, "00"⟩, ⟨"IN", "91", 10, "00"⟩,
   ⟨"ID", "62", 10, "001"⟩, ⟨"IR", "98", 10, "00"⟩, ⟨"IQ", "964", 10, "00"⟩,
   ⟨"IE", "353", 9, "00"⟩, ⟨"IL", "972", 9, "00"⟩, ⟨"IT", "39", 10, "00"⟩, ⟨"JM", "1", 10, "011"⟩,
   ⟨"JP", "81", 10, "010"⟩, ⟨"JO", "962", 9, "00"⟩, ⟨"KZ", "7", 10, "00"⟩,
   ⟨"KE", "254", 9, "000"⟩, ⟨"KI", "686", 5, "00"⟩, ⟨"KP", "850", 12, "99"⟩,
   ⟨"KR", "82", 12, "001"⟩, ⟨"KW", "965", 8, "00"⟩, ⟨"KG", "996", 9, "00"⟩,
   ⟨"LA", "856", 10, "00"⟩, ⟨"LV", "371", 8, "00"⟩, ⟨"LB", "961", 7, "00"⟩,
   ⟨"LS", "266", 8, "00"⟩, ⟨"LR", "231", 8, "00"⟩, ⟨"LY", "218", 8, "00"⟩, ⟨"LI", "423", 7, "00"⟩,
   ⟨"LT", "370", 8, "00"⟩, ⟨"LU", "352", 9, "00"⟩, ⟨"MO", "853", 8, "00"⟩, ⟨"MK", "389", 8, "00"⟩,
   ⟨"MG", "261", 9, "00"⟩, ⟨"MW", "265", 9, "00"⟩, ⟨"MY", "60", 9, "00"⟩, ⟨"MV", "960", 7, "00"⟩,
   ⟨"ML", "223", 8, "00"⟩, ⟨"MT", "356", 8, "00"⟩, ⟨"MH", "692", 7, "011"⟩,
   ⟨"MQ", "596", 9, "00"⟩, ⟨"MR", "222", 8, "00"⟩, ⟨"MU", "230", 7, "00"⟩, ⟨"YT", "262", 9, "00"⟩,
   ⟨"MX", "52", 10, "00"⟩, ⟨"FM", "691", 7, "011"⟩, ⟨"MD", "373", 8, "00"⟩,
   ⟨"MC", "377", 8, "00"⟩, ⟨"MN", "976", 8, "001"⟩, ⟨"ME", "382", 8, "00"⟩,
   ⟨"MS", "664", 10, "011"⟩, ⟨"MA", "212", 9, "00"⟩, ⟨"MZ", "258", 9, "00"⟩,
   ⟨"MM", "95", 8, "00"⟩, ⟨"NA", "264", 9, "00"⟩, ⟨"NR", "674", 7, "00"⟩, ⟨"NP", "43", 10, "00"⟩,
   ⟨"NL", "31", 9, "00"⟩, ⟨"NC", "687", 6, "00"⟩, ⟨"NZ", "64", 10, "00"⟩, ⟨"NI", "505", 8, "00"⟩,
   ⟨"NE", "227", 8, "00"⟩, ⟨"NG", "234", 10, "009"⟩, ⟨"NU", "683", 4, "00"⟩,
   ⟨"NF", "672", 5, "00"⟩, ⟨"MP", "1", 10, "011"⟩, ⟨"NO", "47", 8, "00"⟩, ⟨"OM", "968", 8, "00"⟩,
   ⟨"PK", "92", 10, "00"⟩, ⟨"PW", "680", 7, "011"⟩, ⟨"PS", "970", 9, "00"⟩,
   ⟨"PA", "507", 8, "00"⟩, ⟨"PG", "675", 8, "00"⟩, ⟨"PY", "595", 9, "00"⟩, ⟨"PE", "51", 9, "00"⟩,
   ⟨"PH", "63", 10, "00"⟩, ⟨"PL", "48", 9, "00"⟩, ⟨"PT", "351", 9, "00"⟩, ⟨"PR", "1", 10, "011"⟩,
   ⟨"QA", "974", 8, "00"⟩, ⟨"RE", "262", 9, "011"⟩, ⟨"RO", "40", 9, "00"⟩, ⟨"RU", "7", 10, "8"⟩,
   ⟨"RW", "250", 9, "00"⟩, ⟨"SH", "290", 4, "00"⟩, ⟨"KN", "1", 10, "011"⟩, ⟨"LC", "1", 10, "011"⟩,
   ⟨"PM", "508", 6, "00"⟩, ⟨"VC", "1", 10, "011"⟩, ⟨"WS", "685", 7, "0"⟩, ⟨"SM", "378", 10, "00"⟩,
   ⟨"ST", "239", 7, "00"⟩, ⟨"SA", "966", 9, "00"⟩, ⟨"SN", "221", 9, "00"⟩, ⟨"RS", "381", 9, "00"⟩,
   ⟨"SC", "248", 7, "00"⟩, ⟨"SL", "232", 8, "00"⟩, ⟨"SG", "65", 8, "001"⟩, ⟨"SK", "421", 9, "00"⟩,
   ⟨"SI", "386", 8, "00"⟩, ⟨"SB", "677", 7, "00"⟩, ⟨"SO", "252", 8, "00"⟩, ⟨"ZA", "27", 9, "00"⟩,
   ⟨"ES", "34", 9, "00"⟩, ⟨"LK", "94", 9, "00"⟩, ⟨"SD", "249", 9, "00"⟩, ⟨"SR", "597", 7, "00"⟩,
   ⟨"SZ", "268", 8, "00"⟩, ⟨"SE", "1", 9, "00"⟩, ⟨"XK", "41", 9, "00"⟩, ⟨"SY", "963", 9, "00"⟩,
   ⟨"TW", "886", 9, "810"⟩, ⟨"TJ", "992", 9, "002"⟩, ⟨"TZ", "255", 9, "000"⟩,
   ⟨"TH", "66", 9, "001"⟩, ⟨"TG", "228", 8, "00"⟩, ⟨"TK", "690", 4, "00"⟩, ⟨"TO", "676", 5, "00"⟩,
   ⟨"TT", "1", 10, "011"⟩, ⟨"TN", "216", 8, "00"⟩, ⟨"TR", "90", 10, "00"⟩, ⟨"TM", "993", 8, "00"⟩,
   ⟨"TC", "1", 7, "0"⟩, ⟨"TV", "688", 5, "00"⟩, ⟨"UG", "256", 9, "000"⟩, ⟨"UA", "380", 9, "00"⟩,
   ⟨"AE", "971", 9, "00"⟩, ⟨"GB", "44", 10, "00"⟩, ⟨"US", "1", 10, "011"⟩, ⟨"UY", "598", 8, "00"⟩,
   ⟨"UZ", "998", 9, "8"⟩, ⟨"VU", "678", 7, "00"⟩, ⟨"VE", "58", 10, "00"⟩, ⟨"VN", "84", 9, "00"⟩,
   ⟨"WF", "681", 5, "00"⟩, ⟨"YE", "967", 9, "00"⟩, ⟨"ZM", "260", 9, "00"⟩, ⟨"ZW", "263", 9, "00"⟩]

/-- `most_common_dialplan` -/
def mostCommonDialplan : DialPlan := ⟨"", "", 10, "00"⟩

/-- `lookup_dial_plan_by_ccc`. A country code has room for seven characters. -/
def lookupDialPlanByCcc (ccc : String) : Option DialPlan :=
  match dialPlans.find? fun plan => plan.ccc = ccc with
  | some plan => some plan
  | none =>
      if ccc.toList.length < 8 then some { mostCommonDialplan with ccc := ccc } else none

/-! ## Numbers -/

/-- What a phone number may have between its digits; the last one is a byte of a non-breakable
space. -/
def separators : List Char := [' ', '.', '-', ')', '(', '/', '\xca']

/-- `linphone_proxy_config_is_phone_number` -/
def isPhoneNumber (username : List Char) : Bool :=
  username.all fun c => c.isDigit || separators.contains c || c == '+'

/-- `flatten_number` -/
def flattenNumber (number : List Char) : List Char := number.filter fun c => c == '+' || c.isDigit

/-- `replace_plus_with_icp` -/
def replacePlusWithIcp (icp : List Char) : List Char → List Char
  | '+' :: src => icp ++ src
  | src => src

/-- `replace_icp_with_plus` -/
def replaceIcpWithPlus (icp src : List Char) : List Char :=
  (if icp.isPrefixOf src then ['+'] else []) ++ src.drop icp.length

/-- A flattened number in the form of a plan. -/
def normalizeWith (plan : DialPlan) (dialEscapePlus : Bool) (flatten : List Char) : List Char :=
  if flatten.head? = some '+' then
    if dialEscapePlus then replacePlusWithIcp plan.icp.toList flatten else flatten
  else if plan.icp.toList.isPrefixOf flatten then
    if dialEscapePlus then flatten else replaceIcpWithPlus plan.icp.toList flatten
  else
    let skip := flatten.length - plan.nnl
    (if dialEscapePlus then plan.icp.toList else ['+']) ++ plan.ccc.toList ++ flatten.drop skip

/-- The plan of a proxy, if it has a dial prefix; the copy of a long one is undefined. -/
def planOfProxy (dialPrefix : Option String) : Option (Option DialPlan) :=
  match dialPrefix with
  | none | some "" => some none
  | some ccc => (lookupDialPlanByCcc ccc).map some

/-- `linphone_proxy_config_normalize_number` into a buffer that is long enough: what it returns,
and the result. -/
def normalizeNumber (dialPrefix : Option String) (dialEscapePlus : Bool) (username : List Char) :
    Option (Bool × List Char) :=
  if isPhoneNumber username then
    (planOfProxy dialPrefix).map fun plan =>
      (true, match plan with
        | none => flattenNumber username
        | some plan => normalizeWith plan dialEscapePlus (flattenNumber username))
  else some (false, username)

/-- The result alone. -/
def normalized (dialPrefix : Option String) (dialEscapePlus : Bool) (username : List Char) :
    Option (List Char) :=
  (normalizeNumber dialPrefix dialEscapePlus username).map Prod.snd

/-! ## Canonical forms -/

/-- Normalization as a canonicalisation of phone numbers: idempotent, the same whatever separators
there are, and the same for a national number, with a plus and with the call prefix of its plan. -/
structure Canonical (dialPrefix : Option String) (dialEscapePlus : Bool) : Prop where
  idempotent : ∀ username, isPhoneNumber username →
    ∃ result, normalized dialPrefix dialEscapePlus username = some result ∧
      normalized dialPrefix dialEscapePlus result = some result
  separators : ∀ before c after, c ∈ separators → isPhoneNumber (before ++ after) →
    normalized dialPrefix dialEscapePlus (before ++ c :: after) =
      normalized dialPrefix dialEscapePlus (before ++ after)
  national : ∀ plan n, planOfProxy dialPrefix = some (some plan) → isPhoneNumber n →
    (∀ c ∈ flattenNumber n, c.isDigit) → (flattenNumber n).length ≤ plan.nnl →
    ¬plan.icp.toList <+: flattenNumber n →
    normalized dialPrefix dialEscapePlus ('+' :: (plan.ccc.toList ++ n)) =
        normalized dialPrefix dialEscapePlus n ∧
      normalized dialPrefix dialEscapePlus (plan.icp.toList ++ (plan.ccc.toList ++ n)) =
        normalized dialPrefix dialEscapePlus n

/-- Digits, or a plus. -/
def Flat (s : List Char) : Prop := ∀ c ∈ s, c.isDigit ∨ c = '+'

/-- A dial prefix that fits into a plan and is as flat as the numbers are made. -/
def DialPrefixFits (dialPrefix : Option String) : Prop :=
  ∀ ccc, dialPrefix = some ccc → ccc.toList.length < 8 ∧ Flat ccc.toList

/-! ## Flat numbers -/

variable {s t : List Char}

theorem flat_append : Flat (s ++ t) ↔ Flat s ∧ Flat t := by
  simp only [Flat, List.forall_mem_append]

theorem flat_flattenNumber (s : List Char) : Flat (flattenNumber s) := by
  intro c hc
  have hkept := (List.mem_filter.mp hc).2
  rw [Bool.or_eq_true, beq_iff_eq] at hkept
  exact hkept.symm

theorem flattenNumber_eq_self_iff : flattenNumber s = s ↔ Flat s := by
  rw [flattenNumber, List.filter_eq_self]
  refine forall₂_congr fun c _ => ?_
  rw [Bool.or_eq_true, beq_iff_eq, or_comm]

theorem Flat.isPhoneNumber (h : Flat s) : Linphone.isPhoneNumber s = true := by
  refine List.all_eq_true.mpr fun c hc => ?_
  rcases h c hc with hdigit | rfl
  · rw [hdigit]
    rfl
  · rfl

theorem flattenNumber_append : flattenNumber (s ++ t) = flattenNumber s ++ flattenNumber t :=
  List.filter_append ..

theorem isPhoneNumber_append :
    isPhoneNumber (s ++ t) = (isPhoneNumber s && isPhoneNumber t) := List.all_append

theorem separator_skipped {c : Char} (h : c ∈ separators) :
    flattenNumber (c :: s) = flattenNumber s ∧ isPhoneNumber (c :: s) = isPhoneNumber s := by
  have hall : ∀ c ∈ separators, ((c == '+') || c.isDigit) = false := by decide
  constructor
  · exact List.filter_cons_of_neg (by rw [hall c h]; decide)
  · rw [isPhoneNumber, List.all_cons, List.contains_iff_mem.mpr h]
    simp [isPhoneNumber]

/-! ## Plans that can be used -/

/-- A call prefix of digits. -/
structure DialPlan.Usable (plan : DialPlan) : Prop where
  icp : plan.icp.toList ≠ []
  digits : ∀ c ∈ plan.icp.toList, c.isDigit

theorem dialPlans_usable : ∀ plan ∈ dialPlans, plan.icp.toList ≠ [] ∧
    (∀ c ∈ plan.icp.toList, c.isDigit) ∧ plan.ccc.toList.length < 8 ∧
      ∀ c ∈ plan.ccc.toList, c.isDigit := by
  decide +kernel

/-- The plan of a country code can be used; the code fits into it. -/
theorem lookupDialPlanByCcc_some {ccc : String} {plan : DialPlan}
    (h : lookupDialPlanByCcc ccc = some plan) :
    plan.Usable ∧ plan.ccc = ccc ∧ ccc.toList.length < 8 := by
  unfold lookupDialPlanByCcc at h
  split at h
  · rename_i row hrow
    obtain rfl := Option.some.inj h
    obtain ⟨hicp, hdigits, hlength, -⟩ := dialPlans_usable row (List.mem_of_find?_eq_some hrow)
    have hccc := List.find?_some hrow
    rw [decide_eq_true_eq] at hccc
    exact ⟨⟨hicp, hdigits⟩, hccc, hccc ▸ hlength⟩
  · split at h
    · rename_i hlength
      obtain rfl := Option.some.inj h
      have hicp : "00".toList ≠ [] ∧ ∀ c ∈ "00".toList, c.isDigit := by decide
      exact ⟨⟨hicp.1, hicp.2⟩, rfl, hlength⟩
    · cases h

theorem lookupDialPlanByCcc_of_short {ccc : String} (h : ccc.toList.length < 8) :
    ∃ plan, lookupDialPlanByCcc ccc = some plan := by
  unfold lookupDialPlanByCcc
  split
  · exact ⟨_, rfl⟩
  · exact ⟨_, if_pos h⟩

/-- The country codes of the table fit. -/
theorem dialPlans_fit {plan : DialPlan} (h : plan ∈ dialPlans) :
    DialPrefixFits (some plan.ccc) := by
  obtain ⟨-, -, hlength, hdigits⟩ := dialPlans_usable plan h
  intro ccc hccc
  obtain rfl := Option.some.inj hccc
  exact ⟨hlength, fun c hc => Or.inl (hdigits c hc)⟩

/-! ## Numbers in the form of a plan -/

/-- What an international number starts with. -/
def DialPlan.mark (plan : DialPlan) (dialEscapePlus : Bool) : List Char :=
  if dialEscapePlus then plan.icp.toList else ['+']

variable {plan : DialPlan} {escape : Bool}

theorem DialPlan.Usable.head_icp (usable : plan.Usable) (rest : List Char) :
    (plan.icp.toList ++ rest).head? ≠ some '+' := by
  obtain ⟨hicp, hdigits⟩ := usable
  cases hchars : plan.icp.toList with
  | nil => exact absurd hchars hicp
  | cons c chars =>
    intro hplus
    obtain rfl : c = '+' := Option.some.inj hplus
    exact absurd (hdigits '+' (hchars ▸ List.mem_cons_self)) (by decide)

theorem normalizeWith_plus (rest : List Char) :
    normalizeWith plan escape ('+' :: rest) = plan.mark escape ++ rest := by
  cases escape <;> rfl

theorem normalizeWith_icp (usable : plan.Usable) (rest : List Char) :
    normalizeWith plan escape (plan.icp.toList ++ rest) = plan.mark escape ++ rest := by
  have hprefix : plan.icp.toList.isPrefixOf (plan.icp.toList ++ rest) = true :=
    List.isPrefixOf_iff_prefix.mpr (List.prefix_append ..)
  rw [normalizeWith, if_neg (usable.head_icp rest), if_pos hprefix]
  cases escape with
  | true => rfl
  | false =>
    show replaceIcpWithPlus plan.icp.toList (plan.icp.toList ++ rest) = ['+'] ++ rest
    rw [replaceIcpWithPlus, if_pos hprefix, List.drop_left]

theorem normalizeWith_national (hplus : s.head? ≠ some '+') (hicp : ¬plan.icp.toList <+: s) :
    normalizeWith plan escape s =
      plan.mark escape ++ (plan.ccc.toList ++ s.drop (s.length - plan.nnl)) := by
  rw [normalizeWith, if_neg hplus, if_neg (mt List.isPrefixOf_iff_prefix.mp hicp),
    List.append_assoc]
  rfl

theorem normalizeWith_marked (usable : plan.Usable) (hccc : Flat plan.ccc.toList) (hflat : Flat s) :
    ∃ rest, normalizeWith plan escape s = plan.mark escape ++ rest ∧ Flat rest := by
  by_cases hplus : s.head? = some '+'
  · obtain ⟨rest, rfl⟩ := List.head?_eq_some_iff.mp hplus
    exact ⟨rest, normalizeWith_plus rest, fun c hc => hflat c (List.mem_cons_of_mem _ hc)⟩
  · by_cases hicp : plan.icp.toList <+: s
    · obtain ⟨rest, rfl⟩ := hicp
      exact ⟨rest, normalizeWith_icp usable rest, (flat_append.mp hflat).2⟩
    · refine ⟨_, normalizeWith_national hplus hicp, flat_append.mpr ⟨hccc, ?_⟩⟩
      exact fun c hc => hflat c (List.mem_of_mem_drop hc)

theorem DialPlan.Usable.flat_mark (usable : plan.Usable) : Flat (plan.mark escape) := by
  cases escape with
  | true => exact fun c hc => Or.inl (usable.digits c hc)
  | false => exact fun c hc => Or.inr (List.mem_singleton.mp hc)

theorem normalizeWith_mark (usable : plan.Usable) (rest : List Char) :
    normalizeWith plan escape (plan.mark escape ++ rest) = plan.mark escape ++ rest := by
  cases escape with
  | true => exact normalizeWith_icp usable rest
  | false => exact normalizeWith_plus rest

/-! ## Normalization -/

variable {dialPrefix : Option String}

/-- A proxy without a dial prefix has no plan. -/
theorem planOfProxy_cases (dialPrefix : Option String) :
    (planOfProxy dialPrefix = some none ∧ DialPrefixFits dialPrefix) ∨
      ∃ ccc, dialPrefix = some ccc ∧
        planOfProxy dialPrefix = (lookupDialPlanByCcc ccc).map some := by
  match dialPrefix with
  | none => exact Or.inl ⟨rfl, fun ccc h => nomatch h⟩
  | some ccc =>
    by_cases hempty : ccc = ""
    · subst hempty
      refine Or.inl ⟨rfl, fun ccc h => ?_⟩
      obtain rfl := Option.some.inj h
      exact ⟨by decide, fun c hc => nomatch hc⟩
    · refine Or.inr ⟨ccc, rfl, ?_⟩
      unfold planOfProxy
      split
      · rename_i h
        cases h
      · rename_i h
        exact absurd (Option.some.inj h) hempty
      · rename_i h
        rw [Option.some.inj h]

theorem normalized_of_plan (hplan : planOfProxy dialPrefix = some (some plan))
    (hphone : isPhoneNumber s = true) :
    normalized dialPrefix escape s = some (normalizeWith plan escape (flattenNumber s)) := by
  rw [normalized, normalizeNumber, if_pos hphone, hplan]
  rfl

theorem normalized_of_no_plan (hplan : planOfProxy dialPrefix = some none)
    (hphone : isPhoneNumber s = true) :
    normalized dialPrefix escape s = some (flattenNumber s) := by
  rw [normalized, normalizeNumber, if_pos hphone, hplan]
  rfl

theorem normalized_of_other (hother : ¬isPhoneNumber s = true) :
    normalized dialPrefix escape s = some s := by
  rw [normalized, normalizeNumber, if_neg hother]
  rfl

theorem normalized_of_overrun (hplan : planOfProxy dialPrefix = none)
    (hphone : isPhoneNumber s = true) : normalized dialPrefix escape s = none := by
  rw [normalized, normalizeNumber, if_pos hphone, hplan]
  rfl

theorem normalized_separator {c : Char} (h : c ∈ separators) (hphone : isPhoneNumber (s ++ t)) :
    normalized dialPrefix escape (s ++ c :: t) = normalized dialPrefix escape (s ++ t) := by
  have hflat : flattenNumber (s ++ c :: t) = flattenNumber (s ++ t) := by
    rw [flattenNumber_append, flattenNumber_append, (separator_skipped h).1]
  have hwith : isPhoneNumber (s ++ c :: t) = true := by
    rw [isPhoneNumber_append, (separator_skipped h).2, ← isPhoneNumber_append]
    exact hphone
  rw [normalized, normalized, normalizeNumber, normalizeNumber, if_pos hwith, if_pos hphone, hflat]

/-- The form of a plan whose country code is flat. -/
theorem canonical_of_plan (usable : plan.Usable) (hccc : Flat plan.ccc.toList)
    (hplan : planOfProxy dialPrefix = some (some plan)) : Canonical dialPrefix escape where
  idempotent username hphone := by
    obtain ⟨rest, hresult, hrest⟩ : ∃ rest, normalizeWith plan escape (flattenNumber username) =
        plan.mark escape ++ rest ∧ Flat rest :=
      normalizeWith_marked usable hccc (flat_flattenNumber username)
    have hflat : Flat (plan.mark escape ++ rest) := flat_append.mpr ⟨usable.flat_mark, hrest⟩
    refine ⟨plan.mark escape ++ rest, ?_, ?_⟩
    · rw [normalized_of_plan hplan hphone, hresult]
    · rw [normalized_of_plan hplan hflat.isPhoneNumber, flattenNumber_eq_self_iff.mpr hflat,
        normalizeWith_mark usable]
  separators _ _ _ hc hphone := normalized_separator hc hphone
  national row n hrow hphone hdigits hlength hicp := by
    obtain rfl : plan = row := Option.some.inj (Option.some.inj (hplan.symm.trans hrow))
    have hplus : (flattenNumber n).head? ≠ some '+' := by
      intro hhead
      obtain ⟨rest, hrest⟩ := List.head?_eq_some_iff.mp hhead
      exact absurd (hdigits '+' (hrest ▸ List.mem_cons_self)) (by decide)
    have hnational : normalized dialPrefix escape n =
        some (plan.mark escape ++ (plan.ccc.toList ++ flattenNumber n)) := by
      rw [normalized_of_plan hplan hphone, normalizeWith_national hplus hicp,
        Nat.sub_eq_zero_of_le hlength, List.drop_zero]
    have hbody : isPhoneNumber (plan.ccc.toList ++ n) = true := by
      rw [isPhoneNumber_append, hccc.isPhoneNumber, hphone]
      rfl
    have hdigitsFlat : Flat plan.icp.toList := fun c hc => Or.inl (usable.digits c hc)
    constructor
    · have hwhole : isPhoneNumber ('+' :: (plan.ccc.toList ++ n)) = true := hbody
      have hflat : flattenNumber ('+' :: (plan.ccc.toList ++ n)) =
          '+' :: (plan.ccc.toList ++ flattenNumber n) := by
        show '+' :: flattenNumber (plan.ccc.toList ++ n) = _
        rw [flattenNumber_append, flattenNumber_eq_self_iff.mpr hccc]
      rw [hnational, normalized_of_plan hplan hwhole, hflat, normalizeWith_plus]
    · have hwhole : isPhoneNumber (plan.icp.toList ++ (plan.ccc.toList ++ n)) = true := by
        rw [isPhoneNumber_append, hdigitsFlat.isPhoneNumber, hbody]
        rfl
      rw [hnational, normalized_of_plan hplan hwhole, flattenNumber_append, flattenNumber_append,
        flattenNumber_eq_self_iff.mpr hdigitsFlat, flattenNumber_eq_self_iff.mpr hccc,
        normalizeWith_icp usable]

theorem canonical_of_no_plan (hplan : planOfProxy dialPrefix = some none) :
    Canonical dialPrefix escape where
  idempotent username hphone := by
    have hflat := flat_flattenNumber username
    refine ⟨flattenNumber username, normalized_of_no_plan hplan hphone, ?_⟩
    rw [normalized_of_no_plan hplan hflat.isPhoneNumber, flattenNumber_eq_self_iff.mpr hflat]
  separators _ _ _ hc hphone := normalized_separator hc hphone
  national row _ hrow := nomatch Option.some.inj (hplan.symm.trans hrow)

/-- A canonical form needs a flat country code: with a plus in front of it, it would be flattened
with the number, and without a number it is not. -/
theorem Canonical.flat_ccc (canonical : Canonical dialPrefix escape) (usable : plan.Usable)
    (hplan : planOfProxy dialPrefix = some (some plan)) : Flat plan.ccc.toList := by
  have hicp : ¬plan.icp.toList <+: ([] : List Char) := fun h =>
    usable.icp (List.prefix_nil.mp h)
  obtain ⟨hplus, hcall⟩ := canonical.national plan [] hplan rfl (fun c hc => nomatch hc)
    (Nat.zero_le _) hicp
  rw [List.append_nil] at hplus hcall
  by_cases hphone : isPhoneNumber plan.ccc.toList = true
  · have hnone : normalized dialPrefix escape [] =
        some (plan.mark escape ++ (plan.ccc.toList ++ [])) := by
      rw [normalized_of_plan hplan rfl, show flattenNumber [] = [] from rfl,
        normalizeWith_national (s := []) nofun hicp, List.drop_nil]
    have hwith : normalized dialPrefix escape ('+' :: plan.ccc.toList) =
        some (plan.mark escape ++ flattenNumber plan.ccc.toList) := by
      have hwhole : isPhoneNumber ('+' :: plan.ccc.toList) = true := hphone
      rw [normalized_of_plan hplan hwhole]
      exact congrArg some (normalizeWith_plus _)
    rw [hnone, hwith, List.append_nil] at hplus
    exact flattenNumber_eq_self_iff.mp (List.append_cancel_left (Option.some.inj hplus))
  · have hcallOther : ¬isPhoneNumber (plan.icp.toList ++ plan.ccc.toList) = true := by
      rw [isPhoneNumber_append, Bool.and_eq_true]
      exact fun h => hphone h.2
    have hplusOther : ¬isPhoneNumber ('+' :: plan.ccc.toList) = true := hphone
    rw [normalized_of_other hcallOther] at hcall
    rw [normalized_of_other hplusOther, ← hcall] at hplus
    have hmark : ['+'] = plan.icp.toList :=
      List.append_cancel_right (Option.some.inj hplus)
    exact absurd (usable.digits '+' (hmark ▸ List.mem_singleton_self _)) (by decide)

end Linphone
