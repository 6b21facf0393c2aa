import Linphone.Lib.Words
import Linphone.Sal.Description

/-!
# Suites for ZRTP

`setZrtpCryptoTypesParameters` (`coreapi/linphonecall.c`) and the lists of the configuration it
reads (`coreapi/misc.c`). The ciphers and the auth tags are first those of the SRTP suites. A list
for ZRTP takes their place when it has a name that is known; the other three arrays have their
lists alone.

The names and the size of the arrays are those of the media library. A write behind the end of an
array is not defined. `zrtp_suites_iff` says when the arrays are what the configuration asks for:
no list has more names than an array has places, a list for ciphers or auth tags has a name that is
known or the SRTP suites give nothing, no suite after the fourth counts, and `AES_256_SHA1_32` is
not there to give an auth tag.
-/

namespace Linphone

/-- `SAL_CRYPTO_ALGO_MAX` -/
def salCryptoAlgoMax : Nat := 4

/-! ## What the media library knows -/

/-- The types of an array, their names, and the suites of SRTP. No name is empty. -/
structure ZrtpLibrary (Cipher Hash AuthTag SasType KeyAgreement : Type) where
  /-- `MS_MAX_ZRTP_CRYPTO_TYPES` -/
  maxTypes : Nat
  aes1 : Cipher
  aes3 : Cipher
  hs32 : AuthTag
  hs80 : AuthTag
  hs32_ne : hs32 ≠ hs80
  cipherFromString : List Char → Option Cipher
  hashFromString : List Char → Option Hash
  authTagFromString : List Char → Option AuthTag
  sasTypeFromString : List Char → Option SasType
  keyAgreementFromString : List Char → Option KeyAgreement
  cipher_empty : cipherFromString [] = none
  hash_empty : hashFromString [] = none
  authTag_empty : authTagFromString [] = none
  sasType_empty : sasTypeFromString [] = none
  keyAgreement_empty : keyAgreementFromString [] = none
  /-- `ms_crypto_suite_build_from_name_params` -/
  buildSuite : List Char → Option (List Char) → MSCryptoSuite

/-- The lists of the section `sip`. -/
structure ZrtpConfig where
  srtpCryptoSuites : Option (List Char) := none
  zrtpCipherSuites : Option (List Char) := none
  zrtpHashSuites : Option (List Char) := none
  zrtpAuthSuites : Option (List Char) := none
  zrtpSasSuites : Option (List Char) := none
  zrtpKeyAgreementsSuites : Option (List Char) := none

/-- The five arrays of `MSZrtpParams`, as far as their counts say. -/
structure MSZrtpParams (Cipher Hash AuthTag SasType KeyAgreement : Type) where
  ciphers : List Cipher := []
  hashes : List Hash := []
  authTags : List AuthTag := []
  sasTypes : List SasType := []
  keyAgreements : List KeyAgreement := []

/-- `array[count++] = x` -/
def pushType {α : Type} (maxTypes : Nat) (array : List α) (x : α) : Option (List α) :=
  if array.length < maxTypes then some (array ++ [x]) else none

/-! ## Lists of names -/

/-- A space or a comma. -/
def isSuiteSeparator (c : Char) : Bool := c = ' ' || c = ','

/-- `seperate_string_list`: the entry, and where the string goes on. -/
def separateStringList (str : List Char) : Option (List Char × List Char) :=
  if str = [] then none
  else some (Words.first isSuiteSeparator str, Words.rest isSuiteSeparator str)

theorem separateStringList_eq_some {str entry rest : List Char}
    (h : separateStringList str = some (entry, rest)) :
    str ≠ [] ∧ entry = Words.first isSuiteSeparator str ∧
      rest = Words.rest isSuiteSeparator str := by
  rw [separateStringList, Option.ite_none_left_eq_some, Option.some.injEq, Prod.mk.injEq] at h
  exact ⟨h.1, h.2.1.symm, h.2.2.symm⟩

/-- The loop of the functions below. -/
def fillTypes {α : Type} (maxTypes : Nat) (fromString : List Char → Option α) (found : List α)
    (str : List Char) : Option (List α) :=
  match h : separateStringList str with
  | none => some found
  | some (entry, rest) =>
    match fromString entry with
    | none => fillTypes maxTypes fromString found rest
    | some x =>
      match pushType maxTypes found x with
      | none => none
      | some found => fillTypes maxTypes fromString found rest
termination_by str.length
decreasing_by
  all_goals
    obtain ⟨hne, -, rfl⟩ := separateStringList_eq_some h
    exact Words.length_rest_lt hne

/-- A list of the configuration, read into an array. -/
def getTypes {α : Type} (maxTypes : Nat) (fromString : List Char → Option α) :
    Option (List Char) → Option (List α)
  | none => some []
  | some zrtpConfig => fillTypes maxTypes fromString [] zrtpConfig

section Functions

variable {Cipher Hash AuthTag SasType KeyAgreement : Type}
  (lib : ZrtpLibrary Cipher Hash AuthTag SasType KeyAgreement) (config : ZrtpConfig)

def getZrtpCipherSuites : Option (List Cipher) :=
  getTypes lib.maxTypes lib.cipherFromString config.zrtpCipherSuites

def getZrtpHashSuites : Option (List Hash) :=
  getTypes lib.maxTypes lib.hashFromString config.zrtpHashSuites

def getZrtpAuthSuites : Option (List AuthTag) :=
  getTypes lib.maxTypes lib.authTagFromString config.zrtpAuthSuites

def getZrtpSasSuites : Option (List SasType) :=
  getTypes lib.maxTypes lib.sasTypeFromString config.zrtpSasSuites

def getZrtpKeyAgreementSuites : Option (List KeyAgreement) :=
  getTypes lib.maxTypes lib.keyAgreementFromString config.zrtpKeyAgreementsSuites

/-- The suite a piece between commas names: a name, and parameters behind a space. -/
def srtpSuiteNamed (piece : List Char) : Option MSCryptoSuite :=
  let name := piece.dropWhile (· = ' ')
  let params := if ' ' ∈ name then some ((name.dropWhile (· ≠ ' ')).dropWhile (· = ' ')) else none
  if name = [] then none
  else if lib.buildSuite name params = .invalid then none
  else some (lib.buildSuite name params)

/-- `linphone_core_get_srtp_crypto_suites`, up to the suite that ends the array. -/
def getSrtpCryptoSuites : List MSCryptoSuite :=
  let config := config.srtpCryptoSuites.getD
    ("AES_CM_128_HMAC_SHA1_80, AES_CM_128_HMAC_SHA1_32, " ++
      "AES_CM_256_HMAC_SHA1_80, AES_CM_256_HMAC_SHA1_32").toList
  (config.splitOn ',').filterMap (srtpSuiteNamed lib)

/-- The types a suite gives, each written to its array. -/
def addSrtpSuite (params : MSZrtpParams Cipher Hash AuthTag SasType KeyAgreement)
    (suite : MSCryptoSuite) :
    Option (MSZrtpParams Cipher Hash AuthTag SasType KeyAgreement) :=
  let withCipher params cipher := do
    let ciphers ← pushType lib.maxTypes params.ciphers cipher
    return { params with ciphers := ciphers }
  let withAuthTag params authTag := do
    let authTags ← pushType lib.maxTypes params.authTags authTag
    return { params with authTags := authTags }
  match suite with
  | .aes128Sha1_32 => do withAuthTag (← withCipher params lib.aes1) lib.hs32
  | .aes128NoAuth => withCipher params lib.aes1
  | .noCipherSha1_80 => withAuthTag params lib.hs80
  | .aes128Sha1_80 => do withAuthTag (← withCipher params lib.aes1) lib.hs80
  | .aes256Sha1_80 => do withAuthTag (← withCipher params lib.aes3) lib.hs80
  | .aes256Sha1_32 => do withAuthTag (← withCipher params lib.aes3) lib.hs80
  | .invalid => some params

/-- `setZrtpCryptoTypesParameters` -/
def setZrtpCryptoTypesParameters :
    Option (MSZrtpParams Cipher Hash AuthTag SasType KeyAgreement) := do
  let suites := (getSrtpCryptoSuites lib config).take (min salCryptoAlgoMax lib.maxTypes)
  let params ← suites.foldlM (addSrtpSuite lib) {}
  -- each default can be overridden
  let ciphers ← getZrtpCipherSuites lib config
  let params := if ciphers.length ≠ 0 then { params with ciphers := ciphers } else params
  let params := { params with hashes := ← getZrtpHashSuites lib config }
  let authTags ← getZrtpAuthSuites lib config
  let params := if authTags.length ≠ 0 then { params with authTags := authTags } else params
  let params := { params with sasTypes := ← getZrtpSasSuites lib config }
  return { params with keyAgreements := ← getZrtpKeyAgreementSuites lib config }

/-! ## What is asked for -/

/-- The types a list names, in its order. -/
def namedTypes {α : Type} (fromString : List Char → Option α) (str : List Char) : List α :=
  (Words.words isSuiteSeparator str).filterMap fromString

def suiteCipher : MSCryptoSuite → Option Cipher
  | .aes128Sha1_32 | .aes128NoAuth | .aes128Sha1_80 => some lib.aes1
  | .aes256Sha1_80 | .aes256Sha1_32 => some lib.aes3
  | .noCipherSha1_80 | .invalid => none

/-- A tag of 32 bits, or of 80. -/
def suiteAuthTag : MSCryptoSuite → Option AuthTag
  | .aes128Sha1_32 | .aes256Sha1_32 => some lib.hs32
  | .noCipherSha1_80 | .aes128Sha1_80 | .aes256Sha1_80 => some lib.hs80
  | .aes128NoAuth | .invalid => none

/-- The types of a list, as many as there is place for, or others if there is no list. -/
def askedTypes {α : Type} (maxTypes : Nat) (fromString : List Char → Option α)
    (list : Option (List Char)) (others : List α) : List α :=
  ((list.elim others (namedTypes fromString))).take maxTypes

/-- The arrays are those the configuration asks for, and no array was written past its end. -/
def ZrtpSuitesRight : Prop :=
  setZrtpCryptoTypesParameters lib config = some
    { ciphers := askedTypes lib.maxTypes lib.cipherFromString config.zrtpCipherSuites
        ((getSrtpCryptoSuites lib config).filterMap (suiteCipher lib))
      hashes := askedTypes lib.maxTypes lib.hashFromString config.zrtpHashSuites []
      authTags := askedTypes lib.maxTypes lib.authTagFromString config.zrtpAuthSuites
        ((getSrtpCryptoSuites lib config).filterMap (suiteAuthTag lib))
      sasTypes := askedTypes lib.maxTypes lib.sasTypeFromString config.zrtpSasSuites []
      keyAgreements :=
        askedTypes lib.maxTypes lib.keyAgreementFromString config.zrtpKeyAgreementsSuites [] }

/-- There is a place for each name that is known. -/
def ListFits {α : Type} (maxTypes : Nat) (fromString : List Char → Option α)
    (list : Option (List Char)) : Prop :=
  ∀ str, list = some str → (namedTypes fromString str).length ≤ maxTypes

/-- The suites that are looked at. -/
def firstSuites : List MSCryptoSuite :=
  (getSrtpCryptoSuites lib config).take (min salCryptoAlgoMax lib.maxTypes)

/-- A list names a type that is known, unless the first suites give nothing; without a list, the
other suites give nothing, unless the first ones fill the array. -/
def SuitesTell {α : Type} (fromString : List Char → Option α) (list : Option (List Char))
    (given : MSCryptoSuite → Option α) : Prop :=
  match list with
  | some str =>
    namedTypes fromString str ≠ [] ∨ ∀ suite ∈ firstSuites lib config, given suite = none
  | none =>
    (∀ suite ∈ (getSrtpCryptoSuites lib config).drop (min salCryptoAlgoMax lib.maxTypes),
      given suite = none) ∨
    ((firstSuites lib config).filterMap given).length = lib.maxTypes

structure ZrtpConfigMeets : Prop where
  ciphersFit : ListFits lib.maxTypes lib.cipherFromString config.zrtpCipherSuites
  hashesFit : ListFits lib.maxTypes lib.hashFromString config.zrtpHashSuites
  authTagsFit : ListFits lib.maxTypes lib.authTagFromString config.zrtpAuthSuites
  sasTypesFit : ListFits lib.maxTypes lib.sasTypeFromString config.zrtpSasSuites
  keyAgreementsFit :
    ListFits lib.maxTypes lib.keyAgreementFromString config.zrtpKeyAgreementsSuites
  ciphers : SuitesTell lib config lib.cipherFromString config.zrtpCipherSuites (suiteCipher lib)
  authTags : SuitesTell lib config lib.authTagFromString config.zrtpAuthSuites (suiteAuthTag lib)
  tag32 : config.zrtpAuthSuites = none → .aes256Sha1_32 ∉ firstSuites lib config

end Functions

/-! ## Reading a list -/

section Lists

variable {α : Type} {maxTypes : Nat} {fromString : List Char → Option α}

theorem separateStringList_nil : separateStringList [] = none := if_pos rfl

theorem separateStringList_of_ne {str : List Char} (h : str ≠ []) :
    separateStringList str =
      some (Words.first isSuiteSeparator str, Words.rest isSuiteSeparator str) := if_neg h

/-- One round of the loop. -/
theorem fillTypes_of_ne {str : List Char} (h : str ≠ []) (found : List α) :
    fillTypes maxTypes fromString found str =
      match fromString (Words.first isSuiteSeparator str) with
      | none => fillTypes maxTypes fromString found (Words.rest isSuiteSeparator str)
      | some x => (pushType maxTypes found x).bind fun found =>
          fillTypes maxTypes fromString found (Words.rest isSuiteSeparator str) := by
  rw [fillTypes]
  split
  · next heq => rw [separateStringList_of_ne h] at heq; exact absurd heq (by simp)
  · next entry rest heq =>
    obtain ⟨-, rfl, rfl⟩ := separateStringList_eq_some heq
    cases fromString (Words.first isSuiteSeparator str) with
    | none => rfl
    | some x => cases hpush : pushType maxTypes found x <;> simp [hpush]

/-- The loop writes the types of all pieces, as long as there is a place for them. -/
theorem fillTypes_eq (found : List α) (str : List Char) (hfound : found.length ≤ maxTypes) :
    fillTypes maxTypes fromString found str =
      if (found ++ (Words.pieces isSuiteSeparator str).filterMap fromString).length ≤ maxTypes then
        some (found ++ (Words.pieces isSuiteSeparator str).filterMap fromString)
      else none := by
  induction str using Words.pieces.induct isSuiteSeparator generalizing found with
  | case1 =>
    rw [Words.pieces_nil, List.filterMap_nil, List.append_nil, if_pos hfound, fillTypes]
    split
    · rfl
    · next heq => rw [separateStringList_nil] at heq; exact absurd heq (by simp)
  | case2 str hne ih =>
    rw [fillTypes_of_ne hne, Words.pieces_of_ne hne, List.filterMap_cons]
    cases hentry : fromString (Words.first isSuiteSeparator str) with
    | none => exact ih found hfound
    | some x =>
      show (pushType maxTypes found x).bind _ = _
      rw [pushType]
      by_cases hplace : found.length < maxTypes
      · rw [if_pos hplace, Option.bind_some, ih _ (by rw [List.length_append]; exact hplace),
          List.append_assoc]
        rfl
      · rw [if_neg hplace, if_neg (by rw [List.length_append, List.length_cons]; omega)]
        rfl

/-- The types a list names; none without a list. -/
def listed (fromString : List Char → Option α) (list : Option (List Char)) : List α :=
  list.elim [] (namedTypes fromString)

theorem getTypes_eq_some_iff (hempty : fromString [] = none) {list : Option (List Char)}
    {found : List α} :
    getTypes maxTypes fromString list = some found ↔
      ListFits maxTypes fromString list ∧ found = listed fromString list := by
  cases list with
  | none =>
    have hfits : ListFits maxTypes fromString none := fun str hstr => by simp at hstr
    simp [getTypes, listed, hfits, eq_comm]
  | some str =>
    have hfits : ListFits maxTypes fromString (some str) ↔
        (namedTypes fromString str).length ≤ maxTypes :=
      ⟨fun h => h str rfl, fun h str' hstr => Option.some.inj hstr ▸ h⟩
    rw [hfits, getTypes, fillTypes_eq [] str (Nat.zero_le _), List.nil_append,
      Words.filterMap_pieces hempty, Option.ite_none_right_eq_some, Option.some.injEq, eq_comm]
    rfl

theorem askedTypes_some {str : List Char} {others : List α}
    (h : ListFits maxTypes fromString (some str)) :
    askedTypes maxTypes fromString (some str) others = namedTypes fromString str :=
  List.take_of_length_le (h str rfl)

theorem askedTypes_nil {list : Option (List Char)} (h : ListFits maxTypes fromString list) :
    askedTypes maxTypes fromString list [] = listed fromString list := by
  cases list with
  | none => exact List.take_nil
  | some str => exact askedTypes_some h

end Lists

/-! ## The suites of SRTP -/

section Suites

variable {Cipher Hash AuthTag SasType KeyAgreement : Type}
  {lib : ZrtpLibrary Cipher Hash AuthTag SasType KeyAgreement} {config : ZrtpConfig}

/-- The tag the code gives for a suite. -/
def givenAuthTag (lib : ZrtpLibrary Cipher Hash AuthTag SasType KeyAgreement)
    (suite : MSCryptoSuite) : Option AuthTag :=
  if suite = .aes256Sha1_32 then some lib.hs80 else suiteAuthTag lib suite

theorem addSrtpSuite_eq (params : MSZrtpParams Cipher Hash AuthTag SasType KeyAgreement)
    (suite : MSCryptoSuite) (hciphers : params.ciphers.length < lib.maxTypes)
    (hauthTags : params.authTags.length < lib.maxTypes) :
    addSrtpSuite lib params suite = some
      { params with
        ciphers := params.ciphers ++ (suiteCipher lib suite).toList
        authTags := params.authTags ++ (givenAuthTag lib suite).toList } := by
  cases suite <;>
    simp [addSrtpSuite, pushType, hciphers, hauthTags, suiteCipher, givenAuthTag, suiteAuthTag]

theorem toList_append_filterMap {α β : Type} (f : α → Option β) (x : α) (l : List α) :
    (f x).toList ++ l.filterMap f = (x :: l).filterMap f := by
  rw [List.filterMap_cons]
  cases f x <;> rfl

/-- There is a place for what the first suites give. -/
theorem addSrtpSuites_eq (suites : List MSCryptoSuite)
    (params : MSZrtpParams Cipher Hash AuthTag SasType KeyAgreement)
    (hciphers : params.ciphers.length + suites.length ≤ lib.maxTypes)
    (hauthTags : params.authTags.length + suites.length ≤ lib.maxTypes) :
    suites.foldlM (addSrtpSuite lib) params = some
      { params with
        ciphers := params.ciphers ++ suites.filterMap (suiteCipher lib)
        authTags := params.authTags ++ suites.filterMap (givenAuthTag lib) } := by
  induction suites generalizing params with
  | nil => simp
  | cons suite suites ih =>
    rw [List.length_cons] at hciphers hauthTags
    have hle : ∀ o : Option Cipher, o.toList.length ≤ 1 := fun o => by cases o <;> simp
    have hle' : ∀ o : Option AuthTag, o.toList.length ≤ 1 := fun o => by cases o <;> simp
    rw [List.foldlM_cons, addSrtpSuite_eq params suite (by omega) (by omega)]
    refine (ih _ ?_ ?_).trans ?_
    · have := hle (suiteCipher lib suite)
      rw [List.length_append]
      omega
    · have := hle' (givenAuthTag lib suite)
      rw [List.length_append]
      omega
    · simp only [List.append_assoc, toList_append_filterMap]

/-- All suites give what the first ones do exactly if the others give nothing or find no place. -/
theorem filterMap_take_eq_iff {α β : Type} {f : α → Option β} {l : List α} {n k : Nat}
    (hn : n ≤ k) :
    (l.take n).filterMap f = (l.filterMap f).take k ↔
      (∀ x ∈ l.drop n, f x = none) ∨ ((l.take n).filterMap f).length = k := by
  have hle : ((l.take n).filterMap f).length ≤ k :=
    (List.length_filterMap_le f _).trans ((List.length_take_le n l).trans hn)
  have hsplit : l.filterMap f = (l.take n).filterMap f ++ (l.drop n).filterMap f := by
    rw [← List.filterMap_append, List.take_append_drop]
  rw [hsplit, List.take_append, List.take_of_length_le hle, List.self_eq_append_right,
    List.take_eq_nil_iff, List.filterMap_eq_nil_iff, or_comm]
  refine or_congr_right ?_
  omega

theorem length_filterMap_given (suites : List MSCryptoSuite) :
    (suites.filterMap (givenAuthTag lib)).length =
      (suites.filterMap (suiteAuthTag lib)).length := by
  induction suites with
  | nil => rfl
  | cons suite suites ih =>
    cases suite <;> simp [givenAuthTag, suiteAuthTag, List.filterMap_cons, ih]

theorem filterMap_given_eq_iff (suites : List MSCryptoSuite) :
    suites.filterMap (givenAuthTag lib) = suites.filterMap (suiteAuthTag lib) ↔
      .aes256Sha1_32 ∉ suites := by
  induction suites with
  | nil => simp
  | cons suite suites ih =>
    have hne := lib.hs32_ne
    cases suite <;> simp [givenAuthTag, suiteAuthTag, List.filterMap_cons, ih, hne.symm]

/-- The same for the tags that are given, which are right but for one suite. -/
theorem given_eq_take_iff {suites : List MSCryptoSuite} {n k : Nat} (hn : n ≤ k) :
    (suites.take n).filterMap (givenAuthTag lib) =
        (suites.filterMap (suiteAuthTag lib)).take k ↔
      ((∀ suite ∈ suites.drop n, suiteAuthTag lib suite = none) ∨
        ((suites.take n).filterMap (suiteAuthTag lib)).length = k) ∧
      .aes256Sha1_32 ∉ suites.take n := by
  rw [← filterMap_take_eq_iff hn, ← @filterMap_given_eq_iff _ _ _ _ _ lib]
  constructor
  · intro h
    have hle : ((suites.take n).filterMap (suiteAuthTag lib)).length ≤ k :=
      (List.length_filterMap_le _ _).trans ((List.length_take_le n suites).trans hn)
    have hsplit : (suites.filterMap (suiteAuthTag lib)).take k =
        (suites.take n).filterMap (suiteAuthTag lib) ++
          ((suites.drop n).filterMap (suiteAuthTag lib)).take
            (k - ((suites.take n).filterMap (suiteAuthTag lib)).length) := by
      conv_lhs => rw [← List.take_append_drop n suites, List.filterMap_append, List.take_append,
        List.take_of_length_le hle]
    -- as many tags are given as are asked for, so nothing comes after them
    have hlen := congrArg List.length (h.trans hsplit)
    rw [length_filterMap_given, List.length_append] at hlen
    have hnil := List.length_eq_zero_iff.mp (Nat.left_eq_add.mp hlen)
    rw [hnil, List.append_nil] at hsplit
    exact ⟨hsplit.symm, h.trans hsplit⟩
  · rintro ⟨hall, hgiven⟩
    exact hgiven.trans hall

/-! ## The arrays -/

/-- A list that was read takes the place of what was there, unless it is empty. -/
def overridden {α : Type} (found default : List α) : List α :=
  if found.length ≠ 0 then found else default

theorem setZrtpCryptoTypesParameters_eq_some_iff
    {params : MSZrtpParams Cipher Hash AuthTag SasType KeyAgreement} :
    setZrtpCryptoTypesParameters lib config = some params ↔
      ListFits lib.maxTypes lib.cipherFromString config.zrtpCipherSuites ∧
      ListFits lib.maxTypes lib.hashFromString config.zrtpHashSuites ∧
      ListFits lib.maxTypes lib.authTagFromString config.zrtpAuthSuites ∧
      ListFits lib.maxTypes lib.sasTypeFromString config.zrtpSasSuites ∧
      ListFits lib.maxTypes lib.keyAgreementFromString config.zrtpKeyAgreementsSuites ∧
      params =
        { ciphers := overridden (listed lib.cipherFromString config.zrtpCipherSuites)
            ((firstSuites lib config).filterMap (suiteCipher lib))
          hashes := listed lib.hashFromString config.zrtpHashSuites
          authTags := overridden (listed lib.authTagFromString config.zrtpAuthSuites)
            ((firstSuites lib config).filterMap (givenAuthTag lib))
          sasTypes := listed lib.sasTypeFromString config.zrtpSasSuites
          keyAgreements :=
            listed lib.keyAgreementFromString config.zrtpKeyAgreementsSuites } := by
  have hlen : (firstSuites lib config).length ≤ lib.maxTypes :=
    (List.length_take_le _ _).trans (Nat.min_le_right _ _)
  have hsuites := addSrtpSuites_eq (firstSuites lib config)
    ({} : MSZrtpParams Cipher Hash AuthTag SasType KeyAgreement) (by simpa using hlen)
    (by simpa using hlen)
  rw [firstSuites] at hsuites
  simp only [setZrtpCryptoTypesParameters, hsuites, Option.bind_eq_bind, Option.bind_some,
    Option.bind_eq_some_iff, getZrtpCipherSuites, getZrtpHashSuites, getZrtpAuthSuites,
    getZrtpSasSuites, getZrtpKeyAgreementSuites, getTypes_eq_some_iff lib.cipher_empty,
    getTypes_eq_some_iff lib.hash_empty, getTypes_eq_some_iff lib.authTag_empty,
    getTypes_eq_some_iff lib.sasType_empty, getTypes_eq_some_iff lib.keyAgreement_empty]
  constructor
  · rintro ⟨ciphers, ⟨hc, rfl⟩, hashes, ⟨hh, rfl⟩, authTags, ⟨ha, rfl⟩, sasTypes, ⟨hs, rfl⟩,
      keyAgreements, ⟨hk, rfl⟩, hparams⟩
    refine ⟨hc, hh, ha, hs, hk, ?_⟩
    rw [overridden, overridden, ← Option.some.inj hparams]
    split <;> split <;> rfl
  · rintro ⟨hc, hh, ha, hs, hk, rfl⟩
    refine ⟨_, ⟨hc, rfl⟩, _, ⟨hh, rfl⟩, _, ⟨ha, rfl⟩, _, ⟨hs, rfl⟩, _, ⟨hk, rfl⟩, ?_⟩
    rw [overridden, overridden]
    refine congrArg some ?_
    split <;> split <;> rfl

/-- A list names a type that is known or there is nothing it would have to take the place of;
without a list, what is there is what is asked for. -/
def Decides {α : Type} (fromString : List Char → Option α) (list : Option (List Char))
    (default asked : List α) : Prop :=
  match list with
  | some str => namedTypes fromString str ≠ [] ∨ default = []
  | none => default = asked

theorem overridden_eq_askedTypes_iff {α : Type} {maxTypes : Nat}
    {fromString : List Char → Option α} {list : Option (List Char)} {default others : List α}
    (h : ListFits maxTypes fromString list) :
    overridden (listed fromString list) default =
        askedTypes maxTypes fromString list others ↔
      Decides fromString list default (others.take maxTypes) := by
  cases list with
  | none => exact Iff.rfl
  | some str =>
    rw [askedTypes_some h, overridden, Decides]
    by_cases hnil : namedTypes fromString str = []
    · simp [listed, hnil]
    · simp [listed, hnil]

/-- What `SuitesTell` says of the first suites and of all of them. -/
theorem suitesTell_iff {α : Type} {fromString : List Char → Option α} {list : Option (List Char)}
    {given : MSCryptoSuite → Option α} :
    SuitesTell lib config fromString list given ↔
      Decides fromString list ((firstSuites lib config).filterMap given)
        (((getSrtpCryptoSuites lib config).filterMap given).take lib.maxTypes) := by
  cases list with
  | some str => rw [SuitesTell, Decides, List.filterMap_eq_nil_iff]
  | none =>
    rw [SuitesTell, firstSuites]
    exact (filterMap_take_eq_iff (Nat.min_le_right _ _)).symm

/-- The tags are what is asked for when the suites tell them and none is given wrong. -/
theorem authTags_iff :
    Decides lib.authTagFromString config.zrtpAuthSuites
        ((firstSuites lib config).filterMap (givenAuthTag lib))
        (((getSrtpCryptoSuites lib config).filterMap (suiteAuthTag lib)).take lib.maxTypes) ↔
      SuitesTell lib config lib.authTagFromString config.zrtpAuthSuites (suiteAuthTag lib) ∧
        (config.zrtpAuthSuites = none → .aes256Sha1_32 ∉ firstSuites lib config) := by
  cases hlist : config.zrtpAuthSuites with
  | some str =>
    have hnil : (firstSuites lib config).filterMap (givenAuthTag lib) = [] ↔
        ∀ suite ∈ firstSuites lib config, suiteAuthTag lib suite = none := by
      rw [← List.length_eq_zero_iff, length_filterMap_given, List.length_eq_zero_iff,
        List.filterMap_eq_nil_iff]
    simp only [Decides, SuitesTell, hnil, reduceCtorEq, false_implies, and_true]
  | none =>
    simp only [Decides, SuitesTell, forall_const]
    exact given_eq_take_iff (Nat.min_le_right _ _)

/-- **The arrays are what the configuration asks for exactly under these conditions.** -/
theorem zrtp_suites_iff (lib : ZrtpLibrary Cipher Hash AuthTag SasType KeyAgreement)
    (config : ZrtpConfig) : ZrtpSuitesRight lib config ↔ ZrtpConfigMeets lib config := by
  rw [ZrtpSuitesRight, setZrtpCryptoTypesParameters_eq_some_iff]
  constructor
  · rintro ⟨hc, hh, ha, hs, hk, heq⟩
    rw [MSZrtpParams.mk.injEq] at heq
    obtain ⟨hciphers, -, hauthTags, -, -⟩ := heq
    have hciphers := (overridden_eq_askedTypes_iff hc).mp hciphers.symm
    have hauthTags := authTags_iff.mp ((overridden_eq_askedTypes_iff ha).mp hauthTags.symm)
    exact ⟨hc, hh, ha, hs, hk, suitesTell_iff.mpr hciphers, hauthTags.1, hauthTags.2⟩
  · rintro ⟨hc, hh, ha, hs, hk, hciphers, hauthTags, htag⟩
    refine ⟨hc, hh, ha, hs, hk, ?_⟩
    rw [askedTypes_nil hh, askedTypes_nil hs, askedTypes_nil hk,
      (overridden_eq_askedTypes_iff hc).mpr (suitesTell_iff.mp hciphers),
      (overridden_eq_askedTypes_iff ha).mpr (authTags_iff.mpr ⟨hauthTags, htag⟩)]

end Suites

/-- A type for each of some names. -/
def typeNamed (names : List String) (name : List Char) : Option String :=
  if name ≠ [] ∧ String.ofList name ∈ names then some (String.ofList name) else none

/-- A media library that knows the types in use, and the suites that have no parameters. -/
def smallZrtpLibrary : ZrtpLibrary String String String String String where
  maxTypes := 7
  aes1 := "MS_ZRTP_CIPHER_AES1"
  aes3 := "MS_ZRTP_CIPHER_AES3"
  hs32 := "MS_ZRTP_AUTHTAG_HS32"
  hs80 := "MS_ZRTP_AUTHTAG_HS80"
  hs32_ne := by decide
  cipherFromString := typeNamed ["MS_ZRTP_CIPHER_AES1", "MS_ZRTP_CIPHER_AES3"]
  hashFromString := typeNamed ["MS_ZRTP_HASH_S256"]
  authTagFromString := typeNamed ["MS_ZRTP_AUTHTAG_HS32", "MS_ZRTP_AUTHTAG_HS80"]
  sasTypeFromString := typeNamed ["MS_ZRTP_SAS_B32", "MS_ZRTP_SAS_B256"]
  keyAgreementFromString := typeNamed ["MS_ZRTP_KEY_AGREEMENT_DH3K"]
  cipher_empty := rfl
  hash_empty := rfl
  authTag_empty := rfl
  sasType_empty := rfl
  keyAgreement_empty := rfl
  buildSuite name _ :=
    if name = "AES_CM_256_HMAC_SHA1_32".toList then .aes256Sha1_32
    else if name = "AES_CM_256_HMAC_SHA1_80".toList then .aes256Sha1_80
    else if name = "AES_CM_128_HMAC_SHA1_32".toList then .aes128Sha1_32
    else if name = "AES_CM_128_HMAC_SHA1_80".toList then .aes128Sha1_80
    else .invalid

/-- A tag of 32 bits becomes one of 80. -/
theorem zrtp_tag_of_aes256_sha1_32 :
    ¬ZrtpSuitesRight smallZrtpLibrary
      { srtpCryptoSuites := some "AES_CM_256_HMAC_SHA1_32".toList } := by
  intro h
  have htags := congrArg (Option.map MSZrtpParams.authTags) h
  exact absurd htags (by decide)

end Linphone
