import Linphone.Call.LocalDescription
import Linphone.Config.LpConfig
import Linphone.Sal.CryptoLines

/-!
# Keys of local descriptions

`setup_encryption_keys` of `coreapi/linphonecall.c` gives the streams of a local description that
use SRTP an entry for each configured suite, or the entries they had in the description before.
`setup_encryption_key` looks up how long the key of a suite is, and then makes every key of thirty
bytes. An entry without a key keeps its tag.

`description_keys_iff`: over all descriptions of a call, the entries are complete exactly if only
suites with keys of thirty bytes are offered, and a key is made for each.
-/

namespace Linphone

/-! ## Suites -/

/-- The suite named between two commas. The name goes on to the end, behind its parameters too. -/
def srtpCryptoSuite (lib : CryptoLib) (piece : List Char) : Option MSCryptoSuite :=
  let pos := piece.dropWhile (· == ' ')
  let params :=
    if ' ' ∈ pos then some ((pos.dropWhile (· != ' ')).dropWhile (· == ' ')) else none
  if pos = [] then none
  else (some (lib.buildFromNameParams pos params)).filter fun suite => suite ≠ .invalid

/-- `linphone_core_get_srtp_crypto_suites`, up to its end. -/
def linphoneCoreGetSrtpCryptoSuites (lib : CryptoLib) (config : LpConfig) : List MSCryptoSuite :=
  let suites := (config.getString "sip" "srtp_crypto_suites").getD
    ("AES_CM_128_HMAC_SHA1_80, AES_CM_128_HMAC_SHA1_32, " ++
      "AES_CM_256_HMAC_SHA1_80, AES_CM_256_HMAC_SHA1_32")
  (suites.toList.splitOn ',').filterMap (srtpCryptoSuite lib)

/-- `keylen` in `setup_encryption_key` -/
def keylen : MSCryptoSuite → Nat
  | .aes128Sha1_80 | .aes128Sha1_32 | .aes128NoAuth | .noCipherSha1_80 => 30
  | .aes256Sha1_80 | .aes256Sha1_32 => 46
  | .invalid => 0

/-- `b64_encode`: four characters for three bytes, or less at the end. -/
structure Base64 where
  encode : List UInt8 → List Char
  length_encode : ∀ s, (encode s).length = 4 * ((s.length + 2) / 3)

/-- `generate_b64_crypto_key` for a buffer of `SAL_SRTP_KEY_SIZE`, of what `sal_get_random_bytes`
gives. -/
def generateB64CryptoKey (base64 : Base64) {keyLength : Nat}
    (tmp : Option (Vector UInt8 keyLength)) : Option String :=
  match tmp with
  | none => none
  | some tmp =>
      let key := base64.encode tmp.toList
      if key.length = 0 ∨ 128 ≤ key.length then none else some (String.ofList key)

/-! ## Descriptions of a call -/

/-- A local description that is made: the settings, the call and the configuration at that time, and
what `sal_get_random_bytes` gives for an entry of a stream. Until the next one is made, the
description is changed in place, but not the keys of its secured streams. -/
structure DescriptionRequest where
  env : LocalEnv
  call : CallData
  config : LpConfig
  random : Nat → Nat → (keyLength : Nat) → Option (Vector UInt8 keyLength)
  edit : SalMediaDescription → SalMediaDescription := id
  edit_keys : ∀ md i, ((edit md).stream i).active = true → ((edit md).stream i).hasSrtp = true →
    (md.stream i).active = true ∧ (md.stream i).hasSrtp = true ∧
      ((edit md).stream i).crypto = (md.stream i).crypto

namespace DescriptionRequest

variable (lib : CryptoLib) (base64 : Base64) (r : DescriptionRequest)

/-- Every key is made of thirty bytes, whatever the suite. -/
def keyedEnv : LocalEnv :=
  { r.env with
    cryptoSuites := linphoneCoreGetSrtpCryptoSuites lib r.config
    generateKey := fun i j => generateB64CryptoKey base64 (r.random i j 30) }

/-- The call with its description before. -/
def callAfter : Option SalMediaDescription → CallData
  | none => { r.call with hasLocaldesc := false }
  | some md => { r.call with hasLocaldesc := true, media := { r.call.media with localdesc := md } }

/-- The description that is made. -/
def made (old : Option SalMediaDescription) : SalMediaDescription :=
  localMediaDescription (r.keyedEnv lib base64) (r.callAfter old)

/-- The description of the call when the next one is made. -/
def localdescAfter (rs : List DescriptionRequest) : Option SalMediaDescription :=
  rs.foldl (fun old r => some (r.edit (r.made lib base64 old))) none

/-! ## Complete keys -/

/-- The entries of a stream are complete: a list without holes, with a tag of its own, a suite and a
key of its length each. -/
structure KeysComplete (crypto : Vector SalSrtpCryptoAlgo cryptoAlgoMax) : Prop where
  noHoles : ∀ i j : Fin cryptoAlgoMax, i < j → getElem crypto j j.isLt ≠ {} →
    getElem crypto i i.isLt ≠ {}
  tags : ∀ i j : Fin cryptoAlgoMax, getElem crypto i i.isLt ≠ {} →
    (getElem crypto i i.isLt).tag = (getElem crypto j j.isLt).tag → i = j
  algo : ∀ i : Fin cryptoAlgoMax, getElem crypto i i.isLt ≠ {} →
    (getElem crypto i i.isLt).algo ≠ .invalid
  key : ∀ i : Fin cryptoAlgoMax, getElem crypto i i.isLt ≠ {} → ∃ masterKey : List UInt8,
    masterKey.length = keylen (getElem crypto i i.isLt).algo ∧
      (getElem crypto i i.isLt).masterKey = String.ofList (base64.encode masterKey)

/-- A stream keeps the keys it had. -/
def Keeps (keepSrtpKeys : Bool) (old : Option SalMediaDescription) (i : Nat) : Prop :=
  keepSrtpKeys ∧ ∃ md ∈ old, (md.stream i).active = true ∧ (md.stream i).hasSrtp = true

/-- The keys of a description: those of the streams that are active and secured are complete, and
kept ones are as they were. -/
structure KeysSetUp (old : Option SalMediaDescription) (r : DescriptionRequest) : Prop where
  complete : ∀ i, ((r.made lib base64 old).stream i).active = true →
    ((r.made lib base64 old).stream i).hasSrtp = true →
    KeysComplete base64 ((r.made lib base64 old).stream i).crypto
  kept : ∀ i, ((r.made lib base64 old).stream i).active = true →
    ((r.made lib base64 old).stream i).hasSrtp = true → Keeps r.env.keepSrtpKeys old i →
    ∀ md ∈ old, ((r.made lib base64 old).stream i).crypto = (md.stream i).crypto

/-- The streams of a request before keys are set up. -/
def streamBefore (old : Option SalMediaDescription) (i : Nat) : SalStreamDescription :=
  (r.keyedEnv lib base64).streamAt (r.callAfter old) i

/-- Each suite that is offered to a stream whose keys are made has keys of thirty bytes, and the
bytes are there. -/
def OffersKeys (old : Option SalMediaDescription) (r : DescriptionRequest) : Prop :=
  ∀ i < maxStreams, (r.streamBefore lib base64 old i).active = true →
    (r.streamBefore lib base64 old i).hasSrtp = true → ¬Keeps r.env.keepSrtpKeys old i →
    ∀ j < cryptoAlgoMax, ∀ suite ∈ (linphoneCoreGetSrtpCryptoSuites lib r.config)[j]?,
      keylen suite = 30 ∧ (r.random i j 30).isSome

variable {lib base64 r} {suites : List MSCryptoSuite} {suite : MSCryptoSuite}
  {old : Option SalMediaDescription} {rs before : List DescriptionRequest} {i : Nat}

/-! ## One entry -/

omit r in
theorem ne_invalid_of_mem {config : LpConfig}
    (h : suite ∈ linphoneCoreGetSrtpCryptoSuites lib config) : suite ≠ .invalid := by
  obtain ⟨piece, -, hpiece⟩ := List.mem_filterMap.mp h
  unfold srtpCryptoSuite at hpiece
  dsimp only at hpiece
  split at hpiece
  · cases hpiece
  · exact of_decide_eq_true (Option.filter_eq_some_iff.mp hpiece).2

theorem setupEncryptionKey_tag (suite : MSCryptoSuite) (tag : UInt32) (key : Option String) :
    (setupEncryptionKey suite tag key).tag = tag := by
  unfold setupEncryptionKey
  split <;> rfl

theorem setupEncryptionKey_none (suite : MSCryptoSuite) (tag : UInt32) :
    (setupEncryptionKey suite tag none).algo = .invalid := by
  cases suite <;> rfl

theorem setupEncryptionKey_some (h : suite ≠ .invalid) (tag : UInt32) (key : String) :
    setupEncryptionKey suite tag (some key) = { tag := tag, algo := suite, masterKey := key } := by
  cases suite <;> first | rfl | exact absurd rfl h

theorem generateB64CryptoKey_some (tmp : Vector UInt8 30) :
    generateB64CryptoKey base64 (some tmp) = some (String.ofList (base64.encode tmp.toList)) := by
  have hlength := base64.length_encode tmp.toList
  rw [Vector.length_toList] at hlength
  refine if_neg fun hor => ?_
  rw [hlength] at hor
  exact absurd hor (by decide)

/-- A key of another length has another length in characters. -/
theorem keylen_of_encode {masterKey : List UInt8} {tmp : Vector UInt8 30}
    (hlength : masterKey.length = keylen suite) (hne : suite ≠ .invalid)
    (h : String.ofList (base64.encode tmp.toList) = String.ofList (base64.encode masterKey)) :
    keylen suite = 30 := by
  have hsame := congrArg List.length (String.ofList_injective h)
  rw [base64.length_encode, base64.length_encode, Vector.length_toList, hlength] at hsame
  cases suite with
  | invalid => exact absurd rfl hne
  | aes256Sha1_80 => exact absurd hsame (by decide)
  | aes256Sha1_32 => exact absurd hsame (by decide)
  | aes128Sha1_80 => rfl
  | aes128Sha1_32 => rfl
  | aes128NoAuth => rfl
  | noCipherSha1_80 => rfl

/-! ## One stream -/

/-- The entries of a stream whose keys are made. -/
def freshKeys (suites : List MSCryptoSuite) (key : Nat → Option String) :
    Vector SalSrtpCryptoAlgo cryptoAlgoMax :=
  Vector.ofFn fun j =>
    match suites[j.val]? with
    | some suite => setupEncryptionKey suite (.ofNat (j + 1)) (key j)
    | none => {}

omit r in
theorem freshKeys_some {key : Nat → Option String} {j : Fin cryptoAlgoMax}
    (h : suites[j.val]? = some suite) :
    getElem (freshKeys suites key) j j.isLt =
      setupEncryptionKey suite (.ofNat (j + 1)) (key j) := by
  simp [freshKeys, h]

omit r in
theorem freshKeys_none {key : Nat → Option String} {j : Fin cryptoAlgoMax}
    (h : suites[j.val]? = none) : getElem (freshKeys suites key) j j.isLt = {} := by
  simp [freshKeys, h]

theorem tag_inj : ∀ i j : Fin cryptoAlgoMax,
    UInt32.ofNat (i + 1) = UInt32.ofNat (j + 1) → i = j := by
  decide

theorem tag_ne_zero : ∀ j : Fin cryptoAlgoMax, UInt32.ofNat (j + 1) ≠ 0 := by
  decide

theorem freshKeys_ne {key : Nat → Option String} {j : Fin cryptoAlgoMax} :
    getElem (freshKeys suites key) j j.isLt ≠ {} ↔ j.val < suites.length := by
  constructor
  · intro h
    by_contra hj
    exact h (freshKeys_none (List.getElem?_eq_none (Nat.le_of_not_lt hj)))
  · intro hj h
    have htag := congrArg SalSrtpCryptoAlgo.tag h
    rw [freshKeys_some (List.getElem?_eq_getElem hj), setupEncryptionKey_tag] at htag
    exact tag_ne_zero j htag

/-- **Keys that are made** are complete exactly if the suites have keys of thirty bytes, and there
are bytes for each. -/
theorem keysComplete_freshKeys {random : Nat → Option (Vector UInt8 30)}
    (hne : ∀ suite ∈ suites, suite ≠ .invalid) :
    KeysComplete base64 (freshKeys suites fun j => generateB64CryptoKey base64 (random j)) ↔
      ∀ j < cryptoAlgoMax, ∀ suite ∈ suites[j]?, keylen suite = 30 ∧ (random j).isSome := by
  constructor
  · intro h j hj suite hsuite
    have hentry := @freshKeys_some suites suite (fun j => generateB64CryptoKey base64 (random j))
      ⟨j, hj⟩ hsuite
    have hset := (@freshKeys_ne suites (fun j => generateB64CryptoKey base64 (random j))
      ⟨j, hj⟩).mpr (List.getElem?_eq_some_iff.mp hsuite).1
    have hsuiteNe := hne suite (List.mem_of_getElem? hsuite)
    have halgo := h.algo ⟨j, hj⟩ hset
    obtain ⟨masterKey, hlength, hkey⟩ := h.key ⟨j, hj⟩ hset
    rw [hentry] at halgo hlength hkey
    cases hrandom : random j with
    | none =>
      simp only [hrandom, generateB64CryptoKey] at halgo
      exact absurd (setupEncryptionKey_none suite _) halgo
    | some tmp =>
      simp only [hrandom, generateB64CryptoKey_some, setupEncryptionKey_some hsuiteNe]
        at hlength hkey
      exact ⟨keylen_of_encode hlength hsuiteNe hkey, rfl⟩
  · intro h
    have hentry : ∀ j : Fin cryptoAlgoMax,
        (freshKeys suites fun j => generateB64CryptoKey base64 (random j))[j] ≠ {} →
        ∃ suite tmp, keylen suite = 30 ∧ suite ≠ .invalid ∧
          (freshKeys suites fun j => generateB64CryptoKey base64 (random j))[j] =
            { tag := .ofNat (j + 1), algo := suite
              masterKey := String.ofList (base64.encode (Vector.toList (n := 30) tmp)) } := by
      intro j hset
      obtain ⟨suite, hsuite⟩ : ∃ suite, suites[j.val]? = some suite :=
        ⟨_, List.getElem?_eq_getElem (freshKeys_ne.mp hset)⟩
      have hsuiteNe := hne suite (List.mem_of_getElem? hsuite)
      obtain ⟨hlength, hrandom⟩ := h j j.isLt suite hsuite
      obtain ⟨tmp, htmp⟩ := Option.isSome_iff_exists.mp hrandom
      refine ⟨suite, tmp, hlength, hsuiteNe, ?_⟩
      rw [freshKeys_some hsuite, htmp, generateB64CryptoKey_some,
        setupEncryptionKey_some hsuiteNe]
    refine ⟨fun i j hij hset => ?_, fun i j hset htag => ?_, fun i hset => ?_, fun i hset => ?_⟩
    · exact freshKeys_ne.mpr (Nat.lt_trans hij (freshKeys_ne.mp hset))
    · obtain ⟨_, _, _, _, hi⟩ := hentry i hset
      by_cases hj : (freshKeys suites fun j => generateB64CryptoKey base64 (random j))[j] = {}
      · rw [hi, hj] at htag
        exact absurd htag (tag_ne_zero i)
      · obtain ⟨_, _, _, _, hj⟩ := hentry j hj
        rw [hi, hj] at htag
        exact tag_inj i j htag
    · obtain ⟨suite, tmp, -, hne, hi⟩ := hentry i hset
      rw [hi]
      exact hne
    · obtain ⟨suite, tmp, hlength, -, hi⟩ := hentry i hset
      refine ⟨tmp.toList, ?_, ?_⟩
      · rw [hi, Vector.length_toList]
        exact hlength.symm
      · rw [hi]

/-! ## All descriptions -/

@[simp] theorem oldMd_callAfter : LocalEnv.oldMd (r.callAfter old) = old := by
  cases old <;> rfl

/-- A stream that is active and secured was so before, and has the keys that are set up. -/
theorem stream_made (hactive : ((r.made lib base64 old).stream i).active = true)
    (hsrtp : ((r.made lib base64 old).stream i).hasSrtp = true) :
    i < maxStreams ∧ (r.streamBefore lib base64 old i).active = true ∧
      (r.streamBefore lib base64 old i).hasSrtp = true ∧
      ((r.made lib base64 old).stream i).crypto =
        ((r.keyedEnv lib base64).setupEncryptionKeys (r.callAfter old) i
          (r.streamBefore lib base64 old i)).crypto := by
  rw [made, stream_localMediaDescription] at hactive hsrtp ⊢
  by_cases hi : i < maxStreams
  · rw [if_pos hi] at hactive hsrtp ⊢
    rw [LocalEnv.setup_active] at hactive
    rw [LocalEnv.setup_hasSrtp hactive] at hsrtp
    exact ⟨hi, hactive, hsrtp, LocalEnv.setup_crypto hactive⟩
  · rw [if_neg hi] at hactive
    cases hactive

theorem stream_made_of_before (hi : i < maxStreams)
    (hactive : (r.streamBefore lib base64 old i).active = true)
    (hsrtp : (r.streamBefore lib base64 old i).hasSrtp = true) :
    ((r.made lib base64 old).stream i).active = true ∧
      ((r.made lib base64 old).stream i).hasSrtp = true := by
  rw [made, stream_localMediaDescription, if_pos hi]
  exact ⟨(LocalEnv.setup_active i _).trans hactive, (LocalEnv.setup_hasSrtp hactive).trans hsrtp⟩

/-- The keys of a secured stream: those it had, or new ones. -/
theorem setupEncryptionKeys_kept {md : SalMediaDescription} (hmd : old = some md)
    (hsrtp : (r.streamBefore lib base64 old i).hasSrtp = true)
    (hkeeps : Keeps r.env.keepSrtpKeys old i) :
    ((r.keyedEnv lib base64).setupEncryptionKeys (r.callAfter old) i
        (r.streamBefore lib base64 old i)).crypto = (md.stream i).crypto := by
  obtain ⟨hkeep, md', hmd', hactive, hold⟩ := hkeeps
  obtain rfl := Option.some.inj (hmd.symm.trans hmd')
  have hfilter : ((some md).filter fun old : SalMediaDescription =>
      r.env.keepSrtpKeys && (old.stream i).active && (old.stream i).hasSrtp) = some md := by
    rw [Option.filter_some, hkeep, hactive, hold]
    rfl
  rw [LocalEnv.setupEncryptionKeys, if_pos hsrtp, oldMd_callAfter, hmd]
  rw [keyedEnv, hfilter]

theorem setupEncryptionKeys_fresh
    (hactive : (r.streamBefore lib base64 old i).active = true)
    (hsrtp : (r.streamBefore lib base64 old i).hasSrtp = true)
    (hkeeps : ¬Keeps r.env.keepSrtpKeys old i) :
    ((r.keyedEnv lib base64).setupEncryptionKeys (r.callAfter old) i
        (r.streamBefore lib base64 old i)).crypto =
      freshKeys (linphoneCoreGetSrtpCryptoSuites lib r.config) fun j =>
        generateB64CryptoKey base64 (r.random i j 30) := by
  have hfilter : (old.filter fun old : SalMediaDescription =>
      r.env.keepSrtpKeys && (old.stream i).active && (old.stream i).hasSrtp) = none := by
    rw [Option.filter_eq_none_iff]
    intro md hmd hall
    simp only [Bool.and_eq_true] at hall
    exact hkeeps ⟨hall.1.1, md, hmd, hall.1.2, hall.2⟩
  have hnew := (LocalEnv.streamAt_active hactive).2
  rw [LocalEnv.setupEncryptionKeys, if_pos hsrtp, oldMd_callAfter]
  rw [keyedEnv, hfilter]
  simp only [streamBefore, hnew, Fin.getElem_fin, Vector.getElem_replicate]
  rfl

/-- The keys a call has when a description is made: they are complete. -/
def HadComplete (base64 : Base64) (old : Option SalMediaDescription) : Prop :=
  ∀ md ∈ old, ∀ i, (md.stream i).active = true → (md.stream i).hasSrtp = true →
    KeysComplete base64 (md.stream i).crypto

/-- One description. -/
theorem keysSetUp_of_offersKeys (hold : HadComplete base64 old)
    (h : OffersKeys lib base64 old r) : KeysSetUp lib base64 old r where
  complete i hactive hsrtp := by
    obtain ⟨hi, hbefore, hsecured, hcrypto⟩ := stream_made hactive hsrtp
    rw [hcrypto]
    by_cases hkeeps : Keeps r.env.keepSrtpKeys old i
    · obtain ⟨-, md, hmd, hmdActive, hmdSrtp⟩ := id hkeeps
      rw [setupEncryptionKeys_kept hmd hsecured hkeeps]
      exact hold md hmd i hmdActive hmdSrtp
    · rw [setupEncryptionKeys_fresh hbefore hsecured hkeeps]
      exact (keysComplete_freshKeys fun suite => ne_invalid_of_mem).mpr
        (h i hi hbefore hsecured hkeeps)
  kept i hactive hsrtp hkeeps md hmd := by
    obtain ⟨-, -, hsecured, hcrypto⟩ := stream_made hactive hsrtp
    rw [hcrypto, setupEncryptionKeys_kept hmd hsecured hkeeps]

theorem offersKeys_of_keysSetUp (h : KeysSetUp lib base64 old r) :
    OffersKeys lib base64 old r := by
  intro i hi hbefore hsecured hkeeps
  obtain ⟨hactive, hsrtp⟩ := stream_made_of_before hi hbefore hsecured
  have hcomplete := h.complete i hactive hsrtp
  obtain ⟨-, -, -, hcrypto⟩ := stream_made hactive hsrtp
  rw [hcrypto, setupEncryptionKeys_fresh hbefore hsecured hkeeps] at hcomplete
  exact (keysComplete_freshKeys fun suite => ne_invalid_of_mem).mp hcomplete

theorem localdescAfter_concat :
    localdescAfter lib base64 (before ++ [r]) =
      some (r.edit (r.made lib base64 (localdescAfter lib base64 before))) := by
  rw [localdescAfter, List.foldl_append]
  rfl

/-- All descriptions of a call whose requests offer keys. -/
theorem hadComplete_localdescAfter
    (h : ∀ before r, before ++ [r] <+: rs → OffersKeys lib base64
      (localdescAfter lib base64 before) r) :
    ∀ before, before <+: rs → HadComplete base64 (localdescAfter lib base64 before) := by
  intro before
  induction before using List.reverseRecOn with
  | nil => exact fun _ md hmd => by cases hmd
  | append_singleton before r ih =>
    intro hprefix
    rw [localdescAfter_concat]
    intro md hmd i hactive hsrtp
    obtain rfl := Option.some.inj hmd
    obtain ⟨hactive, hsrtp, hsame⟩ := r.edit_keys _ i hactive hsrtp
    rw [hsame]
    exact (keysSetUp_of_offersKeys (ih ((List.prefix_append before [r]).trans hprefix))
      (h before r hprefix)).complete i hactive hsrtp

/-- **The keys of all descriptions** of a call are complete, and kept as they were, exactly if each
time keys are made, the suites have keys of thirty bytes and there are bytes for them. -/
theorem description_keys_iff (lib : CryptoLib) (base64 : Base64) (rs : List DescriptionRequest) :
    (∀ before r, before ++ [r] <+: rs →
        KeysSetUp lib base64 (localdescAfter lib base64 before) r) ↔
      ∀ before r, before ++ [r] <+: rs →
        OffersKeys lib base64 (localdescAfter lib base64 before) r := by
  constructor
  · intro h before r hprefix
    exact offersKeys_of_keysSetUp (h before r hprefix)
  · intro h before r hprefix
    refine keysSetUp_of_offersKeys ?_ (h before r hprefix)
    exact hadComplete_localdescAfter h before ((List.prefix_append before [r]).trans hprefix)

/-! ## The suites by default -/

/-- The suites of the default configuration by their names. -/
def defaultSuites : CryptoLib where
  buildFromNameParams name _ :=
    if name = "AES_CM_128_HMAC_SHA1_80".toList then .aes128Sha1_80
    else if name = "AES_CM_128_HMAC_SHA1_32".toList then .aes128Sha1_32
    else if name = "AES_CM_256_HMAC_SHA1_80".toList then .aes256Sha1_80
    else if name = "AES_CM_256_HMAC_SHA1_32".toList then .aes256Sha1_32
    else .invalid
  storeInt n := .ofInt n

/-- The character of six bits. -/
def base64Digit (n : Nat) : Char :=
  "ABCDEFGHIJKLMNOPQRSTUVWXYZabcdefghijklmnopqrstuvwxyz0123456789+/".toList.getD n '='

/-- Three bytes at a time. -/
def base64Encode : List UInt8 → List Char
  | [] => []
  | [a] => [base64Digit (a.toNat / 4), base64Digit (a.toNat % 4 * 16), '=', '=']
  | [a, b] =>
      [base64Digit (a.toNat / 4), base64Digit (a.toNat % 4 * 16 + b.toNat / 16),
       base64Digit (b.toNat % 16 * 4), '=']
  | a :: b :: c :: s =>
      base64Digit (a.toNat / 4) :: base64Digit (a.toNat % 4 * 16 + b.toNat / 16) ::
        base64Digit (b.toNat % 16 * 4 + c.toNat / 64) :: base64Digit (c.toNat % 64) ::
        base64Encode s

theorem length_base64Encode : ∀ s, (base64Encode s).length = 4 * ((s.length + 2) / 3)
  | [] => rfl
  | [_] => by simp only [base64Encode, List.length_cons, List.length_nil]
  | [_, _] => by simp only [base64Encode, List.length_cons, List.length_nil]
  | _ :: _ :: _ :: s => by
    have hrest := length_base64Encode s
    simp only [base64Encode, List.length_cons, hrest]
    omega

/-- A first call with SRTP, in the default configuration. -/
def firstSecured : DescriptionRequest where
  env := { audio := { rtpPort := 7078 } }
  call := { mediaEncryption := .srtp }
  config := ∅
  random _ _ _ := some (Vector.replicate _ 0)
  edit_keys _ _ hactive hsrtp := ⟨hactive, hsrtp, rfl⟩

/-- The third entry has a suite of 256 bits, and a key of thirty bytes. -/
theorem long_suite_short_key :
    let md := firstSecured.made defaultSuites ⟨base64Encode, length_base64Encode⟩ none
    (md.stream 0).active = true ∧ (md.stream 0).hasSrtp = true ∧
      (md.stream 0).crypto[2].algo = .aes256Sha1_80 ∧
      (md.stream 0).crypto[2].masterKey = String.ofList (base64Encode (List.replicate 30 0)) ∧
      ¬KeysSetUp defaultSuites ⟨base64Encode, length_base64Encode⟩ none firstSecured := by
  refine ⟨by decide +kernel, by decide +kernel, by decide +kernel, by decide +kernel, fun h => ?_⟩
  have hoffers := offersKeys_of_keysSetUp h 0 (by decide) (by decide +kernel) (by decide +kernel)
    (fun hkeeps => by obtain ⟨-, md, hmd, -⟩ := hkeeps; cases hmd) 2 (by decide) .aes256Sha1_80
    (by decide +kernel)
  exact absurd hoffers.1 (by decide)

end DescriptionRequest

end Linphone
