import Linphone.Sal.Dtls
import Linphone.Lib.Scan
import Mathlib.Data.List.Induction

/-!
# Crypto lines

`sdp_parse_media_crypto_parameters` of `bellesip_sal/sal_sdp.c` reads the `a=crypto` lines of an
m-line into the crypto entries of a stream. Its buffers, and the entry it is filling, are shared by
all lines. A line without session parameters is then read with those of an earlier line, and a
line that is refused leaves its tag behind; a word of 256 characters is one too long for its
buffer, which is undefined (`none`).

`crypto_lines_apart_iff`: for which lines none of this shows, so that each line gives the entry it
would give alone.
-/

namespace Linphone

/-- What reading a crypto line uses of mediastreamer and of the platform. -/
structure CryptoLib where
  /-- `ms_crypto_suite_build_from_name_params` -/
  buildFromNameParams : List Char → Option (List Char) → MSCryptoSuite
  /-- What `%d` stores for a number. -/
  storeInt : Int → UInt32

/-! ## One line -/

/-- What `sscanf` converts of `%d %256s inline:%256s %256s`, up to the first failure. -/
structure CryptoScan where
  tag : Option Int := none
  name : Option (List Char) := none
  key : Option (List Char) := none
  parameters : Option (List Char) := none
deriving DecidableEq

/-- The characters of the format one after the other. -/
def scanLiteral : List Char → List Char → Option (List Char)
  | [], s => some s
  | c :: format, s => (Scan.literal c s).bind (scanLiteral format)

/-- `sscanf(value, "%d %256s inline:%256s %256s", ...)` -/
def scanCrypto (value : List Char) : CryptoScan :=
  match Scan.number value with
  | none => {}
  | some (tag, s) =>
    match Scan.word 256 s with
    | none => { tag := some tag }
    | some (name, s) =>
      match scanLiteral "inline:".toList (s.dropWhile Scan.isSpace) with
      | none => { tag := some tag, name := some name }
      | some s =>
        match Scan.word 256 s with
        | none => { tag := some tag, name := some name }
        | some (key, s) =>
          { tag := some tag, name := some name, key := some key
            parameters := (Scan.word 256 s).map Prod.fst }

/-- The line of an attribute; nothing is read of any other. -/
def cryptoLine (att : SdpAttribute) : CryptoScan :=
  if att.name = "crypto" then
    match att.value with
    | some value => scanCrypto value.toList
    | none => {}
  else {}

namespace CryptoScan

variable (line : CryptoScan)

/-- The words are shorter than their buffers. -/
def Fits : Prop :=
  ∀ w ∈ line.name.toList ++ line.key.toList ++ line.parameters.toList, w.length < 256

instance : Decidable line.Fits := inferInstanceAs (Decidable (∀ w ∈ _, _))

/-- The key that is kept: as much as fits, up to the first bar. -/
def masterKey (key : List Char) : String := String.ofList ((key.take 127).takeWhile (· ≠ '|'))

/-- The suite of a line, when the buffer holds these parameters. -/
def suite (lib : CryptoLib) (name parameters : List Char) : MSCryptoSuite :=
  lib.buildFromNameParams name (if parameters = [] then none else some parameters)

/-- The entry of a line, when the buffer holds these parameters after it was read. -/
def entry (lib : CryptoLib) (parameters : List Char) : Option SalSrtpCryptoAlgo :=
  match line.tag, line.name, line.key with
  | some tag, some name, some key =>
    if suite lib name parameters = .invalid then none
    else
      some { tag := lib.storeInt tag, algo := suite lib name parameters
             masterKey := masterKey key }
  | _, _, _ => none

end CryptoScan

/-! ## The loop -/

/-- The variables of the loop. The entries stored so far are a list; `next` is the one that follows
them. -/
structure CryptoState where
  valid : List SalSrtpCryptoAlgo := []
  next : SalSrtpCryptoAlgo := {}
  parameters : List Char := []

/-- `stream->crypto` -/
def CryptoState.crypto (s : CryptoState) (i : Nat) : SalSrtpCryptoAlgo :=
  (s.valid ++ [s.next])[i]?.getD {}

variable (lib : CryptoLib)

/-- One attribute, while there is an entry left. -/
def cryptoStep (s : CryptoState) (att : SdpAttribute) : Option CryptoState :=
  if cryptoAlgoMax ≤ s.valid.length then some s
  else
    let line := cryptoLine att
    if line.Fits then
      let next := { s.next with tag := (line.tag.map lib.storeInt).getD s.next.tag }
      let parameters := line.parameters.getD s.parameters
      match line.entry lib parameters with
      | some entry => some { valid := s.valid ++ [entry], next := {}, parameters := parameters }
      | none => some { s with next := next, parameters := parameters }
    else none

/-- `sdp_parse_media_crypto_parameters` -/
def sdpParseMediaCryptoParameters (attributes : List SdpAttribute) : Option CryptoState :=
  attributes.foldlM (cryptoStep lib) {}

/-- The entry a line gives by itself. -/
def entryAlone (att : SdpAttribute) : Option SalSrtpCryptoAlgo :=
  (cryptoLine att).entry lib ((cryptoLine att).parameters.getD [])

/-- Each line gives the entry it gives by itself, whatever is around it, and nothing is behind the
last one. -/
structure CryptoLinesApart (attributes : List SdpAttribute) : Prop where
  alone : ∀ before line after, attributes = before ++ line :: after →
    ∃ s s', sdpParseMediaCryptoParameters lib before = some s ∧ cryptoStep lib s line = some s' ∧
      (s.valid.length < cryptoAlgoMax → s'.valid = s.valid ++ (entryAlone lib line).toList)
  rest : ∀ s, sdpParseMediaCryptoParameters lib attributes = some s →
    ∀ i, s.valid.length ≤ i → i < cryptoAlgoMax →
      (s.crypto i).tag = 0 ∧ (s.crypto i).algo = .invalid

/-! ## Lines that do not mix -/

/-- The entries of lines, one by one. -/
def entriesAlone (attributes : List SdpAttribute) : List SalSrtpCryptoAlgo :=
  attributes.filterMap (entryAlone lib)

/-- The session parameters stated last. -/
def lastParameters (attributes : List SdpAttribute) : List Char :=
  ((attributes.filterMap fun a => (cryptoLine a).parameters).getLast?).getD []

/-- The tag of the last line behind the entries that gives none. -/
def trailingTag (attributes : List SdpAttribute) : UInt32 :=
  attributes.foldl (fun tag a =>
    if (entryAlone lib a).isSome then 0
    else (((cryptoLine a).tag.map lib.storeInt).getD tag)) 0

/-- A line without session parameters has the same suite with those stated before it. -/
def SuiteKept (before : List SdpAttribute) (line : CryptoScan) : Prop :=
  ∀ name ∈ line.name, line.key.isSome → line.parameters = none →
    CryptoScan.suite lib name (lastParameters before) = CryptoScan.suite lib name []

/-- What lines have to be like, as far as they are read. -/
structure CryptoLinesUnmixed (attributes : List SdpAttribute) : Prop where
  fits : ∀ before line after, attributes = before ++ line :: after →
    (entriesAlone lib before).length < cryptoAlgoMax → (cryptoLine line).Fits
  suite : ∀ before line after, attributes = before ++ line :: after →
    (entriesAlone lib before).length < cryptoAlgoMax → SuiteKept lib before (cryptoLine line)
  tag : (entriesAlone lib attributes).length < cryptoAlgoMax → trailingTag lib attributes = 0

/-! ## Reading line after line -/

section

variable {lib}
variable {before : List SdpAttribute} {line : SdpAttribute}

/-- A key comes with what is in front of it. -/
theorem cryptoLine_key (h : (cryptoLine line).key.isSome) :
    ∃ tag name, (cryptoLine line).tag = some tag ∧ (cryptoLine line).name = some name := by
  unfold cryptoLine scanCrypto at *
  split at h
  · split at h
    · rename_i hname _ _ _
      simp only [hname, if_true]
      revert h
      split
      · intro h
        cases h
      · split
        · intro h
          cases h
        · split
          · intro h
            cases h
          · split
            · intro h
              cases h
            · exact fun _ => ⟨_, _, rfl, rfl⟩
    · cases h
  · cases h

theorem entry_eq_iff {scan : CryptoScan} {tag : Int} {name key a b : List Char}
    (htag : scan.tag = some tag) (hname : scan.name = some name) (hkey : scan.key = some key) :
    scan.entry lib a = scan.entry lib b ↔
      CryptoScan.suite lib name a = CryptoScan.suite lib name b := by
  unfold CryptoScan.entry
  rw [htag, hname, hkey]
  dsimp only
  constructor
  · intro h
    split at h
    · rename_i ha
      split at h
      · rename_i hb
        rw [ha, hb]
      · cases h
    · split at h
      · cases h
      · exact congrArg SalSrtpCryptoAlgo.algo (Option.some.inj h)
  · intro h
    rw [h]

/-- What the buffer holds matters to a line only if it changes the suite. -/
theorem entryAlone_iff :
    (cryptoLine line).entry lib ((cryptoLine line).parameters.getD (lastParameters before)) =
        entryAlone lib line ↔ SuiteKept lib before (cryptoLine line) := by
  unfold entryAlone SuiteKept
  cases hparameters : (cryptoLine line).parameters with
  | some parameters => exact iff_of_true rfl fun _ _ _ h => by cases h
  | none =>
    cases hkey : (cryptoLine line).key with
    | none =>
      refine iff_of_true ?_ fun _ _ h => by cases h
      unfold CryptoScan.entry
      rw [hkey]
      cases (cryptoLine line).tag <;> cases (cryptoLine line).name <;> rfl
    | some key =>
      obtain ⟨tag, name, htag, hname⟩ := @cryptoLine_key line (by rw [hkey]; rfl)
      rw [Option.getD_none, Option.getD_none, entry_eq_iff htag hname hkey]
      simp [hname]

theorem entriesAlone_concat (before : List SdpAttribute) (line : SdpAttribute) :
    entriesAlone lib (before ++ [line]) =
      entriesAlone lib before ++ (entryAlone lib line).toList := by
  rw [entriesAlone, List.filterMap_append]
  cases h : entryAlone lib line <;> simp [entriesAlone, h]

theorem lastParameters_concat (before : List SdpAttribute) (line : SdpAttribute) :
    lastParameters (before ++ [line]) =
      (cryptoLine line).parameters.getD (lastParameters before) := by
  rw [lastParameters, List.filterMap_append]
  cases h : (cryptoLine line).parameters <;> simp [lastParameters, h]

theorem trailingTag_concat (before : List SdpAttribute) (line : SdpAttribute) :
    trailingTag lib (before ++ [line]) =
      if (entryAlone lib line).isSome then 0
      else ((cryptoLine line).tag.map lib.storeInt).getD (trailingTag lib before) := by
  rw [trailingTag, List.foldl_append]
  rfl

/-- There is an entry left when the lines so far are read. -/
def EntryLeft (lib : CryptoLib) (before : List SdpAttribute) : Prop :=
  (entriesAlone lib before).length < cryptoAlgoMax

theorem EntryLeft.of_concat (h : EntryLeft lib (before ++ [line])) : EntryLeft lib before := by
  unfold EntryLeft at h ⊢
  rw [entriesAlone_concat, List.length_append] at h
  omega

/-- A line that is read as it is by itself. -/
def CryptoLineKept (lib : CryptoLib) (before : List SdpAttribute) (line : SdpAttribute) : Prop :=
  EntryLeft lib before → (cryptoLine line).Fits ∧ SuiteKept lib before (cryptoLine line)

/-- The state after lines that are all read as they are. -/
def stateAfter (lib : CryptoLib) (before : List SdpAttribute) : CryptoState where
  valid := entriesAlone lib before
  next := { tag := trailingTag lib before }
  parameters := lastParameters before

/-- **One line**: the step is the one the line makes by itself exactly when it is kept. -/
theorem cryptoStep_stateAfter (hleft : EntryLeft lib before) :
    ((cryptoLine line).Fits ∧ SuiteKept lib before (cryptoLine line) →
      cryptoStep lib (stateAfter lib before) line = some (stateAfter lib (before ++ [line]))) ∧
    ∀ s, cryptoStep lib (stateAfter lib before) line = some s →
      s.valid = entriesAlone lib before ++ (entryAlone lib line).toList →
      (cryptoLine line).Fits ∧ SuiteKept lib before (cryptoLine line) := by
  have hopen : ¬cryptoAlgoMax ≤ (stateAfter lib before).valid.length := Nat.not_le.mpr hleft
  have hstep : cryptoStep lib (stateAfter lib before) line =
      if (cryptoLine line).Fits then
        match (cryptoLine line).entry lib
            ((cryptoLine line).parameters.getD (lastParameters before)) with
        | some entry =>
          some ⟨entriesAlone lib before ++ [entry], {},
            (cryptoLine line).parameters.getD (lastParameters before)⟩
        | none =>
          some ⟨entriesAlone lib before,
            { tag := ((cryptoLine line).tag.map lib.storeInt).getD (trailingTag lib before) },
            (cryptoLine line).parameters.getD (lastParameters before)⟩
      else none := by
    unfold cryptoStep
    rw [if_neg hopen]
    rfl
  rw [hstep]
  constructor
  · rintro ⟨hfits, hkept⟩
    rw [if_pos hfits, entryAlone_iff.mpr hkept]
    unfold stateAfter
    rw [entriesAlone_concat, lastParameters_concat, trailingTag_concat]
    cases entryAlone lib line with
    | some entry => rfl
    | none =>
      rw [Option.toList_none, List.append_nil]
      rfl
  · intro s hs hvalid
    split at hs
    · rename_i hfits
      refine ⟨hfits, entryAlone_iff.mp ?_⟩
      cases hentry : (cryptoLine line).entry lib
          ((cryptoLine line).parameters.getD (lastParameters before)) with
      | some entry =>
        rw [hentry] at hs
        obtain rfl := Option.some.inj hs
        have hsame := List.append_cancel_left hvalid
        cases halone : entryAlone lib line with
        | none =>
          rw [halone] at hsame
          cases hsame
        | some entry' =>
          rw [halone] at hsame
          rw [(List.cons.inj hsame).1]
      | none =>
        rw [hentry] at hs
        obtain rfl := Option.some.inj hs
        cases halone : entryAlone lib line with
        | none => rfl
        | some entry =>
          rw [halone] at hvalid
          simp at hvalid
    · cases hs

theorem parse_concat (before : List SdpAttribute) (line : SdpAttribute) :
    sdpParseMediaCryptoParameters lib (before ++ [line]) =
      (sdpParseMediaCryptoParameters lib before).bind fun s => cryptoStep lib s line := by
  rw [sdpParseMediaCryptoParameters, List.foldlM_append]
  simp [sdpParseMediaCryptoParameters]

/-- **Lines that are all kept** leave the state they should, until there is no entry left. -/
theorem parse_of_kept {lines : List SdpAttribute}
    (h : ∀ before line after, lines = before ++ line :: after → CryptoLineKept lib before line) :
    ∃ s, sdpParseMediaCryptoParameters lib lines = some s ∧
      (EntryLeft lib lines → s = stateAfter lib lines) ∧
      (¬EntryLeft lib lines → cryptoAlgoMax ≤ s.valid.length) := by
  induction lines using List.reverseRecOn with
  | nil => exact ⟨{}, rfl, fun _ => rfl, fun hfull => absurd (by decide : 0 < 4) hfull⟩
  | append_singleton lines line ih =>
    obtain ⟨s, hs, hleft, hfull⟩ := ih fun before line' after hsplit =>
      h before line' (after ++ [line]) (by rw [hsplit, List.append_assoc, List.cons_append])
    rw [parse_concat, hs, Option.bind_some]
    by_cases hentry : EntryLeft lib lines
    · obtain rfl := hleft hentry
      have hkept := h lines line [] rfl hentry
      refine ⟨_, (cryptoStep_stateAfter hentry).1 hkept, fun _ => rfl, fun hnone => ?_⟩
      exact Nat.not_lt.mp hnone
    · have hmax := hfull hentry
      refine ⟨s, ?_, fun hl => absurd hl.of_concat hentry, fun _ => hmax⟩
      unfold cryptoStep
      rw [if_pos hmax]

end

variable {attributes : List SdpAttribute}

theorem CryptoLinesUnmixed.kept (h : CryptoLinesUnmixed lib attributes) :
    ∀ before line after, attributes = before ++ line :: after → CryptoLineKept lib before line :=
  fun before line after hsplit hleft =>
    ⟨h.fits before line after hsplit hleft, h.suite before line after hsplit hleft⟩

/-- Lines that are apart are kept, one after the other. -/
theorem CryptoLinesApart.kept (h : CryptoLinesApart lib attributes) :
    ∀ before line after, attributes = before ++ line :: after → CryptoLineKept lib before line := by
  suffices hall : ∀ before after, attributes = before ++ after →
      ∀ b line a, before = b ++ line :: a → CryptoLineKept lib b line by
    exact fun before line after hsplit => hall (before ++ [line]) after (by simp [hsplit]) before
      line [] rfl
  intro before
  induction before using List.reverseRecOn with
  | nil =>
    intro after _ b line a hsplit
    exact absurd hsplit (by simp)
  | append_singleton before last ih =>
    intro after hattributes b line a hsplit
    have hbefore := ih (last :: after) (by simp [hattributes])
    rcases List.eq_nil_or_concat a with rfl | ⟨a', last', rfl⟩
    · -- the line in question is the last one
      obtain ⟨rfl, hlast⟩ := List.append_inj' hsplit rfl
      obtain rfl := List.singleton_inj.mp hlast
      intro hleft
      obtain ⟨s, hs, hstate, -⟩ := parse_of_kept hbefore
      obtain ⟨s₁, s₂, hs₁, hstep, hvalid⟩ := h.alone before last after (by simp [hattributes])
      obtain rfl : s₁ = stateAfter lib before :=
        (Option.some.inj (hs₁.symm.trans hs)).trans (hstate hleft)
      exact (cryptoStep_stateAfter hleft).2 s₂ hstep (hvalid hleft)
    · have hconcat : before ++ [last] = (b ++ line :: a') ++ [last'] := by
        rw [hsplit, List.concat_eq_append, List.append_assoc, List.cons_append]
      exact hbefore b line a' (List.append_inj' hconcat rfl).1

/-- What is behind the entries. -/
theorem rest_stateAfter_iff (hleft : EntryLeft lib attributes) :
    (∀ i, (stateAfter lib attributes).valid.length ≤ i → i < cryptoAlgoMax →
      ((stateAfter lib attributes).crypto i).tag = 0 ∧
        ((stateAfter lib attributes).crypto i).algo = .invalid) ↔
      trailingTag lib attributes = 0 := by
  have hnext : (stateAfter lib attributes).crypto (stateAfter lib attributes).valid.length =
      { tag := trailingTag lib attributes } := by
    simp [CryptoState.crypto, stateAfter]
  constructor
  · intro h
    have htag := (h _ (Nat.le_refl _) hleft).1
    rw [hnext] at htag
    exact htag
  · intro h i hi _
    rcases Nat.eq_or_lt_of_le hi with rfl | hlt
    · rw [hnext]
      exact ⟨h, rfl⟩
    · have hnone : (stateAfter lib attributes).crypto i = {} := by
        unfold CryptoState.crypto
        rw [List.getElem?_eq_none]
        · rfl
        · rw [List.length_append, List.length_singleton]
          exact hlt
      rw [hnone]
      exact ⟨rfl, rfl⟩

/-- **Crypto lines are read each for itself exactly when they do not mix**: as far as they are read,
their words fit into the buffers, a line without session parameters has the suite it would have
with the last ones stated before it, and no tag but zero comes behind the last entry. -/
theorem crypto_lines_apart_iff (attributes : List SdpAttribute) :
    CryptoLinesApart lib attributes ↔ CryptoLinesUnmixed lib attributes := by
  constructor
  · intro h
    refine ⟨fun before line after hsplit hleft => (h.kept lib before line after hsplit hleft).1,
      fun before line after hsplit hleft => (h.kept lib before line after hsplit hleft).2,
      fun hleft => ?_⟩
    obtain ⟨s, hs, hstate, -⟩ := parse_of_kept (h.kept lib)
    obtain rfl := hstate hleft
    exact (rest_stateAfter_iff lib hleft).mp (h.rest _ hs)
  · intro h
    refine ⟨fun before line after hsplit => ?_, fun s hs => ?_⟩
    · obtain ⟨s, hs, hstate, hfull⟩ := @parse_of_kept _ before
        fun b line' a hb => h.kept lib b line' (a ++ line :: after) (by simp [hsplit, hb])
      by_cases hleft : EntryLeft lib before
      · obtain rfl := hstate hleft
        have hkept := h.kept lib before line after hsplit hleft
        exact ⟨_, _, hs, (cryptoStep_stateAfter hleft).1 hkept,
          fun _ => entriesAlone_concat before line⟩
      · have hmax := hfull hleft
        refine ⟨s, s, hs, ?_, fun hlt => absurd hmax (Nat.not_le.mpr hlt)⟩
        unfold cryptoStep
        rw [if_pos hmax]
    · obtain ⟨s', hs', hstate, hfull⟩ := parse_of_kept (h.kept lib)
      obtain rfl := Option.some.inj (hs.symm.trans hs')
      by_cases hleft : EntryLeft lib attributes
      · obtain rfl := hstate hleft
        exact (rest_stateAfter_iff lib hleft).mpr (h.tag hleft)
      · intro i hi hlt
        exact absurd (Nat.le_trans (hfull hleft) hi) (Nat.not_le.mpr hlt)

/-! ## Parameters of another line -/

/-- One suite, with its unencrypted variant. -/
def plainCryptoLib : CryptoLib where
  buildFromNameParams _ parameters := if parameters.isSome then .noCipherSha1_80 else .aes128Sha1_80
  storeInt n := UInt32.ofInt n

/-- The second line states no session parameters, and is read as unencrypted like the first. -/
theorem parameters_of_another_line :
    ¬CryptoLinesApart plainCryptoLib
      [{ name := "crypto", value := some "1 AES_CM_128_HMAC_SHA1_80 inline:a UNENCRYPTED_SRTP" },
        { name := "crypto", value := some "2 AES_CM_128_HMAC_SHA1_80 inline:b" }] := by
  intro h
  obtain ⟨s, s', hs, hstep, hvalid⟩ := h.alone [_] _ [] rfl
  have hboth : ∀ s', sdpParseMediaCryptoParameters plainCryptoLib
      [{ name := "crypto", value := some "1 AES_CM_128_HMAC_SHA1_80 inline:a UNENCRYPTED_SRTP" },
        { name := "crypto", value := some "2 AES_CM_128_HMAC_SHA1_80 inline:b" }] = some s' →
      s'.valid.map (·.algo) = [.noCipherSha1_80, .noCipherSha1_80] := by
    decide +kernel
  have hfirst : ∀ s, sdpParseMediaCryptoParameters plainCryptoLib
      [{ name := "crypto", value := some "1 AES_CM_128_HMAC_SHA1_80 inline:a UNENCRYPTED_SRTP" }] =
        some s → s.valid.length = 1 := by
    decide +kernel
  have halone : (entryAlone plainCryptoLib
      { name := "crypto", value := some "2 AES_CM_128_HMAC_SHA1_80 inline:b" }).toList.map
        (·.algo) = [.aes128Sha1_80] := by
    decide +kernel
  have hlength := hfirst s hs
  have halgos := hboth s' ((parse_concat [_] _).trans (by rw [hs, Option.bind_some, hstep]))
  rw [hvalid (by rw [hlength]; decide), List.map_append, halone] at halgos
  have hlast := congrArg List.getLast? halgos
  rw [List.getLast?_concat] at hlast
  cases hlast

end Linphone
