import Linphone.Config.LpConfig
import Linphone.Lib.Merge
import Linphone.Sal.Description

/-!
# The codecs of the configuration

`codecs_config_read` of `coreapi/linphonecore.c` builds the list of codecs from the numbered
sections of the configuration: each entry is looked for among the default codecs, not too strictly,
and one that is not found becomes a default codec itself. The default codecs that no entry asked
for are then added, each after the one in front of it.

A codec of the list stands for its place in the list of defaults, which is only added to.
`readCodecs_merged`: the list is the configured codecs with the order of the defaults merged in.
-/

namespace Linphone

/-! ## Reading -/

/-- `"%s_codec_%i"` -/
def codecKey (type : SalStreamType) (index : Nat) : String :=
  (if type = .audio then "audio_codec_" else "video_codec_") ++
    String.ofList (Scan.decimal (index : Int))

/-- What `get_codec` reads of a section. -/
structure CodecEntry where
  mime : String
  rate : Int
  fmtp : Option String
  channels : Int
  enabled : Bool
deriving DecidableEq

/-- The beginning of `get_codec`: a section without a mime type is none. -/
def codecEntry (config : LpConfig) (type : SalStreamType) (index : Nat) : Option CodecEntry :=
  let codeckey := codecKey type index
  match config.getString codeckey "mime" with
  | none => none
  | some mime =>
    if mime.toList.length = 0 then none
    else some
      { mime := mime
        rate := config.getInt codeckey "rate" 8000
        fmtp := config.getString codeckey "recv_fmtp"
        channels := config.getInt codeckey "channels" 0
        enabled := config.getInt codeckey "enabled" 1 ≠ 0 }

/-- What `find_payload` compares first; a rate or a number of channels that is not positive fits
any. -/
def CodecEntry.fits (e : CodecEntry) (it : PayloadType) : Bool :=
  strcasecmp e.mime it.mimeType && (e.rate == it.clockRate || decide (e.rate ≤ 0)) &&
    (e.channels == it.channels || decide (e.channels ≤ 0))

/-- An exact match. -/
def CodecEntry.sameFmtp (e : CodecEntry) (it : PayloadType) : Bool :=
  match e.fmtp, it.recvFmtp with
  | some recvFmtp, some fmtp => (Scan.strstr fmtp.toList recvFmtp.toList).isSome
  | none, none => true
  | _, _ => false

/-- The loop of `find_payload`, from a place of the list on and with a candidate. -/
def findPayloadFrom (e : CodecEntry) : Nat → Option Nat → List PayloadType → Option Nat
  | _, candidate, [] => candidate
  | i, candidate, it :: elem =>
    if e.fits it then
      if e.sameFmtp it then some i
      else
        findPayloadFrom e (i + 1)
          (if candidate.isNone || it.recvFmtp.isNone then some i else candidate) elem
    else findPayloadFrom e (i + 1) candidate elem

/-- `find_payload`, which gives the codec it finds the receive parameters it looked for. -/
def findPayload (e : CodecEntry) (defaultList : List PayloadType) : Option Nat × List PayloadType :=
  match findPayloadFrom e 0 none defaultList, e.fmtp with
  | some i, some recvFmtp =>
    (some i, defaultList.modify i fun it => { it with recvFmtp := some recvFmtp })
  | found, _ => (found, defaultList)

/-- `PAYLOAD_AUDIO_PACKETIZED` and `PAYLOAD_VIDEO` -/
def payloadKind (type : SalStreamType) : Nat := if type = .audio then 1 else 2

/-- The codec of an entry that is not in the default list. -/
def CodecEntry.payload (e : CodecEntry) (type : SalStreamType) : PayloadType :=
  { type := payloadKind type, mimeType := e.mime, clockRate := e.rate, channels := e.channels,
    number := -1, recvFmtp := e.fmtp }

def PayloadType.setEnabled (pt : PayloadType) (enabled : Bool) : PayloadType :=
  { pt with flags := { pt.flags with enabled := enabled } }

/-- The end of `get_codec`, with `ms_filter_codec_supported`. -/
def takeEntry (codecSupported : String → Bool) (type : SalStreamType) (e : CodecEntry)
    (defaultList : List PayloadType) : Option Nat × List PayloadType :=
  if codecSupported e.mime then
    match findPayload e defaultList with
    | (some pt, defaultList) => (some pt, defaultList.modify pt (·.setEnabled e.enabled))
    | (none, defaultList) =>
      (some defaultList.length, defaultList ++ [(e.payload type).setEnabled e.enabled])
  else (none, defaultList)

/-- `get_codec` -/
def getCodec (codecSupported : String → Bool) (config : LpConfig) (type : SalStreamType)
    (index : Nat) (defaultList : List PayloadType) : Option (Option Nat × List PayloadType) :=
  (codecEntry config type index).map fun e => takeEntry codecSupported type e defaultList

/-- `codec_append_if_new` -/
def codecAppendIfNew (l : List Nat) (pt : Nat) : List Nat := if pt ∈ l then l else l ++ [pt]

/-- `add_missing_codecs` -/
def addMissingCodecs (defaultList : List PayloadType) (l : List Nat) : Option (List Nat) :=
  Merge.addMissing none (List.range defaultList.length) l

/-- The loop of `codecs_config_read` for one type, with fuel. -/
def readCodecsFrom (codecSupported : String → Bool) (config : LpConfig) (type : SalStreamType) :
    Nat → Nat → List PayloadType → List Nat → Option (List PayloadType × List Nat)
  | 0, _, _, _ => none
  | fuel + 1, i, defaultList, codecs =>
    match getCodec codecSupported config type i defaultList with
    | none => some (defaultList, codecs)
    | some (pt, defaultList) =>
      readCodecsFrom codecSupported config type fuel (i + 1) defaultList
        (match pt with
          | some pt => codecAppendIfNew codecs pt
          | none => codecs)

/-- Whether missing codecs are added. -/
def addsMissing (config : LpConfig) (type : SalStreamType) : Bool :=
  config.getInt "misc" (if type = .audio then "add_missing_audio_codecs"
    else "add_missing_video_codecs") 1 = 1

/-- What `codecs_config_read` does for one type. The loop ends, as a configuration has only so many
sections. -/
def readCodecs (codecSupported : String → Bool) (config : LpConfig) (type : SalStreamType)
    (defaultList : List PayloadType) : Option (List PayloadType × List Nat) :=
  match readCodecsFrom codecSupported config type (config.keys.length + 1) 0 defaultList [] with
  | none => none
  | some (defaultList, codecs) =>
    if addsMissing config type then (addMissingCodecs defaultList codecs).map (defaultList, ·)
    else some (defaultList, codecs)

/-- `codecs_config_t` -/
structure CodecsConf where
  dynPt : Int := 0
  telephoneEventPt : Int := 0
  audioCodecs : List PayloadType := []
  videoCodecs : List PayloadType := []

/-- `codecs_config_read`, with the default lists before and after. -/
def codecsConfigRead (codecSupported : String → Bool) (config : LpConfig)
    (defaultAudioCodecs defaultVideoCodecs : List PayloadType) :
    Option (CodecsConf × List PayloadType × List PayloadType) := do
  let (defaultAudioCodecs, audioCodecs) ←
    readCodecs codecSupported config .audio defaultAudioCodecs
  let (defaultVideoCodecs, videoCodecs) ←
    readCodecs codecSupported config .video defaultVideoCodecs
  some
    ({ dynPt := 96
       telephoneEventPt := config.getInt "misc" "telephone_event_pt" 101
       audioCodecs := audioCodecs.filterMap (defaultAudioCodecs[·]?)
       videoCodecs := videoCodecs.filterMap (defaultVideoCodecs[·]?) },
      defaultAudioCodecs, defaultVideoCodecs)

/-! ## The entries of a configuration -/

/-- The entries up to the first section without one. -/
def codecEntriesFrom (config : LpConfig) (type : SalStreamType) : Nat → Nat → List CodecEntry
  | 0, _ => []
  | fuel + 1, i =>
    match codecEntry config type i with
    | none => []
    | some e => e :: codecEntriesFrom config type fuel (i + 1)

def codecEntries (config : LpConfig) (type : SalStreamType) : List CodecEntry :=
  codecEntriesFrom config type (config.keys.length + 1) 0

/-- The entries with the codec found for each, and the defaults that remain. -/
def findEntries (codecSupported : String → Bool) (type : SalStreamType) :
    List PayloadType → List CodecEntry → List (CodecEntry × Option Nat) × List PayloadType
  | defaultList, [] => ([], defaultList)
  | defaultList, e :: entries =>
    let (found, defaultList) := takeEntry codecSupported type e defaultList
    let (finds, defaultList) := findEntries codecSupported type defaultList entries
    ((e, found) :: finds, defaultList)

/-- The codecs in the order they are found first. -/
def configuredCodecs (finds : List (CodecEntry × Option Nat)) : List Nat :=
  (finds.filterMap Prod.snd).foldl codecAppendIfNew []

/-! ## The loop ends -/

variable {codecSupported : String → Bool} {config : LpConfig} {type : SalStreamType}
  {defaultList defaultList' : List PayloadType} {e : CodecEntry}

theorem codecKey_inj {i j : Nat} (h : codecKey type i = codecKey type j) : i = j := by
  have hlist := congrArg String.toList h
  rw [codecKey, codecKey, String.toList_append, String.toList_append] at hlist
  have hdecimal := List.append_cancel_left hlist
  rw [String.toList_ofList, String.toList_ofList] at hdecimal
  exact Int.ofNat_inj.mp (Scan.decimal_inj hdecimal)

theorem mem_keys_of_codecEntry {i : Nat} (h : codecEntry config type i ≠ none) :
    codecKey type i ∈ config.keys := by
  rw [← AList.mem_keys, ← AList.lookup_isSome]
  cases hlookup : config.lookup (codecKey type i) with
  | none =>
    refine absurd ?_ h
    have hstring : config.getString (codecKey type i) "mime" = none := by
      rw [LpConfig.getString, hlookup]
    rw [codecEntry, hstring]
  | some s => rfl

/-- There are not as many entries as sections and one more. -/
theorem exists_no_codecEntry (config : LpConfig) (type : SalStreamType) :
    ∃ i < config.keys.length + 1, codecEntry config type i = none := by
  by_contra hall
  push Not at hall
  have hnodup : ((List.range (config.keys.length + 1)).map (codecKey type)).Nodup :=
    List.nodup_range.map fun _ _ => codecKey_inj
  have hsub : (List.range (config.keys.length + 1)).map (codecKey type) ⊆ config.keys := by
    intro key hkey
    obtain ⟨i, hi, rfl⟩ := List.mem_map.mp hkey
    exact mem_keys_of_codecEntry (hall i (List.mem_range.mp hi))
  have hlength := (hnodup.subperm hsub).length_le
  rw [List.length_map, List.length_range] at hlength
  omega

theorem readCodecsFrom_eq {fuel i j : Nat} (hij : i ≤ j) (hj : j < i + fuel)
    (hstop : codecEntry config type j = none) (codecs : List Nat) :
    readCodecsFrom codecSupported config type fuel i defaultList codecs =
      some ((findEntries codecSupported type defaultList (codecEntriesFrom config type fuel i)).2,
        ((findEntries codecSupported type defaultList
          (codecEntriesFrom config type fuel i)).1.filterMap Prod.snd).foldl
            codecAppendIfNew codecs) := by
  induction fuel generalizing i defaultList codecs with
  | zero => omega
  | succ fuel ih =>
    rw [readCodecsFrom, codecEntriesFrom, getCodec]
    cases hentry : codecEntry config type i with
    | none => rfl
    | some e =>
      have hne : i ≠ j := by
        rintro rfl
        rw [hstop] at hentry
        cases hentry
      have hrest : ∀ l cs, readCodecsFrom codecSupported config type fuel (i + 1) l cs =
          some ((findEntries codecSupported type l (codecEntriesFrom config type fuel (i + 1))).2,
            ((findEntries codecSupported type l
              (codecEntriesFrom config type fuel (i + 1))).1.filterMap Prod.snd).foldl
                codecAppendIfNew cs) :=
        fun l cs => ih (by omega) (by omega) cs
      cases htake : takeEntry codecSupported type e defaultList with
      | mk found defaultList' =>
        simp only [Option.map_some, htake, hrest, findEntries]
        cases found with
        | none => rfl
        | some pt => rfl

theorem readCodecs_loop (codecSupported : String → Bool) (config : LpConfig)
    (type : SalStreamType) (defaultList : List PayloadType) :
    readCodecsFrom codecSupported config type (config.keys.length + 1) 0 defaultList [] =
      some ((findEntries codecSupported type defaultList (codecEntries config type)).2,
        configuredCodecs
          (findEntries codecSupported type defaultList (codecEntries config type)).1) := by
  obtain ⟨j, hj, hstop⟩ := exists_no_codecEntry config type
  exact readCodecsFrom_eq (Nat.zero_le j) (by omega) hstop []

/-! ## One entry -/

/-- What an entry leaves of a codec. -/
def PayloadType.SameCodec (it it' : PayloadType) : Prop :=
  it'.mimeType = it.mimeType ∧ it'.clockRate = it.clockRate ∧ it'.channels = it.channels

theorem PayloadType.SameCodec.fits {it it' : PayloadType} (h : it.SameCodec it') :
    e.fits it' = e.fits it := by
  obtain ⟨hmime, hrate, hchannels⟩ := h
  rw [CodecEntry.fits, CodecEntry.fits, hmime, hrate, hchannels]

theorem findPayloadFrom_some {elem : List PayloadType} {i k : Nat} {candidate : Option Nat}
    (h : findPayloadFrom e i candidate elem = some k) :
    candidate = some k ∨ ∃ j it, k = i + j ∧ elem[j]? = some it ∧ e.fits it = true := by
  induction elem generalizing i candidate with
  | nil => exact Or.inl h
  | cons it elem ih =>
    have hlater : ∀ candidate', findPayloadFrom e (i + 1) candidate' elem = some k →
        candidate' = some k ∨
          ∃ j it', k = i + j ∧ (it :: elem)[j]? = some it' ∧ e.fits it' = true := by
      intro candidate' hrest
      rcases ih hrest with hcandidate | ⟨j, it', hk, hit', hfits⟩
      · exact Or.inl hcandidate
      · exact Or.inr ⟨j + 1, it', by omega, hit', hfits⟩
    rw [findPayloadFrom] at h
    split at h
    · next hfits =>
      have hhere : some i = some k → ∃ j it', k = i + j ∧ (it :: elem)[j]? = some it' ∧
          e.fits it' = true := fun hi => ⟨0, it, (Option.some.inj hi).symm, rfl, hfits⟩
      split at h
      · exact Or.inr (hhere h)
      · rcases hlater _ h with hcandidate | hfound
        · split at hcandidate
          · exact Or.inr (hhere hcandidate)
          · exact Or.inl hcandidate
        · exact Or.inr hfound
    · exact hlater _ h

/-- What becomes of the defaults with one entry, and what is found for it. -/
structure Taken (codecSupported : String → Bool) (e : CodecEntry)
    (defaultList defaultList' : List PayloadType) (found : Option Nat) : Prop where
  supported : found = none ↔ codecSupported e.mime = false
  same : ∀ k it, defaultList[k]? = some it →
    ∃ it', defaultList'[k]? = some it' ∧ it.SameCodec it' ∧ (found ≠ some k → it' = it)
  new : ∀ k < defaultList'.length, k < defaultList.length ∨ found = some k
  found : ∀ pt, found = some pt → ∃ it, defaultList'[pt]? = some it ∧ e.fits it = true ∧
    it.flags.enabled = e.enabled ∧ ∀ fmtp, e.fmtp = some fmtp → it.recvFmtp = some fmtp

/-- A codec of the defaults is changed. -/
theorem taken_modify {pt : Nat} {it : PayloadType} {f : PayloadType → PayloadType}
    (hsupported : codecSupported e.mime = true) (hit : defaultList[pt]? = some it)
    (hfits : e.fits it = true) (hf : ∀ it : PayloadType, it.SameCodec (f it))
    (henabled : (f it).flags.enabled = e.enabled)
    (hfmtp : ∀ fmtp, e.fmtp = some fmtp → (f it).recvFmtp = some fmtp) :
    Taken codecSupported e defaultList (defaultList.modify pt f) (some pt) where
  supported := by simp [hsupported]
  same k it' hk := by
    rw [List.getElem?_modify, hk]
    by_cases hpt : pt = k
    · exact ⟨f it', by simp [hpt], hf it', fun h => absurd (congrArg some hpt) h⟩
    · exact ⟨it', by simp [hpt], ⟨rfl, rfl, rfl⟩, fun _ => rfl⟩
  new k hk := Or.inl (by rwa [List.length_modify] at hk)
  found pt' hpt' := by
    obtain rfl := Option.some.inj hpt'
    refine ⟨f it, by simp [hit], ?_, henabled, hfmtp⟩
    rw [(hf it).fits]
    exact hfits

theorem strcasecmp_self (s : String) : strcasecmp s s = true := by simp [strcasecmp]

/-- **What `get_codec` does with an entry.** -/
theorem takeEntry_taken (codecSupported : String → Bool) (type : SalStreamType) (e : CodecEntry)
    (defaultList : List PayloadType) :
    Taken codecSupported e defaultList (takeEntry codecSupported type e defaultList).2
      (takeEntry codecSupported type e defaultList).1 := by
  unfold takeEntry
  by_cases hsupported : codecSupported e.mime = true
  · rw [if_pos hsupported]
    unfold findPayload
    cases hfind : findPayloadFrom e 0 none defaultList with
    | none =>
      refine ⟨by simp [hsupported], ?_, ?_, ?_⟩
      · intro k it hk
        exact ⟨it, by rw [List.getElem?_append_left (List.getElem?_eq_some_iff.mp hk).1, hk],
          ⟨rfl, rfl, rfl⟩, fun _ => rfl⟩
      · intro k hk
        rw [List.length_append, List.length_singleton] at hk
        rcases Nat.lt_or_eq_of_le (Nat.le_of_lt_succ hk) with hlt | rfl
        · exact Or.inl hlt
        · exact Or.inr rfl
      · intro pt hpt
        obtain rfl := Option.some.inj hpt
        refine ⟨(e.payload type).setEnabled e.enabled, by simp, ?_, rfl, fun _ h => h⟩
        simp [CodecEntry.fits, CodecEntry.payload, PayloadType.setEnabled, strcasecmp_self]
    | some pt =>
      rcases findPayloadFrom_some hfind with hnone | ⟨j, it, hj, hit, hfits⟩
      · cases hnone
      rw [Nat.zero_add] at hj
      subst hj
      cases hfmtp : e.fmtp with
      | none =>
        exact taken_modify hsupported hit hfits (fun _ => ⟨rfl, rfl, rfl⟩) rfl
          fun fmtp h => nomatch hfmtp.symm.trans h
      | some recvFmtp =>
        dsimp only
        rw [List.modify_modify_eq]
        exact taken_modify hsupported hit hfits (fun _ => ⟨rfl, rfl, rfl⟩) rfl
          fun fmtp h => hfmtp.symm.trans h
  · rw [if_neg hsupported]
    exact ⟨by simp [hsupported], fun k it hk => ⟨it, hk, ⟨rfl, rfl, rfl⟩, fun _ => rfl⟩,
      fun k hk => Or.inl hk, fun pt hpt => nomatch hpt⟩

/-! ## All entries -/

variable {finds : List (CodecEntry × Option Nat)}

/-- What the entries make of the defaults: every supported one has found a codec that fits, which
keeps what the last of its entries asked for; the other defaults are as they were. -/
structure Configured (codecSupported : String → Bool) (defaultList defaultList' : List PayloadType)
    (finds : List (CodecEntry × Option Nat)) : Prop where
  supported : ∀ x ∈ finds, x.2 = none ↔ codecSupported x.1.mime = false
  same : ∀ k it, defaultList[k]? = some it → ∃ it', defaultList'[k]? = some it' ∧
    it.SameCodec it' ∧ ((∀ x ∈ finds, x.2 ≠ some k) → it' = it)
  new : ∀ k < defaultList'.length, k < defaultList.length ∨ ∃ x ∈ finds, x.2 = some k
  found : ∀ x ∈ finds, ∀ pt, x.2 = some pt →
    ∃ it, defaultList'[pt]? = some it ∧ x.1.fits it = true
  last : ∀ done e pt later, finds = done ++ (e, some pt) :: later →
    (∀ x ∈ later, x.2 ≠ some pt) → ∃ it, defaultList'[pt]? = some it ∧
      it.flags.enabled = e.enabled ∧ ∀ fmtp, e.fmtp = some fmtp → it.recvFmtp = some fmtp

theorem configured_nil : Configured codecSupported defaultList defaultList [] where
  supported _ hx := nomatch hx
  same _ it hk := ⟨it, hk, ⟨rfl, rfl, rfl⟩, fun _ => rfl⟩
  new _ hk := Or.inl hk
  found _ hx := nomatch hx
  last done _ _ _ h := absurd h.symm (by simp)

theorem Configured.cons {found : Option Nat} {l : List PayloadType}
    (taken : Taken codecSupported e defaultList l found)
    (h : Configured codecSupported l defaultList' finds) :
    Configured codecSupported defaultList defaultList' ((e, found) :: finds) where
  supported x hx := by
    rcases List.mem_cons.mp hx with rfl | hx
    · exact taken.supported
    · exact h.supported x hx
  same k it hk := by
    obtain ⟨it₁, hk₁, hsame₁, hkept₁⟩ := taken.same k it hk
    obtain ⟨it₂, hk₂, hsame₂, hkept₂⟩ := h.same k it₁ hk₁
    refine ⟨it₂, hk₂, ⟨hsame₂.1.trans hsame₁.1, hsame₂.2.1.trans hsame₁.2.1,
      hsame₂.2.2.trans hsame₁.2.2⟩, fun hother => ?_⟩
    have hrest := hkept₂ fun x hx => hother x (List.mem_cons_of_mem _ hx)
    rw [hrest]
    exact hkept₁ (hother (e, found) List.mem_cons_self)
  new k hk := by
    rcases h.new k hk with hl | ⟨x, hx, hxk⟩
    · rcases taken.new k hl with hdefault | hfound
      · exact Or.inl hdefault
      · exact Or.inr ⟨(e, found), List.mem_cons_self, hfound⟩
    · exact Or.inr ⟨x, List.mem_cons_of_mem _ hx, hxk⟩
  found x hx pt hpt := by
    rcases List.mem_cons.mp hx with rfl | hx
    · obtain ⟨it, hit, hfits, -⟩ := taken.found pt hpt
      obtain ⟨it', hit', hsame, -⟩ := h.same pt it hit
      exact ⟨it', hit', hsame.fits.trans hfits⟩
    · exact h.found x hx pt hpt
  last done e' pt later heq hlater := by
    cases done with
    | nil =>
      obtain ⟨hhead, rfl⟩ := List.cons.inj heq
      obtain ⟨rfl, rfl⟩ := Prod.mk.inj hhead
      obtain ⟨it, hit, -, henabled, hfmtp⟩ := taken.found pt rfl
      obtain ⟨it', hit', -, hkept⟩ := h.same pt it hit
      rw [hkept hlater] at hit'
      exact ⟨it, hit', henabled, hfmtp⟩
    | cons x done => exact h.last done e' pt later (List.cons.inj heq).2 hlater

theorem findEntries_configured (codecSupported : String → Bool) (type : SalStreamType)
    (defaultList : List PayloadType) (entries : List CodecEntry) :
    Configured codecSupported defaultList
      (findEntries codecSupported type defaultList entries).2
      (findEntries codecSupported type defaultList entries).1 := by
  induction entries generalizing defaultList with
  | nil => exact configured_nil
  | cons e entries ih =>
    exact Configured.cons (takeEntry_taken codecSupported type e defaultList) (ih _)

/-! ## The list of codecs -/

theorem foldl_codecAppendIfNew {codecs : List Nat} (h : codecs.Nodup) (found : List Nat) :
    (found.foldl codecAppendIfNew codecs).Nodup ∧
      ∀ pt, pt ∈ found.foldl codecAppendIfNew codecs ↔ pt ∈ codecs ∨ pt ∈ found := by
  induction found generalizing codecs with
  | nil => exact ⟨h, fun pt => by simp⟩
  | cons p found ih =>
    rw [List.foldl_cons, codecAppendIfNew]
    split
    · next hp =>
      obtain ⟨hnodup, hmem⟩ := ih h
      refine ⟨hnodup, fun pt => ?_⟩
      rw [hmem, List.mem_cons]
      constructor
      · exact fun hpt => hpt.imp_right Or.inr
      · rintro (hpt | rfl | hpt)
        · exact Or.inl hpt
        · exact Or.inl hp
        · exact Or.inr hpt
    · next hp =>
      obtain ⟨hnodup, hmem⟩ := ih (List.nodup_append.mpr
        ⟨h, List.nodup_singleton p, fun a ha b hb => by
          rw [List.mem_singleton.mp hb]
          exact fun hab => hp (hab ▸ ha)⟩)
      refine ⟨hnodup, fun pt => ?_⟩
      rw [hmem, List.mem_append, List.mem_singleton, List.mem_cons, or_assoc]

theorem nodup_configuredCodecs (finds : List (CodecEntry × Option Nat)) :
    (configuredCodecs finds).Nodup := (foldl_codecAppendIfNew List.nodup_nil _).1

theorem mem_configuredCodecs {pt : Nat} :
    pt ∈ configuredCodecs finds ↔ ∃ x ∈ finds, x.2 = some pt := by
  rw [configuredCodecs, (foldl_codecAppendIfNew List.nodup_nil _).2]
  simp [List.mem_filterMap]

/-- The list of codecs for the entries of a configuration: the configured ones in the order they
are found, every default once, and one that no entry found right after its predecessor. -/
structure CodecList (codecSupported : String → Bool) (defaultList defaultList' : List PayloadType)
    (finds : List (CodecEntry × Option Nat)) (codecs : List Nat) : Prop where
  configured : Configured codecSupported defaultList defaultList' finds
  order : (configuredCodecs finds).Sublist codecs
  once : codecs.Perm (List.range defaultList'.length)
  first : 0 < defaultList'.length → (∀ x ∈ finds, x.2 ≠ some 0) → codecs.head? = some 0
  predecessor : ∀ k, k + 1 < defaultList'.length → (∀ x ∈ finds, x.2 ≠ some (k + 1)) →
    [k, k + 1] <:+: codecs

theorem CodecList.of_merged {codecs : List Nat}
    (configured : Configured codecSupported defaultList defaultList' finds)
    (h : Merge.Merged (List.range defaultList'.length) (configuredCodecs finds) codecs) :
    CodecList codecSupported defaultList defaultList' finds codecs where
  configured := configured
  order := h.kept
  once := by
    refine (List.perm_ext_iff_of_nodup h.nodup List.nodup_range).mpr fun pt => ?_
    rw [h.mem]
    constructor
    · rintro (hpt | hpt)
      · obtain ⟨x, hx, hfound⟩ := mem_configuredCodecs.mp hpt
        obtain ⟨it, hit, -⟩ := configured.found x hx pt hfound
        exact List.mem_range.mpr (List.getElem?_eq_some_iff.mp hit).1
      · exact hpt
    · exact Or.inr
  first hpos hmissing := by
    refine h.front 0 ?_ fun hpt => ?_
    · cases hlength : defaultList'.length with
      | zero => omega
      | succ n => rw [List.range_succ_eq_map]; rfl
    · obtain ⟨x, hx, hfound⟩ := mem_configuredCodecs.mp hpt
      exact hmissing x hx hfound
  predecessor k hk hmissing := by
    refine h.after k (k + 1) ?_ fun hpt => ?_
    · exact Merge.pair_infix_range hk
    · obtain ⟨x, hx, hfound⟩ := mem_configuredCodecs.mp hpt
      exact hmissing x hx hfound

/-- **The list that is read**, with the missing codecs added. -/
theorem readCodecs_merged (codecSupported : String → Bool) (type : SalStreamType)
    (defaultList : List PayloadType) (h : addsMissing config type = true) :
    ∃ codecs, readCodecs codecSupported config type defaultList =
        some ((findEntries codecSupported type defaultList (codecEntries config type)).2, codecs) ∧
      CodecList codecSupported defaultList
        (findEntries codecSupported type defaultList (codecEntries config type)).2
        (findEntries codecSupported type defaultList (codecEntries config type)).1 codecs := by
  obtain ⟨codecs, hadd, hmerged⟩ := Merge.addMissing_merged
    (nodup_configuredCodecs
      (findEntries codecSupported type defaultList (codecEntries config type)).1)
    (List.nodup_range (n := (findEntries codecSupported type defaultList
      (codecEntries config type)).2.length))
  refine ⟨codecs, ?_, CodecList.of_merged (findEntries_configured ..) hmerged⟩
  rw [readCodecs, readCodecs_loop]
  dsimp only
  rw [if_pos h, addMissingCodecs, hadd]
  rfl

end Linphone
