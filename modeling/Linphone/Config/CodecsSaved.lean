import Linphone.Config.Codecs
import Mathlib.Data.List.Forall2

/-!
# Codecs written and read back

`_linphone_core_codec_config_write` numbers the codecs of both lists and writes a section for each,
with the channels of the audio codecs and the receive parameters of the video codecs; the section
after the last one is removed. What a section held besides is left in it.

`codecs_config_law`: the codecs that are read back are those that were written exactly if no
default codec is found for two of them, which is so for codecs that differ in mime type, rate or
channels.
-/

namespace Linphone

/-! ## Writing -/

/-- The section of a codec. -/
def writeCodec (config : LpConfig) (type : SalStreamType) (index : Nat) (pt : PayloadType) :
    LpConfig :=
  let key := codecKey type index
  let config := config.setString key "mime" (some pt.mimeType)
  let config := config.setInt key "rate" pt.clockRate
  if type = .audio then
    let config := config.setInt key "channels" pt.channels
    config.setInt key "enabled" (if pt.flags.enabled then 1 else 0)
  else
    let config := config.setInt key "enabled" (if pt.flags.enabled then 1 else 0)
    config.setString key "recv_fmtp" pt.recvFmtp

/-- One of the loops of `_linphone_core_codec_config_write`, from an index on. -/
def writeCodecs (type : SalStreamType) : LpConfig → Nat → List PayloadType → LpConfig
  | config, index, [] => config.cleanSection (codecKey type index)
  | config, index, pt :: node => writeCodecs type (writeCodec config type index pt) (index + 1) node

/-- `_linphone_core_codec_config_write` of a core that is ready. -/
def codecConfigWrite (config : LpConfig) (audioCodecs videoCodecs : List PayloadType) : LpConfig :=
  writeCodecs .video (writeCodecs .audio config 0 audioCodecs) 0 videoCodecs

/-- The entry of a codec that was written over a configuration. -/
def writtenEntry (config : LpConfig) (type : SalStreamType) (index : Nat) (pt : PayloadType) :
    CodecEntry where
  mime := pt.mimeType
  rate := pt.clockRate
  fmtp :=
    if type = .audio then config.getString (codecKey type index) "recv_fmtp"
    else (LpValue.ofOption pt.recvFmtp).map Subtype.val
  channels :=
    if type = .audio then pt.channels else config.getInt (codecKey type index) "channels" 0
  enabled := pt.flags.enabled

variable {codecSupported : String → Bool} {config config' : LpConfig} {type type' : SalStreamType}
  {i j : Nat} {pt w it : PayloadType} {codecs : List PayloadType} {sec key : String}

theorem getString_writeCodec_ne (h : sec ≠ codecKey type i) :
    (writeCodec config type i pt).getString sec key = config.getString sec key := by
  have hne : ∀ k, ¬(sec = codecKey type i ∧ key = k) := fun _ hsame => h hsame.1
  unfold writeCodec
  split
  · simp only [LpConfig.getString_setInt, LpConfig.getString_setString, if_neg (hne _)]
  · simp only [LpConfig.getString_setInt, LpConfig.getString_setString, if_neg (hne _)]

theorem getString_writeCodecs_ne (h : ∀ k, i ≤ k → sec ≠ codecKey type k) :
    (writeCodecs type config i codecs).getString sec key = config.getString sec key := by
  induction codecs generalizing config i with
  | nil => rw [writeCodecs, LpConfig.getString_cleanSection, if_neg (h i (Nat.le_refl i))]
  | cons pt codecs ih =>
    rw [writeCodecs, ih fun k hk => h k (by omega),
      getString_writeCodec_ne (h i (Nat.le_refl i))]

theorem codecEntry_congr
    (h : ∀ key, config'.getString (codecKey type i) key = config.getString (codecKey type i) key) :
    codecEntry config' type i = codecEntry config type i := by
  have hint := fun key d => LpConfig.getInt_congr (h key) d
  simp only [codecEntry, h, hint]

theorem writtenEntry_congr
    (h : ∀ key, config'.getString (codecKey type i) key = config.getString (codecKey type i) key) :
    writtenEntry config' type i pt = writtenEntry config type i pt := by
  have hint := fun key d => LpConfig.getInt_congr (h key) d
  simp only [writtenEntry, h, hint]

/-- What is read of a section that was written. -/
theorem codecEntry_writeCodec (hmime : pt.mimeType ≠ "") :
    codecEntry (writeCodec config type i pt) type i = some (writtenEntry config type i pt) := by
  have hlength : pt.mimeType.toList.length ≠ 0 := by
    intro h
    exact hmime (String.toList_inj.mp (List.length_eq_zero_iff.mp h))
  have hread : (LpValue.ofOption (some pt.mimeType)).map Subtype.val = some pt.mimeType := by
    rw [LpConfig.map_ofOption_some, if_pos hmime]
  by_cases htype : type = .audio
  · simp [codecEntry, writeCodec, writtenEntry, htype, LpConfig.getString_setInt,
      LpConfig.getInt_setInt, LpConfig.getString_setString, hread, hlength]
  · simp [codecEntry, writeCodec, writtenEntry, htype, LpConfig.getString_setInt,
      LpConfig.getInt_setInt, LpConfig.getString_setString, LpConfig.getInt_setString_ne, hread,
      hlength]

/-- **What is read of the sections that were written.** -/
theorem codecEntry_writeCodecs (hmime : ∀ w ∈ codecs, w.mimeType ≠ "") (hj : j ≤ codecs.length) :
    codecEntry (writeCodecs type config i codecs) type (i + j) =
      codecs[j]?.map (writtenEntry config type (i + j)) := by
  induction codecs generalizing config i j with
  | nil =>
    obtain rfl : j = 0 := Nat.le_zero.mp hj
    have hnone : (writeCodecs type config i []).getString (codecKey type i) "mime" = none := by
      rw [writeCodecs, LpConfig.getString_cleanSection, if_pos rfl]
    rw [Nat.add_zero, codecEntry, hnone]
    rfl
  | cons pt codecs ih =>
    rw [writeCodecs]
    cases j with
    | zero =>
      have hkept : ∀ key,
          (writeCodecs type (writeCodec config type i pt) (i + 1) codecs).getString
              (codecKey type i) key =
            (writeCodec config type i pt).getString (codecKey type i) key := by
        intro key
        refine getString_writeCodecs_ne fun k hk hsame => ?_
        have := codecKey_inj hsame
        omega
      show codecEntry _ type i = some (writtenEntry config type i pt)
      rw [codecEntry_congr hkept, codecEntry_writeCodec (hmime pt List.mem_cons_self)]
    | succ j =>
      have hrest : codecEntry (writeCodecs type (writeCodec config type i pt) (i + 1) codecs) type
            (i + 1 + j) =
          codecs[j]?.map (writtenEntry (writeCodec config type i pt) type (i + 1 + j)) :=
        ih (fun w hw => hmime w (List.mem_cons_of_mem _ hw)) (Nat.le_of_succ_le_succ hj)
      have hold : ∀ w, writtenEntry (writeCodec config type i pt) type (i + (j + 1)) w =
          writtenEntry config type (i + (j + 1)) w := by
        intro w
        refine writtenEntry_congr fun key => getString_writeCodec_ne fun hsame => ?_
        have := codecKey_inj hsame
        omega
      rw [show i + 1 + j = i + (j + 1) by omega] at hrest
      rw [hrest, List.getElem?_cons_succ]
      exact congrArg (fun f => Option.map f codecs[j]?) (funext hold)

theorem codecKey_ne (h : type = .audio ↔ type' ≠ .audio) (i j : Nat) :
    codecKey type i ≠ codecKey type' j := by
  intro hsame
  have hhead := congrArg (fun s => (String.toList s).head?) hsame
  simp only [codecKey, String.toList_append, List.head?_append] at hhead
  have haudio : ∀ rest, "audio_codec_".toList.head?.or rest = some 'a' := fun _ => rfl
  have hvideo : ∀ rest, "video_codec_".toList.head?.or rest = some 'v' := fun _ => rfl
  by_cases htype : type = .audio
  · rw [if_pos htype, if_neg (h.mp htype), haudio, hvideo] at hhead
    exact absurd hhead (by decide)
  · rw [if_neg htype, if_pos (by simpa [htype] using h), haudio, hvideo] at hhead
    exact absurd hhead (by decide)

/-! ## The entries that are read -/

variable {entries : List CodecEntry} {finds : List (CodecEntry × Option Nat)}
  {defaultList defaultList' : List PayloadType} {e : CodecEntry}

theorem codecEntriesFrom_eq {fuel : Nat} (hfuel : entries.length < fuel)
    (h : ∀ j ≤ entries.length, codecEntry config type (i + j) = entries[j]?) :
    codecEntriesFrom config type fuel i = entries := by
  induction entries generalizing fuel i with
  | nil =>
    cases fuel with
    | zero => rfl
    | succ fuel =>
      have hnone : codecEntry config type i = none := h 0 (Nat.le_refl 0)
      rw [codecEntriesFrom, hnone]
  | cons e entries ih =>
    cases fuel with
    | zero => exact absurd hfuel (Nat.not_lt_zero _)
    | succ fuel =>
      have hhere : codecEntry config type i = some e := h 0 (Nat.zero_le _)
      rw [codecEntriesFrom, hhere]
      refine congrArg (e :: ·) (ih (Nat.lt_of_succ_lt_succ hfuel) fun j hj => ?_)
      rw [show i + 1 + j = i + (j + 1) by omega]
      exact h (j + 1) (Nat.succ_le_succ hj)

theorem codecEntries_eq
    (h : ∀ j ≤ entries.length, codecEntry config type j = entries[j]?) :
    codecEntries config type = entries := by
  refine codecEntriesFrom_eq ?_ fun j hj => by rw [Nat.zero_add, h j hj]
  obtain ⟨i, hi, hstop⟩ := exists_no_codecEntry config type
  by_contra hlength
  have hsome := h i (by omega)
  rw [hstop, List.getElem?_eq_getElem (by omega)] at hsome
  cases hsome

/-- An entry with what the writer stores of a codec. -/
structure Stored (type : SalStreamType) (w : PayloadType) (e : CodecEntry) : Prop where
  mime : e.mime = w.mimeType
  rate : e.rate = w.clockRate
  enabled : e.enabled = w.flags.enabled
  channels : type = .audio → e.channels = w.channels
  fmtp : type ≠ .audio → ∀ fmtp, w.recvFmtp = some fmtp → fmtp ≠ "" → e.fmtp = some fmtp

theorem stored_writtenEntry (config : LpConfig) (type : SalStreamType) (i : Nat)
    (w : PayloadType) : Stored type w (writtenEntry config type i w) where
  mime := rfl
  rate := rfl
  enabled := rfl
  channels htype := if_pos htype
  fmtp htype fmtp hfmtp hne := by
    rw [writtenEntry, if_neg htype, hfmtp, LpConfig.map_ofOption_some, if_pos hne]

/-- The entries of a written configuration. -/
theorem stored_codecEntries (hmime : ∀ w ∈ codecs, w.mimeType ≠ "")
    (h : ∀ i key, config'.getString (codecKey type i) key =
      (writeCodecs type config 0 codecs).getString (codecKey type i) key) :
    List.Forall₂ (Stored type) codecs (codecEntries config' type) := by
  have hentries : codecEntries config' type = codecs.mapIdx (writtenEntry config type) := by
    refine codecEntries_eq fun j hj => ?_
    rw [List.length_mapIdx] at hj
    have hwritten : codecEntry (writeCodecs type config 0 codecs) type (0 + j) =
        codecs[j]?.map (writtenEntry config type (0 + j)) := codecEntry_writeCodecs hmime hj
    rw [Nat.zero_add] at hwritten
    rw [codecEntry_congr (h j), hwritten, List.getElem?_mapIdx]
  rw [hentries, List.forall₂_iff_get]
  refine ⟨(List.length_mapIdx).symm, fun j hj hj' => ?_⟩
  rw [List.get_eq_getElem, List.get_eq_getElem, List.getElem_mapIdx]
  exact stored_writtenEntry config type j codecs[j]

theorem stored_audio (videoCodecs : List PayloadType) (hmime : ∀ w ∈ codecs, w.mimeType ≠ "") :
    List.Forall₂ (Stored .audio) codecs
      (codecEntries (codecConfigWrite config codecs videoCodecs) .audio) :=
  stored_codecEntries hmime fun i _ =>
    getString_writeCodecs_ne fun k _ => codecKey_ne (by decide) i k

theorem stored_video (audioCodecs : List PayloadType) (hmime : ∀ w ∈ codecs, w.mimeType ≠ "") :
    List.Forall₂ (Stored .video) codecs
      (codecEntries (codecConfigWrite config audioCodecs codecs) .video) :=
  stored_codecEntries hmime fun _ _ => rfl

/-! ## Reading back -/

/-- A codec the configuration can hold: the mime type is not empty and supported, a rate and a
number of channels that would fit any are not. -/
structure Storable (codecSupported : String → Bool) (type : SalStreamType) (w : PayloadType) :
    Prop where
  mime : w.mimeType ≠ ""
  supported : codecSupported w.mimeType = true
  rate : 0 < w.clockRate
  channels : type = .audio → 0 < w.channels

/-- A codec that was read back. -/
structure Restored (type : SalStreamType) (w it : PayloadType) : Prop where
  mime : strcasecmp w.mimeType it.mimeType = true
  rate : it.clockRate = w.clockRate
  enabled : it.flags.enabled = w.flags.enabled
  channels : type = .audio → it.channels = w.channels
  fmtp : type ≠ .audio → ∀ fmtp, w.recvFmtp = some fmtp → fmtp ≠ "" → it.recvFmtp = some fmtp

/-- What `find_payload` compares is not the same. -/
def ToldApart (type : SalStreamType) (w w' : PayloadType) : Prop :=
  strcasecmp w.mimeType w'.mimeType = true → w.clockRate = w'.clockRate →
    (type = .audio → w.channels = w'.channels) → False

/-- The codecs are read back in order. -/
def ReadBack (type : SalStreamType) (defaultList' : List PayloadType)
    (finds : List (CodecEntry × Option Nat)) (codecs : List PayloadType) : Prop :=
  List.Forall₂ (fun w pt => ∃ it, defaultList'[pt]? = some it ∧ Restored type w it) codecs
    (configuredCodecs finds)

theorem Stored.fits (h : Stored type w e) (hw : Storable codecSupported type w)
    (hfits : e.fits it = true) :
    strcasecmp w.mimeType it.mimeType = true ∧ it.clockRate = w.clockRate ∧
      (type = .audio → it.channels = w.channels) := by
  rw [CodecEntry.fits, Bool.and_eq_true, Bool.and_eq_true, h.mime, h.rate] at hfits
  obtain ⟨⟨hmime, hrate⟩, hchannels⟩ := hfits
  refine ⟨hmime, ?_, fun htype => ?_⟩
  · have hpos := hw.rate
    rw [Bool.or_eq_true, beq_iff_eq, decide_eq_true_eq] at hrate
    omega
  · have hpos := hw.channels htype
    rw [Bool.or_eq_true, beq_iff_eq, decide_eq_true_eq, h.channels htype] at hchannels
    omega

theorem foldl_codecAppendIfNew_eq {codecs found : List Nat} (h : (codecs ++ found).Nodup) :
    found.foldl codecAppendIfNew codecs = codecs ++ found := by
  induction found generalizing codecs with
  | nil => rw [List.append_nil]; rfl
  | cons pt found ih =>
    have hpt : pt ∉ codecs := fun hmem =>
      (List.nodup_append.mp h).2.2 pt hmem pt List.mem_cons_self rfl
    rw [List.append_cons] at h
    rw [List.foldl_cons, codecAppendIfNew, if_neg hpt, ih h, List.append_assoc]
    rfl

theorem nodup_of_length_configuredCodecs
    (h : (configuredCodecs finds).length = (finds.filterMap Prod.snd).length) :
    (finds.filterMap Prod.snd).Nodup := by
  have hsub : configuredCodecs finds ⊆ finds.filterMap Prod.snd := by
    intro pt hpt
    exact (((foldl_codecAppendIfNew List.nodup_nil _).2 pt).mp hpt).resolve_left List.not_mem_nil
  have hperm := ((nodup_configuredCodecs finds).subperm hsub).perm_of_length_le h.ge
  exact hperm.nodup_iff.mp (nodup_configuredCodecs finds)

/-- An entry whose codec no other one found keeps what it asked for. -/
theorem Configured.kept (h : Configured codecSupported defaultList defaultList' finds)
    (hnodup : (finds.filterMap Prod.snd).Nodup) {x : CodecEntry × Option Nat} (hx : x ∈ finds)
    {n : Nat} (hn : x.2 = some n) :
    ∃ it, defaultList'[n]? = some it ∧ x.1.fits it = true ∧ it.flags.enabled = x.1.enabled ∧
      ∀ fmtp, x.1.fmtp = some fmtp → it.recvFmtp = some fmtp := by
  obtain ⟨e, found⟩ := x
  obtain rfl : found = some n := hn
  obtain ⟨done, later, rfl⟩ := List.append_of_mem hx
  have hsplit : (done ++ (e, some n) :: later).filterMap Prod.snd =
      done.filterMap Prod.snd ++ n :: later.filterMap Prod.snd := by simp
  rw [hsplit] at hnodup
  have hlater : ∀ x ∈ later, x.2 ≠ some n := by
    intro x hx hsame
    exact (List.nodup_cons.mp (List.nodup_append.mp hnodup).2.1).1
      (List.mem_filterMap.mpr ⟨x, hx, hsame⟩)
  obtain ⟨it, hit, henabled, hfmtp⟩ := h.last done e n later rfl hlater
  obtain ⟨it', hit', hfits⟩ := h.found (e, some n) hx n rfl
  obtain rfl := Option.some.inj (hit.symm.trans hit')
  exact ⟨it, hit, hfits, henabled, hfmtp⟩

/-- Entry by entry, what is found for it. -/
theorem forall₂_found {α : Type} {S : α → CodecEntry → Prop} {R : α → Nat → Prop} {l : List α}
    (h : List.Forall₂ S l (finds.map Prod.fst))
    (hfound : ∀ x ∈ finds, ∀ a, S a x.1 → ∃ pt, x.2 = some pt ∧ R a pt) :
    List.Forall₂ R l (finds.filterMap Prod.snd) := by
  induction finds generalizing l with
  | nil =>
    cases h
    exact .nil
  | cons x finds ih =>
    cases h with
    | cons hhead htail =>
      obtain ⟨pt, hpt, hr⟩ := hfound x List.mem_cons_self _ hhead
      rw [List.filterMap_cons_some hpt]
      exact .cons hr (ih htail fun y hy => hfound y (List.mem_cons_of_mem _ hy))

theorem Stored.found (h : Stored type w e) (hw : Storable codecSupported type w)
    (hconfigured : Configured codecSupported defaultList defaultList' finds) {found : Option Nat}
    (hx : (e, found) ∈ finds) : ∃ pt, found = some pt := by
  refine Option.ne_none_iff_exists'.mp fun hnone => ?_
  have hunsupported := (hconfigured.supported _ hx).mp hnone
  rw [h.mime, hw.supported] at hunsupported
  cases hunsupported

/-- **The codecs are read back** if no default codec is found for two of them. -/
theorem readBack_iff (hstored : List.Forall₂ (Stored type) codecs (finds.map Prod.fst))
    (hstorable : ∀ w ∈ codecs, Storable codecSupported type w)
    (h : Configured codecSupported defaultList defaultList' finds) :
    ReadBack type defaultList' finds codecs ↔ (finds.filterMap Prod.snd).Nodup := by
  have hboth := (List.forall₂_and_left _ _).mpr ⟨hstorable, hstored⟩
  constructor
  · intro hread
    refine nodup_of_length_configuredCodecs ?_
    have hfound : List.Forall₂ (fun _ _ => True) codecs (finds.filterMap Prod.snd) := by
      refine forall₂_found hboth fun x hx w hw => ?_
      obtain ⟨pt, hpt⟩ := hw.2.found hw.1 h hx
      exact ⟨pt, hpt, trivial⟩
    rw [← hread.length_eq, hfound.length_eq]
  · intro hnodup
    rw [ReadBack, configuredCodecs, foldl_codecAppendIfNew_eq hnodup, List.nil_append]
    refine forall₂_found hboth fun x hx w hw => ?_
    obtain ⟨pt, hpt⟩ := hw.2.found hw.1 h hx
    obtain ⟨it, hit, hfits, henabled, hfmtp⟩ := h.kept hnodup hx hpt
    obtain ⟨hmime, hrate, hchannels⟩ := hw.2.fits hw.1 hfits
    exact ⟨pt, hpt, it, hit, hmime, hrate, henabled.trans hw.2.enabled, hchannels,
      fun htype fmtp hf hne => hfmtp fmtp (hw.2.fmtp htype fmtp hf hne)⟩

theorem pairwise_of_forall₂ {α β : Type} {R : α → β → Prop} {P : α → α → Prop} {Q : β → β → Prop}
    {l : List α} {l' : List β} (h : List.Forall₂ R l l') (hl : l.Pairwise P)
    (hq : ∀ a b a' b', R a a' → R b b' → P a b → Q a' b') : l'.Pairwise Q := by
  induction h with
  | nil => exact .nil
  | @cons a a' l l' ha hrest ih =>
    obtain ⟨hhead, htail⟩ := List.pairwise_cons.mp hl
    refine List.pairwise_cons.mpr ⟨fun b' hb' => ?_, ih htail⟩
    obtain ⟨n, hn, rfl⟩ := List.getElem_of_mem hb'
    have hn' : n < l.length := hrest.length_eq ▸ hn
    exact hq a l[n] a' l'[n] ha (hrest.get hn' hn) (hhead _ (List.getElem_mem hn'))

/-- Codecs that are told apart are not found twice. -/
theorem nodup_of_toldApart (hstored : List.Forall₂ (Stored type) codecs (finds.map Prod.fst))
    (hstorable : ∀ w ∈ codecs, Storable codecSupported type w)
    (hconfigured : Configured codecSupported defaultList defaultList' finds)
    (h : codecs.Pairwise (ToldApart type)) : (finds.filterMap Prod.snd).Nodup := by
  have hboth := (List.forall₂_and_left _ _).mpr ⟨hstorable, hstored⟩
  have hfound : List.Forall₂ (fun w pt => ∃ it, defaultList'[pt]? = some it ∧
      strcasecmp w.mimeType it.mimeType = true ∧ it.clockRate = w.clockRate ∧
        (type = .audio → it.channels = w.channels)) codecs (finds.filterMap Prod.snd) := by
    refine forall₂_found hboth fun x hx w hw => ?_
    obtain ⟨pt, hpt⟩ := hw.2.found hw.1 hconfigured hx
    obtain ⟨it, hit, hfits⟩ := hconfigured.found x hx pt hpt
    exact ⟨pt, hpt, it, hit, hw.2.fits hw.1 hfits⟩
  refine pairwise_of_forall₂ hfound h fun w w' pt pt' hw hw' hapart hsame => ?_
  subst hsame
  obtain ⟨it, hit, hmime, hrate, hchannels⟩ := hw
  obtain ⟨it', hit', hmime', hrate', hchannels'⟩ := hw'
  obtain rfl := Option.some.inj (hit.symm.trans hit')
  refine hapart ?_ (hrate.symm.trans hrate') fun htype =>
    (hchannels htype).symm.trans (hchannels' htype)
  rw [strcasecmp, beq_iff_eq] at hmime hmime' ⊢
  exact hmime.trans hmime'.symm

theorem map_fst_findEntries (codecSupported : String → Bool) (type : SalStreamType)
    (defaultList : List PayloadType) (entries : List CodecEntry) :
    (findEntries codecSupported type defaultList entries).1.map Prod.fst = entries := by
  induction entries generalizing defaultList with
  | nil => rfl
  | cons e entries ih => exact congrArg (e :: ·) (ih _)

/-! ## The configuration of the codecs -/

/-- What is found for the entries of a configuration. -/
def foundEntries (codecSupported : String → Bool) (config : LpConfig) (type : SalStreamType)
    (defaultList : List PayloadType) : List (CodecEntry × Option Nat) × List PayloadType :=
  findEntries codecSupported type defaultList (codecEntries config type)

/-- A list of codecs that was read, with the missing ones. -/
def ReadList (codecSupported : String → Bool) (config : LpConfig) (type : SalStreamType)
    (defaultList defaultList' codecs : List PayloadType) : Prop :=
  let (finds, after) := foundEntries codecSupported config type defaultList
  defaultList' = after ∧ ∃ l, codecs = l.filterMap (defaultList'[·]?) ∧
    CodecList codecSupported defaultList defaultList' finds l

/-- Codecs that were written are read back exactly if no default codec is found for two of them,
and so if they are told apart. -/
def RoundTrip (codecSupported : String → Bool) (config : LpConfig) (type : SalStreamType)
    (defaultList codecs : List PayloadType) : Prop :=
  (∀ w ∈ codecs, Storable codecSupported type w) →
    let (finds, after) := foundEntries codecSupported config type defaultList
    (ReadBack type after finds codecs ↔ (finds.filterMap Prod.snd).Nodup) ∧
      (codecs.Pairwise (ToldApart type) → (finds.filterMap Prod.snd).Nodup)

theorem roundTrip_of_stored (h : (∀ w ∈ codecs, w.mimeType ≠ "") →
    List.Forall₂ (Stored type) codecs (codecEntries config type)) :
    RoundTrip codecSupported config type defaultList codecs := by
  intro hstorable
  have hstored := h fun w hw => (hstorable w hw).mime
  rw [← map_fst_findEntries codecSupported type defaultList (codecEntries config type)] at hstored
  have hconfigured :=
    findEntries_configured codecSupported type defaultList (codecEntries config type)
  exact ⟨readBack_iff hstored hstorable hconfigured,
    nodup_of_toldApart hstored hstorable hconfigured⟩

/-- **The lists of codecs**: with the missing codecs added, each is what the configuration asks for
with the order of the defaults merged in; and codecs that are written are read back, unless one
default codec is found for two of them. -/
theorem codecs_config_law (codecSupported : String → Bool) (config : LpConfig)
    (defaultAudioCodecs defaultVideoCodecs : List PayloadType) :
    (addsMissing config .audio = true → addsMissing config .video = true →
      ∃ conf defaultAudioCodecs' defaultVideoCodecs',
        codecsConfigRead codecSupported config defaultAudioCodecs defaultVideoCodecs =
            some (conf, defaultAudioCodecs', defaultVideoCodecs') ∧
          ReadList codecSupported config .audio defaultAudioCodecs defaultAudioCodecs'
            conf.audioCodecs ∧
          ReadList codecSupported config .video defaultVideoCodecs defaultVideoCodecs'
            conf.videoCodecs) ∧
      ∀ audioCodecs videoCodecs,
        let written := codecConfigWrite config audioCodecs videoCodecs
        RoundTrip codecSupported written .audio defaultAudioCodecs audioCodecs ∧
          RoundTrip codecSupported written .video defaultVideoCodecs videoCodecs := by
  constructor
  · intro haudio hvideo
    obtain ⟨audio, hreadAudio, hlistAudio⟩ :=
      readCodecs_merged codecSupported .audio defaultAudioCodecs haudio
    obtain ⟨video, hreadVideo, hlistVideo⟩ :=
      readCodecs_merged codecSupported .video defaultVideoCodecs hvideo
    refine ⟨⟨96, config.getInt "misc" "telephone_event_pt" 101, _, _⟩, _, _, ?_,
      ⟨rfl, audio, rfl, hlistAudio⟩, ⟨rfl, video, rfl, hlistVideo⟩⟩
    rw [codecsConfigRead, hreadAudio, hreadVideo]
    rfl
  · intro audioCodecs videoCodecs
    exact ⟨roundTrip_of_stored (stored_audio videoCodecs),
      roundTrip_of_stored (stored_video audioCodecs)⟩

/-- A codec that is not supported is passed over. -/
theorem unsupported_codec :
    let codecSupported : String → Bool := fun mime => mime ≠ "G729"
    let codecs : List PayloadType := [{ mimeType := "G729", clockRate := 8000, channels := 1 }]
    let written := codecConfigWrite ∅ codecs []
    readCodecs codecSupported written .audio [] = some ([], []) ∧
      ¬ReadBack .audio (foundEntries codecSupported written .audio []).2
        (foundEntries codecSupported written .audio []).1 codecs := by
  intro codecSupported codecs written
  have hread : readCodecs codecSupported written .audio [] = some ([], []) := by decide +kernel
  have hconfigured :
      configuredCodecs (foundEntries codecSupported written .audio []).1 = [] := by
    decide +kernel
  refine ⟨hread, fun hback => ?_⟩
  rw [ReadBack, hconfigured] at hback
  exact absurd hback.length_eq (by decide)

end Linphone
