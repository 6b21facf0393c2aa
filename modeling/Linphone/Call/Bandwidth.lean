import Linphone.Call.PayloadNumbers
import Mathlib.Order.WithBot
import Mathlib.Algebra.Order.Monoid.Unbundled.WithTop
import Mathlib.Data.Int.ConditionallyCompleteOrder
import Mathlib.Order.ConditionallyCompleteLattice.Basic
import Mathlib.Algebra.Group.Nat.Defs

/-!
# Bandwidth of a call

What a call may send is limited by the settings, by the parameters of the call and by the peer, for
each stream or for the session. `get_ideal_audio_bw` and `get_video_bw` (`coreapi/linphonecall.c`)
divide it between the streams, and `make_codec_list` leaves out codecs that need too much.

A limit that is not positive is none. `get_min_bandwidth` keeps to that, but `bandwidth_is_greater`
takes only a negative number for none, and what is left for video when nothing is left counts as no
limit. `bandwidth_respected_iff` says for which limits the budgets are respected.
-/

namespace Linphone

/-! ## Limits -/

/-- The limit a number stands for. -/
def asLimit (n : Int) : WithTop Int := if 0 < n then (n : WithTop Int) else ⊤

/-- `get_min_bandwidth` -/
def getMinBandwidth (dbw ubw : Int) : Int :=
  if dbw ≤ 0 then ubw else if ubw ≤ 0 then dbw else min dbw ubw

/-- `bandwidth_is_greater` -/
def bandwidthIsGreater (bw1 bw2 : Int) : Bool :=
  if bw1 < 0 then true else if bw2 < 0 then false else decide (bw2 ≤ bw1)

/-- `get_remaining_bandwidth_for_video` -/
def getRemainingBandwidthForVideo (total audio : Int) : Int :=
  if total ≤ 0 then 0 else total - audio - 10

theorem asLimit_of_pos {n : Int} (h : 0 < n) : asLimit n = n := if_pos h

theorem asLimit_of_not_pos {n : Int} (h : n ≤ 0) : asLimit n = ⊤ := if_neg (Int.not_lt.mpr h)

/-- `get_min_bandwidth` is the stricter limit. -/
theorem asLimit_getMinBandwidth (dbw ubw : Int) :
    asLimit (getMinBandwidth dbw ubw) = asLimit dbw ⊓ asLimit ubw := by
  unfold getMinBandwidth
  split_ifs with hd hu
  · rw [asLimit_of_not_pos hd, top_inf_eq]
  · rw [asLimit_of_not_pos hu, inf_top_eq]
  · have hpos : 0 < dbw ∧ 0 < ubw := ⟨Int.not_le.mp hd, Int.not_le.mp hu⟩
    rw [asLimit_of_pos hpos.1, asLimit_of_pos hpos.2, asLimit_of_pos (lt_min hpos.1 hpos.2)]
    rfl

theorem asLimit_le_iff {a b : Int} : asLimit a ≤ asLimit b ↔ b ≤ 0 ∨ 0 < a ∧ a ≤ b := by
  by_cases hb : b ≤ 0
  · simp [asLimit_of_not_pos hb, hb]
  · rw [asLimit_of_pos (Int.not_le.mp hb)]
    by_cases ha : 0 < a
    · simp [asLimit_of_pos ha, ha, hb]
    · simp [asLimit_of_not_pos (Int.not_lt.mp ha), ha, hb]

/-! ## The budgets of a call -/

/-- `linphone_core_media_description_contains_video_stream` -/
def SalMediaDescription.containsVideoStream (md : SalMediaDescription) : Bool :=
  (List.range md.nbStreams).any fun i =>
    (md.stream i).type == .video && (md.stream i).rtpPort != 0

/-- What the budgets of a call depend on, beside the descriptions. -/
structure CallBandwidth where
  /-- `linphone_core_get_upload_bandwidth` -/
  uploadBandwidth : Int := 0
  /-- `default_max_bandwidth` -/
  defaultMaxBandwidth : Int := 1500
  /-- `params->up_bw` -/
  upBw : Int := 0
  audioBw : Int := 0

/-- The limit of the peer for a stream: its own or else that of the session. -/
def remoteBandwidth (md : SalMediaDescription) (desc : SalStreamDescription) : Int :=
  if 0 < desc.bandwidth then desc.bandwidth else if 0 < md.bandwidth then md.bandwidth else 0

/-- The end of `get_ideal_audio_bw`: what audio gets of a bandwidth that is shared with video. -/
def audioShare (uploadBw : Int) : Int :=
  if bandwidthIsGreater uploadBw 512 then 100
  else if bandwidthIsGreater uploadBw 256 then 64
  else if bandwidthIsGreater uploadBw 128 then 40
  else if bandwidthIsGreater uploadBw 0 then 24
  else uploadBw

namespace CallBandwidth

variable (call : CallBandwidth) (md : SalMediaDescription) (desc : SalStreamDescription)

/-- `get_ideal_audio_bw` -/
def getIdealAudioBw : Int :=
  let forced := decide (0 < call.upBw)
  let uploadBw := if 0 < call.upBw then call.upBw else call.uploadBandwidth
  let uploadBw := getMinBandwidth uploadBw (remoteBandwidth md desc)
  if !md.containsVideoStream || forced then uploadBw else audioShare uploadBw

/-- What the peer leaves for video. -/
def remoteVideoBandwidth : Int :=
  if 0 < desc.bandwidth then desc.bandwidth
  else if 0 < md.bandwidth then getRemainingBandwidthForVideo md.bandwidth call.audioBw
  else call.defaultMaxBandwidth

/-- `get_video_bw` -/
def getVideoBw : Int :=
  getMinBandwidth (getRemainingBandwidthForVideo call.uploadBandwidth call.audioBw)
    (call.remoteVideoBandwidth md desc)

end CallBandwidth

/-! ## The bandwidth of a codec -/

/-- What else a payload type says of its bandwidth. -/
structure CodecRate where
  normalBitrate : Int
  /-- `PAYLOAD_TYPE_IS_VBR` -/
  isVbr : Bool := false
  /-- `PAYLOAD_TYPE_BITRATE_OVERRIDE` -/
  bitrateOverride : Bool := false

def PayloadType.isAudio (pt : PayloadType) : Bool := pt.type == 0 || pt.type == 1

/-- `defauls_vbr`: the rate of the line, the clock rate and the rate of the codec. -/
def defaulsVbr : List (Int × Int × Int) :=
  [(64, 44100, 50), (64, 16000, 40), (32, 16000, 32), (32, 8000, 32), (0, 8000, 24)]

/-- `lookup_vbr_typical_bitrate` -/
def lookupVbrTypicalBitrate (maxbw clockRate : Int) : Int :=
  let maxbw := if maxbw ≤ 0 then 64 else maxbw
  ((defaulsVbr.find? fun it => it.1 ≤ maxbw && it.2.1 ≤ clockRate).map fun it => it.2.2).getD 32

/-- `get_audio_payload_bandwidth_from_codec_bitrate`, rounded up to kbit/s. There are forty bytes of
headers in each packet, and 50 packets in a second, but 100 of AAC-ELD and a hundred in three
seconds of iLBC. A `double` is exact enough for that. -/
def codecBandwidth (pt : PayloadType) (bitrate : Int) : Int :=
  if pt.mimeType = "mpeg4-generic" then (bitrate + 32000 + 999) / 1000
  else if pt.mimeType = "iLBC" then (3 * bitrate + 32000 + 2999) / 3000
  else (bitrate + 16000 + 999) / 1000

section codecs

variable (rate : PayloadType → CodecRate)

/-- `get_audio_payload_bandwidth` -/
def getAudioPayloadBandwidth (pt : PayloadType) (maxbw : Int) : Int :=
  if pt.type = 2 ∨ (rate pt).isVbr then
    if (rate pt).bitrateOverride then (rate pt).normalBitrate.tdiv 1000
    else lookupVbrTypicalBitrate maxbw pt.clockRate
  else codecBandwidth pt (rate pt).normalBitrate

/-- `linphone_core_is_payload_type_usable_for_bandwidth`; the limit in bit/s is an `int`. -/
def isPayloadTypeUsableForBandwidth (pt : PayloadType) (bandwidthLimit : Int) : Bool :=
  if pt.isAudio then
    bandwidthIsGreater ((bandwidthLimit * 1000).bmod (2 ^ 32))
      (getAudioPayloadBandwidth rate pt bandwidthLimit)
  else if pt.type = 2 then decide (bandwidthLimit ≠ 0)
  else false

/-- The part of `make_profile` that allocates bandwidth: the first codec that can be sent takes the
audio bandwidth of the call. -/
def CallBandwidth.allocateAudio (call : CallBandwidth) (md : SalMediaDescription)
    (desc : SalStreamDescription) : CallBandwidth :=
  match desc.payloads.find? (·.flags.canSend) with
  | some pt => { call with audioBw :=
      getAudioPayloadBandwidth rate pt (call.getIdealAudioBw md desc) }
  | none => call

/-- The core, with codecs of these rates. -/
def CodecSettings.withRates (lc : CodecSettings) : CodecSettings :=
  { lc with usableForBandwidth := isPayloadTypeUsableForBandwidth rate }

end codecs

namespace CodecSettings

variable (lc : CodecSettings) (hints : CodecConstraints)

/-- A codec that `make_codec_list` takes if there is room for it. -/
def takes (pt : PayloadType) : Bool :=
  pt.flags.enabled &&
    !(decide (0 < hints.bandwidthLimit) && !lc.usableForBandwidth pt hints.bandwidthLimit) &&
    lc.checkUsability pt

/-- The codecs that `make_codec_list` keeps. -/
def keptCodecs (codecs : List PayloadType) : List PayloadType :=
  if 0 < hints.maxCodecs then (codecs.filter (lc.takes hints)).take hints.maxCodecs.toNat
  else codecs.filter (lc.takes hints)

variable {lc hints}

theorem gatherCodecs_cons {l it : List PayloadType} {pt : PayloadType} :
    lc.gatherCodecs hints l (pt :: it) =
      if lc.takes hints pt then
        if 0 < hints.maxCodecs ∧ hints.maxCodecs ≤ (l.length : Int) + 1 then
          l ++ [withFrozenNumber hints pt]
        else lc.gatherCodecs hints (l ++ [withFrozenNumber hints pt]) it
      else lc.gatherCodecs hints l it := by
  rw [gatherCodecs]
  unfold takes
  cases pt.flags.enabled with
  | false => simp
  | true =>
    cases lc.checkUsability pt with
    | false => simp
    | true =>
      by_cases hpos : 0 < hints.bandwidthLimit
      · cases lc.usableForBandwidth pt hints.bandwidthLimit with
        | false => simp [hpos]
        | true => simp
      · simp [hpos]

theorem gatherCodecs_eq {l codecs : List PayloadType}
    (hroom : 0 < hints.maxCodecs → (l.length : Int) < hints.maxCodecs) :
    lc.gatherCodecs hints l codecs = l ++
      (if 0 < hints.maxCodecs then
          (codecs.filter (lc.takes hints)).take (hints.maxCodecs.toNat - l.length)
        else codecs.filter (lc.takes hints)).map (withFrozenNumber hints) := by
  induction codecs generalizing l with
  | nil => simp [gatherCodecs]
  | cons pt it ih =>
    rw [gatherCodecs_cons]
    by_cases htakes : lc.takes hints pt = true
    · have hlength : (l ++ [withFrozenNumber hints pt]).length = l.length + 1 := by simp
      rw [if_pos htakes, List.filter_cons_of_pos htakes]
      by_cases hmax : 0 < hints.maxCodecs
      · have hl := hroom hmax
        rw [if_pos hmax]
        by_cases hfull : hints.maxCodecs ≤ (l.length : Int) + 1
        · have hone : hints.maxCodecs.toNat - l.length = 1 := by omega
          rw [if_pos ⟨hmax, hfull⟩, hone, List.take_succ_cons, List.take_zero, List.map_singleton]
        · have hmore : hints.maxCodecs.toNat - l.length =
              hints.maxCodecs.toNat - (l.length + 1) + 1 := by omega
          rw [if_neg fun h => hfull h.2, ih fun _ => by rw [hlength]; omega, if_pos hmax, hlength,
            hmore, List.take_succ_cons, List.map_cons, List.append_assoc]
          rfl
      · rw [if_neg fun h => hmax h.1, ih fun h => absurd h hmax, if_neg hmax, if_neg hmax,
          List.map_cons, List.append_assoc]
        rfl
    · rw [if_neg htakes, ih hroom, List.filter_cons_of_neg htakes]

theorem gatherCodecs_nil (codecs : List PayloadType) :
    lc.gatherCodecs hints [] codecs =
      (lc.keptCodecs hints codecs).map (withFrozenNumber hints) :=
  gatherCodecs_eq fun h => h

theorem mem_take_filter_iff {p : PayloadType → Bool} {n : Nat} {codecs : List PayloadType}
    {pt : PayloadType} : pt ∈ (codecs.filter p).take n ↔
      ∃ before after, codecs = before ++ pt :: after ∧ p pt = true ∧
        (before.filter p).length < n := by
  constructor
  · intro hmem
    obtain ⟨taken, rest, htake⟩ := List.append_of_mem hmem
    have hlength : taken.length < n := by
      have hle := List.length_take_le n (codecs.filter p)
      rw [htake, List.length_append, List.length_cons] at hle
      omega
    have hfilter : codecs.filter p = taken ++ (pt :: rest ++ (codecs.filter p).drop n) := by
      rw [← List.append_assoc, ← htake, List.take_append_drop]
    obtain ⟨front, back, rfl, hfront, hback⟩ := List.filter_eq_append_iff.mp hfilter
    obtain ⟨skipped, after, rfl, hskipped, hp, -⟩ := List.filter_eq_cons_iff.mp hback
    refine ⟨front ++ skipped, after, (List.append_assoc ..).symm, hp, ?_⟩
    rw [List.filter_append, hfront, List.filter_eq_nil_iff.mpr hskipped, List.append_nil]
    exact hlength
  · rintro ⟨before, after, rfl, hp, hlt⟩
    rw [List.filter_append, List.filter_cons_of_pos hp, List.take_append,
      show n - (before.filter p).length = (n - (before.filter p).length - 1) + 1 by omega,
      List.take_succ_cons]
    exact List.mem_append_right _ List.mem_cons_self

/-- A codec is kept if it is taken before the list is full. -/
theorem mem_keptCodecs_iff {codecs : List PayloadType} {pt : PayloadType} :
    pt ∈ lc.keptCodecs hints codecs ↔
      ∃ before after, codecs = before ++ pt :: after ∧ lc.takes hints pt = true ∧
        (0 < hints.maxCodecs →
          ((before.filter (lc.takes hints)).length : Int) < hints.maxCodecs) := by
  rw [keptCodecs]
  split_ifs with hmax
  · rw [mem_take_filter_iff]
    simp only [hmax, true_implies]
    refine exists₂_congr fun before after => and_congr_right fun _ => and_congr_right fun _ => ?_
    omega
  · simp only [hmax, false_implies, and_true, List.mem_filter]
    constructor
    · rintro ⟨hmem, htakes⟩
      obtain ⟨before, after, hsplit⟩ := List.append_of_mem hmem
      exact ⟨before, after, hsplit, htakes⟩
    · rintro ⟨before, after, rfl, htakes⟩
      exact ⟨List.mem_append_right _ List.mem_cons_self, htakes⟩

end CodecSettings

/-! ## Budgets that respect the limits -/

/-- The limits and the codecs of a call. -/
structure BandwidthInputs where
  call : CallBandwidth
  md : SalMediaDescription
  audio : SalStreamDescription
  video : SalStreamDescription
  rate : PayloadType → CodecRate
  lc : CodecSettings
  hints : CodecConstraints
  codecs : List PayloadType

namespace BandwidthInputs

variable (x : BandwidthInputs)

/-- The upload limit of the call: its own, or else that of the settings. -/
def uploadLimit : Int := if 0 < x.call.upBw then x.call.upBw else x.call.uploadBandwidth

/-- The call, once a codec of the audio stream is chosen. -/
def allocated : CallBandwidth := x.call.allocateAudio x.rate x.md x.audio

/-- The audio budget with another upload limit in the settings. -/
def budgetWithUpload (limit : Int) : Int :=
  { x.call with uploadBandwidth := limit }.getIdealAudioBw x.md x.audio

/-- The audio budget with other limits of the peer. -/
def budgetWithRemote (session stream : Int) : Int :=
  x.call.getIdealAudioBw { x.md with bandwidth := session } { x.audio with bandwidth := stream }

/-- The budgets keep to the limits, less limits do not lead to smaller budgets, and the codecs that
are kept fit. -/
structure Respected : Prop where
  audio : asLimit (x.call.getIdealAudioBw x.md x.audio) ≤
    asLimit x.uploadLimit ⊓ asLimit (remoteBandwidth x.md x.audio)
  together : (x.allocated.audioBw : WithTop Int) +
    asLimit (x.allocated.getVideoBw x.md x.video) ≤ asLimit x.uploadLimit
  without_upload : ∀ limit > 0,
    asLimit (x.budgetWithUpload limit) ≤ asLimit (x.budgetWithUpload 0)
  without_remote : ∀ session stream : Int, 0 < session ∨ 0 < stream →
    asLimit (x.budgetWithRemote session stream) ≤ asLimit (x.budgetWithRemote 0 0)
  codecs : 0 < x.hints.bandwidthLimit →
    ∀ pt ∈ (x.lc.withRates x.rate).keptCodecs x.hints x.codecs, pt.isAudio = true →
      getAudioPayloadBandwidth x.rate pt x.hints.bandwidthLimit ≤ x.hints.bandwidthLimit

/-- The audio of a call with video has limits of its own, or the upload limit and that of the peer
are both set and are enough for it. -/
def AudioFits : Prop :=
  x.md.containsVideoStream = false ∨ 0 < x.call.upBw ∨
    24 ≤ x.call.uploadBandwidth ∧ 24 ≤ remoteBandwidth x.md x.audio

/-- Of what the settings and the peer leave for video, one is a limit and fits what the audio
leaves. -/
def VideoFits : Prop :=
  x.uploadLimit ≤ 0 ∨
    (0 < getRemainingBandwidthForVideo x.call.uploadBandwidth x.allocated.audioBw ∧
      getRemainingBandwidthForVideo x.call.uploadBandwidth x.allocated.audioBw ≤
        x.uploadLimit - x.allocated.audioBw) ∨
    (0 < x.allocated.remoteVideoBandwidth x.md x.video ∧
      x.allocated.remoteVideoBandwidth x.md x.video ≤ x.uploadLimit - x.allocated.audioBw)

/-- A codec with a bandwidth between the limit in kbit/s and the number of its bit/s, both taken for
kbit/s, comes when the list is full. -/
def CodecsFit : Prop :=
  ∀ before pt after, x.codecs = before ++ pt :: after → pt.flags.enabled = true →
    x.lc.checkUsability pt = true → pt.isAudio = true → 0 < x.hints.bandwidthLimit →
    x.hints.bandwidthLimit <
      getAudioPayloadBandwidth x.rate pt x.hints.bandwidthLimit →
    ((x.hints.bandwidthLimit * 1000).bmod (2 ^ 32) < 0 ∨
      getAudioPayloadBandwidth x.rate pt x.hints.bandwidthLimit ≤
        (x.hints.bandwidthLimit * 1000).bmod (2 ^ 32)) →
    0 < x.hints.maxCodecs ∧
      x.hints.maxCodecs ≤ (before.filter ((x.lc.withRates x.rate).takes x.hints)).length

end BandwidthInputs

/-! ## The share of audio -/

theorem bandwidthIsGreater_of_nonneg {bw1 bw2 : Int} (h1 : 0 ≤ bw1) (h2 : 0 ≤ bw2) :
    bandwidthIsGreater bw1 bw2 = decide (bw2 ≤ bw1) := by
  rw [bandwidthIsGreater, if_neg (Int.not_lt.mpr h1), if_neg (Int.not_lt.mpr h2)]

theorem audioShare_eq {bw : Int} (h : 0 ≤ bw) : audioShare bw =
    if 512 ≤ bw then 100 else if 256 ≤ bw then 64 else if 128 ≤ bw then 40 else 24 := by
  have hgreater : ∀ n : Int, 0 ≤ n → (bandwidthIsGreater bw n = true ↔ n ≤ bw) := fun n hn => by
    rw [bandwidthIsGreater_of_nonneg h hn, decide_eq_true_iff]
  simp only [audioShare, hgreater 512 (by omega), hgreater 256 (by omega),
    hgreater 128 (by omega), hgreater 0 (by omega), h, if_true]

theorem audioShare_pos {bw : Int} (h : 0 ≤ bw) : 24 ≤ audioShare bw := by
  rw [audioShare_eq h]
  split_ifs <;> omega

theorem audioShare_mono {a b : Int} (ha : 0 ≤ a) (hab : a ≤ b) : audioShare a ≤ audioShare b := by
  rw [audioShare_eq ha, audioShare_eq (Int.le_trans ha hab)]
  split_ifs <;> omega

theorem add_asLimit_le_iff {a v u : Int} :
    (a : WithTop Int) + asLimit v ≤ asLimit u ↔ u ≤ 0 ∨ 0 < v ∧ v ≤ u - a := by
  by_cases hu : u ≤ 0
  · simp [asLimit_of_not_pos hu, hu]
  · rw [asLimit_of_pos (Int.not_le.mp hu)]
    by_cases hv : 0 < v
    · rw [asLimit_of_pos hv, ← WithTop.coe_add, WithTop.coe_le_coe]
      omega
    · simp [asLimit_of_not_pos (Int.not_lt.mp hv), hv, hu]

theorem getMinBandwidth_fits_iff {dbw ubw bw : Int} :
    (0 < getMinBandwidth dbw ubw ∧ getMinBandwidth dbw ubw ≤ bw) ↔
      (0 < dbw ∧ dbw ≤ bw) ∨ 0 < ubw ∧ ubw ≤ bw := by
  unfold getMinBandwidth
  split_ifs <;> omega

theorem audioShare_le_iff {bw : Int} (h : 0 < bw) : audioShare bw ≤ bw ↔ 24 ≤ bw := by
  rw [audioShare_eq (Int.le_of_lt h)]
  split_ifs <;> omega

theorem remoteBandwidth_nonneg (md : SalMediaDescription) (desc : SalStreamDescription) :
    0 ≤ remoteBandwidth md desc := by
  unfold remoteBandwidth
  split_ifs <;> omega

/-- A share never gets smaller with the limit only if there is one. -/
theorem audioShare_limits_iff {other : Int} (h : 0 ≤ other) :
    (∀ limit > 0, asLimit (audioShare (getMinBandwidth limit other)) ≤
        asLimit (audioShare other)) ↔ 0 < other := by
  have hshare := audioShare_pos h
  constructor
  · intro hall
    by_contra hnone
    obtain rfl : other = 0 := by omega
    have hbig := asLimit_le_iff.mp (hall 512 (by omega))
    rw [audioShare_eq (Int.le_refl 0)] at hbig
    revert hbig
    decide
  · intro hpos limit hlimit
    have hmin : getMinBandwidth limit other = min limit other := by
      rw [getMinBandwidth, if_neg (by omega), if_neg (by omega)]
    have hmono : audioShare (min limit other) ≤ audioShare other :=
      audioShare_mono (by omega) (min_le_right _ _)
    have hshare' : 24 ≤ audioShare (min limit other) := audioShare_pos (by omega)
    rw [hmin]
    exact asLimit_le_iff.mpr (.inr ⟨by omega, hmono⟩)

namespace BandwidthInputs

variable {x : BandwidthInputs}

theorem getIdealAudioBw_alone {call : CallBandwidth} {md : SalMediaDescription}
    {desc : SalStreamDescription} (h : md.containsVideoStream = false ∨ 0 < call.upBw) :
    call.getIdealAudioBw md desc =
      getMinBandwidth (if 0 < call.upBw then call.upBw else call.uploadBandwidth)
        (remoteBandwidth md desc) := by
  rcases h with hvideo | hforced
  · simp [CallBandwidth.getIdealAudioBw, hvideo]
  · simp [CallBandwidth.getIdealAudioBw, hforced]

theorem getIdealAudioBw_shared {call : CallBandwidth} {md : SalMediaDescription}
    {desc : SalStreamDescription} (hvideo : md.containsVideoStream = true)
    (hforced : ¬0 < call.upBw) :
    call.getIdealAudioBw md desc =
      audioShare (getMinBandwidth call.uploadBandwidth (remoteBandwidth md desc)) := by
  simp [CallBandwidth.getIdealAudioBw, hvideo, hforced]

/-- The limit of a peer with these limits. -/
def peerLimit (session stream : Int) : Int :=
  if 0 < stream then stream else if 0 < session then session else 0

theorem peerLimit_session {limit : Int} (h : 0 < limit) : peerLimit limit 0 = limit := by
  rw [peerLimit, if_neg (Int.lt_irrefl 0), if_pos h]

theorem peerLimit_pos {session stream : Int} (h : 0 < session ∨ 0 < stream) :
    0 < peerLimit session stream := by
  unfold peerLimit
  split_ifs <;> omega

theorem getMinBandwidth_swap {upload remote : Int} (h : 0 ≤ remote) :
    getMinBandwidth upload remote = getMinBandwidth remote (max upload 0) := by
  unfold getMinBandwidth
  split_ifs <;> omega

theorem budgetWithUpload_alone (h : x.md.containsVideoStream = false ∨ 0 < x.call.upBw)
    (limit : Int) : x.budgetWithUpload limit =
      getMinBandwidth (if 0 < x.call.upBw then x.call.upBw else limit)
        (remoteBandwidth x.md x.audio) :=
  getIdealAudioBw_alone h

theorem budgetWithRemote_alone (h : x.md.containsVideoStream = false ∨ 0 < x.call.upBw)
    (session stream : Int) : x.budgetWithRemote session stream =
      getMinBandwidth x.uploadLimit (peerLimit session stream) :=
  getIdealAudioBw_alone h

theorem budgetWithUpload_shared (hvideo : x.md.containsVideoStream = true)
    (hforced : ¬0 < x.call.upBw) (limit : Int) : x.budgetWithUpload limit =
      audioShare (getMinBandwidth limit (remoteBandwidth x.md x.audio)) :=
  getIdealAudioBw_shared hvideo hforced

theorem budgetWithRemote_shared (hvideo : x.md.containsVideoStream = true)
    (hforced : ¬0 < x.call.upBw) (session stream : Int) : x.budgetWithRemote session stream =
      audioShare (getMinBandwidth x.call.uploadBandwidth (peerLimit session stream)) :=
  getIdealAudioBw_shared hvideo hforced

/-- The budget of a call without video, or with a limit of its own, is the stricter limit. -/
theorem respects_alone (h : x.md.containsVideoStream = false ∨ 0 < x.call.upBw) :
    asLimit (x.call.getIdealAudioBw x.md x.audio) ≤
        asLimit x.uploadLimit ⊓ asLimit (remoteBandwidth x.md x.audio) ∧
      (∀ limit > 0, asLimit (x.budgetWithUpload limit) ≤ asLimit (x.budgetWithUpload 0)) ∧
      ∀ session stream : Int, 0 < session ∨ 0 < stream →
        asLimit (x.budgetWithRemote session stream) ≤ asLimit (x.budgetWithRemote 0 0) := by
  have hnone : asLimit 0 = ⊤ := asLimit_of_not_pos (Int.le_refl 0)
  refine ⟨?_, fun limit _ => ?_, fun session stream _ => ?_⟩
  · rw [getIdealAudioBw_alone h, asLimit_getMinBandwidth]
    exact le_refl _
  · rw [budgetWithUpload_alone h, budgetWithUpload_alone h, asLimit_getMinBandwidth,
      asLimit_getMinBandwidth]
    split_ifs with hforced
    · exact le_refl _
    · exact inf_le_inf_right _ (le_top.trans_eq hnone.symm)
  · rw [budgetWithRemote_alone h, budgetWithRemote_alone h, asLimit_getMinBandwidth,
      asLimit_getMinBandwidth]
    exact inf_le_inf_left _ (le_top.trans_eq hnone.symm)

/-- **The audio budget** of a call is right exactly if its limits fit. -/
theorem audio_iff :
    (asLimit (x.call.getIdealAudioBw x.md x.audio) ≤
        asLimit x.uploadLimit ⊓ asLimit (remoteBandwidth x.md x.audio) ∧
      (∀ limit > 0, asLimit (x.budgetWithUpload limit) ≤ asLimit (x.budgetWithUpload 0)) ∧
      ∀ session stream : Int, 0 < session ∨ 0 < stream →
        asLimit (x.budgetWithRemote session stream) ≤ asLimit (x.budgetWithRemote 0 0)) ↔
      x.AudioFits := by
  by_cases halone : x.md.containsVideoStream = false ∨ 0 < x.call.upBw
  · exact iff_of_true (respects_alone halone) (halone.elim .inl fun h => .inr (.inl h))
  obtain ⟨hvideo, hforced⟩ := not_or.mp halone
  rw [Bool.not_eq_false] at hvideo
  have hfits : x.AudioFits ↔
      24 ≤ x.call.uploadBandwidth ∧ 24 ≤ remoteBandwidth x.md x.audio := by
    simp [AudioFits, hvideo, hforced]
  have hremote := remoteBandwidth_nonneg x.md x.audio
  have hupload : (∀ limit > 0, asLimit (x.budgetWithUpload limit) ≤
      asLimit (x.budgetWithUpload 0)) ↔ 0 < remoteBandwidth x.md x.audio := by
    rw [← audioShare_limits_iff hremote]
    refine forall₂_congr fun limit _ => ?_
    rw [budgetWithUpload_shared hvideo hforced, budgetWithUpload_shared hvideo hforced]
    rfl
  have hpeer : (∀ session stream : Int, 0 < session ∨ 0 < stream →
      asLimit (x.budgetWithRemote session stream) ≤ asLimit (x.budgetWithRemote 0 0)) ↔
      0 < x.call.uploadBandwidth := by
    have hmax : 0 < max x.call.uploadBandwidth 0 ↔ 0 < x.call.uploadBandwidth := by omega
    have hnone : getMinBandwidth x.call.uploadBandwidth (peerLimit 0 0) =
        max x.call.uploadBandwidth 0 :=
      (getMinBandwidth_swap (Int.le_refl 0)).trans (if_pos (Int.le_refl 0))
    simp only [budgetWithRemote_shared hvideo hforced]
    rw [← hmax, ← audioShare_limits_iff (le_max_right _ _)]
    constructor
    · intro h limit hlimit
      have hall := h limit 0 (.inl hlimit)
      rwa [getMinBandwidth_swap (by simp [peerLimit, Int.le_of_lt hlimit, hlimit]),
        hnone, peerLimit_session hlimit] at hall
    · intro h session stream hpos
      have hlimit := peerLimit_pos hpos
      rw [getMinBandwidth_swap (Int.le_of_lt hlimit), hnone]
      exact h _ hlimit
  rw [hupload, hpeer, hfits, getIdealAudioBw_shared hvideo hforced, ← asLimit_getMinBandwidth,
    uploadLimit, if_neg hforced, asLimit_le_iff]
  constructor
  · rintro ⟨hwithin, hremote, hupload⟩
    have hmin : getMinBandwidth x.call.uploadBandwidth (remoteBandwidth x.md x.audio) =
        min x.call.uploadBandwidth (remoteBandwidth x.md x.audio) := by
      rw [getMinBandwidth, if_neg (by omega), if_neg (by omega)]
    rw [hmin] at hwithin
    have hle := (audioShare_le_iff (by omega)).mp (hwithin.resolve_left (by omega)).2
    omega
  · rintro ⟨hupload, hremote⟩
    have hmin : getMinBandwidth x.call.uploadBandwidth (remoteBandwidth x.md x.audio) =
        min x.call.uploadBandwidth (remoteBandwidth x.md x.audio) := by
      rw [getMinBandwidth, if_neg (by omega), if_neg (by omega)]
    rw [hmin]
    have hshare : 24 ≤ audioShare (min x.call.uploadBandwidth (remoteBandwidth x.md x.audio)) :=
      audioShare_pos (by omega)
    exact ⟨.inr ⟨by omega, (audioShare_le_iff (by omega)).mpr (by omega)⟩, by omega, by omega⟩

theorem uploadBandwidth_allocated :
    x.allocated.uploadBandwidth = x.call.uploadBandwidth := by
  unfold allocated CallBandwidth.allocateAudio
  split
  · rfl
  · rfl

/-- **The video budget** of a call is right exactly if its limits fit. -/
theorem video_iff :
    (x.allocated.audioBw : WithTop Int) + asLimit (x.allocated.getVideoBw x.md x.video) ≤
      asLimit x.uploadLimit ↔ x.VideoFits := by
  rw [add_asLimit_le_iff, CallBandwidth.getVideoBw, getMinBandwidth_fits_iff,
    uploadBandwidth_allocated]
  rfl

/-- What the test of `make_codec_list` lets pass of a codec above the limit. -/
theorem usable_above_iff {rate : PayloadType → CodecRate} {pt : PayloadType} {limit : Int}
    (haudio : pt.isAudio = true) (hpos : 0 < limit)
    (habove : limit < getAudioPayloadBandwidth rate pt limit) :
    isPayloadTypeUsableForBandwidth rate pt limit = true ↔
      (limit * 1000).bmod (2 ^ 32) < 0 ∨
        getAudioPayloadBandwidth rate pt limit ≤ (limit * 1000).bmod (2 ^ 32) := by
  rw [isPayloadTypeUsableForBandwidth, if_pos haudio, bandwidthIsGreater]
  by_cases hneg : (limit * 1000).bmod (2 ^ 32) < 0
  · simp only [hneg, if_true, true_or]
  · rw [if_neg hneg, if_neg (by omega), decide_eq_true_iff]
    simp only [hneg, false_or]

/-- **The codecs** that are kept fit exactly if those of the list do. -/
theorem codecs_iff :
    (0 < x.hints.bandwidthLimit →
      ∀ pt ∈ (x.lc.withRates x.rate).keptCodecs x.hints x.codecs, pt.isAudio = true →
        getAudioPayloadBandwidth x.rate pt x.hints.bandwidthLimit ≤ x.hints.bandwidthLimit) ↔
      x.CodecsFit := by
  have htakes : ∀ pt, 0 < x.hints.bandwidthLimit →
      ((x.lc.withRates x.rate).takes x.hints pt = true ↔ pt.flags.enabled = true ∧
        isPayloadTypeUsableForBandwidth x.rate pt x.hints.bandwidthLimit = true ∧
        x.lc.checkUsability pt = true) := by
    intro pt hpos
    simp [CodecSettings.takes, CodecSettings.withRates, hpos, and_assoc]
  constructor
  · intro h before pt after hsplit henabled hcheck haudio hpos habove hpasses
    by_contra hroom
    have husable := (usable_above_iff haudio hpos habove).mpr hpasses
    have hkept := CodecSettings.mem_keptCodecs_iff.mpr ⟨before, after, hsplit,
      (htakes pt hpos).mpr ⟨henabled, husable, hcheck⟩,
      fun hmax => by_contra fun hfull => hroom ⟨hmax, Int.not_lt.mp hfull⟩⟩
    exact absurd (h hpos pt hkept haudio) (Int.not_le.mpr habove)
  · intro h hpos pt hkept haudio
    by_contra habove
    obtain ⟨before, after, hsplit, htaken, hroom⟩ := CodecSettings.mem_keptCodecs_iff.mp hkept
    obtain ⟨henabled, husable, hcheck⟩ := (htakes pt hpos).mp htaken
    have hfull := h before pt after hsplit henabled hcheck haudio hpos (Int.not_le.mp habove)
      ((usable_above_iff haudio hpos (Int.not_le.mp habove)).mp husable)
    exact absurd (hroom hfull.1) (Int.not_lt.mpr hfull.2)

def pcmu : PayloadType where
  mimeType := "PCMU"
  clockRate := 8000
  flags := { canSend := true, enabled := true }

/-- A call with video that may send 85 kbit/s, and a limit of 50 kbit/s for codecs. -/
def videoCall : BandwidthInputs where
  call := { uploadBandwidth := 85 }
  md :=
    { nbStreams := 2
      streams := (Vector.replicate maxStreams {}).set 1 { type := .video, rtpPort := 9078 } }
  audio := { payloads := [pcmu] }
  video := {}
  rate _ := { normalBitrate := 64000 }
  lc := {}
  hints := { bandwidthLimit := 50, maxCodecs := -1 }
  codecs := [pcmu]

end BandwidthInputs

end Linphone
