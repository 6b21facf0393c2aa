import Linphone.OfferAnswer.Matches
import Linphone.OfferAnswer.Outgoing
import Mathlib.Data.List.Induction

/-!
# Matching and the capabilities

The local list of `match_payloads` is the list of capabilities a call negotiates with, again and
again. It should not change, and what an offered payload type is answered with should be a matter
of that payload type and the capabilities. `opus_match` breaks both: asked for mono it makes the
local `opus` entries mono for good, and asked for stereo it answers the first `opus` entry,
whatever its channel count is by then.

`capabilities_kept_iff` says for which offers nothing of this shows.
-/

namespace Linphone

variable (lib : MediaLib)

/-! ## Runs -/

/-- A call of `find_payload_type_best_match` or of `match_payloads`. -/
inductive Matching
  | bestMatch (refpt : PayloadType)
  | payloads (remote : List PayloadType) (readingResponse oneMatchingCodec : Bool)

namespace Matching

/-- The payload types that are matched. -/
def offered : Matching → List PayloadType
  | .bestMatch refpt => [refpt]
  | .payloads remote _ _ => remote

/-- The local list as the call leaves it. -/
def after (l : List PayloadType) : Matching → List PayloadType
  | .bestMatch refpt => (findPayloadTypeBestMatch lib l refpt).1
  | .payloads remote reading one => (matchPayloads lib l remote reading one).1

/-- The offered payload types that are answered, each with its match. -/
def answered (l : List PayloadType) : Matching → List (PayloadType × PayloadType)
  | .bestMatch refpt => (findPayloadTypeBestMatch lib l refpt).2.toList.map (refpt, ·)
  | .payloads remote _ one => matchedPairs lib one l false remote

end Matching

/-- The local list after a number of calls. -/
def matchAll (caps : List PayloadType) (runs : List Matching) : List PayloadType :=
  runs.foldl (Matching.after lib) caps

/-- What matching should do to the capabilities, and how far an answer should depend on them. -/
structure CapabilitiesKept (caps : List PayloadType) (runs : List Matching) : Prop where
  /-- The payload types are unchanged after any number of calls. -/
  unchanged : ∀ done, done <+: runs → matchAll lib caps done = caps
  /-- An answer is that for the payload type alone, matched with the original capabilities. -/
  alone : ∀ done run, done ++ [run] <+: runs → ∀ pair ∈ run.answered lib (matchAll lib caps done),
    bestMatch lib caps pair.1 = some pair.2
  /-- `opus` is answered with the channel count it was offered with. -/
  channels : ∀ done run, done ++ [run] <+: runs →
    ∀ pair ∈ run.answered lib (matchAll lib caps done), pair.1.isOpus →
      pair.2.channels = pair.1.channels

/-! ## One call -/

/-- Nothing a mono `opus` could change. -/
def NoChange (caps remote : List PayloadType) : Prop :=
  ∀ p ∈ remote, p.isOpus → p.channels = 1 → AllMono caps

theorem AllMono.of_map_toMono {l : List PayloadType} (h : l.map PayloadType.toMono = l) :
    AllMono l := by
  rw [← h]
  exact allMono_toMono l

/-- One matcher leaves the list alone exactly when it finds nothing to make mono. -/
theorem findPayloadTypeBestMatch_kept_iff (l : List PayloadType) (refpt : PayloadType) :
    (findPayloadTypeBestMatch lib l refpt).1 = l ↔ NoChange l [refpt] := by
  rw [findPayloadTypeBestMatch_locals, NoChange, List.forall_mem_singleton]
  split
  · rename_i hmono
    constructor
    · intro h _ _
      exact AllMono.of_map_toMono h
    · intro h
      exact (h hmono.1 hmono.2).map_toMono
  · rename_i hmono
    exact iff_of_true rfl fun hopus h1 => absurd ⟨hopus, h1⟩ hmono

variable {l remote : List PayloadType}

theorem NoChange.cons_iff {p : PayloadType} :
    NoChange l (p :: remote) ↔ NoChange l [p] ∧ NoChange l remote := by
  simp only [NoChange, List.forall_mem_cons, List.not_mem_nil, false_implies, implies_true,
    and_true]

theorem foldl_matchPayload_toMono (reading one : Bool) (remote : List PayloadType)
    (s : MatchState) (h : s.locals = l.map PayloadType.toMono) :
    (remote.foldl (matchPayload lib reading one) s).locals = l.map PayloadType.toMono := by
  rcases foldl_matchPayload_locals lib reading one remote s with hs | hs
  · exact hs.trans h
  · rw [hs, h, map_toMono_toMono]

/-- **`match_payloads` leaves the list alone exactly when there is nothing to make mono.** -/
theorem foldl_matchPayload_kept_iff (reading one : Bool) (remote : List PayloadType)
    (s : MatchState) :
    (remote.foldl (matchPayload lib reading one) s).locals = s.locals ↔
      NoChange s.locals remote := by
  induction remote generalizing s with
  | nil => exact iff_of_true rfl fun p hp => absurd hp List.not_mem_nil
  | cons p remote ih =>
      have hstep := matchPayload_locals lib reading one s p
      rw [List.foldl_cons, NoChange.cons_iff, ← findPayloadTypeBestMatch_kept_iff lib, ← hstep]
      by_cases hkept : (matchPayload lib reading one s p).locals = s.locals
      · have := ih (matchPayload lib reading one s p)
        rw [hkept] at this
        rw [this, and_iff_right hkept]
      · refine iff_of_false (fun h => hkept ?_) fun h => hkept h.1
        -- what was changed was made mono, and the list would be mono from the start
        have hmono : (matchPayload lib reading one s p).locals =
            s.locals.map PayloadType.toMono := by
          rcases locals_cases lib s.locals p with hl | hl
          · exact absurd (hstep.trans hl) hkept
          · exact hstep.trans hl
        rw [hmono, ← foldl_matchPayload_toMono lib reading one remote _ hmono, h]

theorem Matching.after_eq_iff (l : List PayloadType) (run : Matching) :
    run.after lib l = l ↔ NoChange l run.offered := by
  cases run with
  | bestMatch refpt => exact findPayloadTypeBestMatch_kept_iff lib l refpt
  | payloads remote reading one =>
      exact foldl_matchPayload_kept_iff lib reading one remote { locals := l }

theorem Matching.answered_bestMatch (l : List PayloadType) (refpt : PayloadType) :
    (Matching.bestMatch refpt).answered lib l = matchedPairs lib false l false [refpt] := by
  rw [Matching.answered, matchedPairs_cons]
  cases (findPayloadTypeBestMatch lib l refpt).2 with
  | none => rfl
  | some m => rfl

/-- What a call matches is a run of `matchedPairs`. -/
theorem Matching.answered_eq (l : List PayloadType) (run : Matching) :
    ∃ one, run.answered lib l = matchedPairs lib one l false run.offered := by
  cases run with
  | bestMatch refpt => exact ⟨false, Matching.answered_bestMatch lib l refpt⟩
  | payloads remote reading one => exact ⟨one, rfl⟩

/-- While nothing is made mono, the matches are those in the list as it was. -/
theorem bestMatch_of_noChange {one found : Bool} {pair : PayloadType × PayloadType}
    (hkept : NoChange l remote) (h : pair ∈ matchedPairs lib one l found remote) :
    bestMatch lib l pair.1 = some pair.2 := by
  induction remote generalizing found with
  | nil => exact absurd h List.not_mem_nil
  | cons p remote ih =>
      obtain ⟨hp, hrest⟩ := NoChange.cons_iff.mp hkept
      have hl := (findPayloadTypeBestMatch_kept_iff lib l p).mpr hp
      obtain ⟨found', hr | ⟨m, hm, hr⟩⟩ := matchedPairs_cons_cases lib one found l remote p
      · rw [hr, hl] at h
        exact ih hrest h
      · rw [hr, hl] at h
        rcases List.mem_cons.mp h with rfl | h
        · exact hm
        · exact ih hrest h

/-! ## Any number of calls -/

/-- What a call may ask for: a mono `opus` only of mono capabilities, and a stereo one is only
answered when the first `opus` of the capabilities is stereo. -/
structure AskedInKind (caps : List PayloadType) (run : Matching) : Prop where
  mono : NoChange caps run.offered
  stereo : ∀ pair ∈ run.answered lib caps, pair.1.isOpus → pair.1.channels = 2 →
    ∀ o, firstOpus caps = some o → o.channels = 2

/-- An `opus` match has the channel count asked for, as far as it can be wrong. -/
theorem channels_of_bestMatch {refpt m : PayloadType} (h : bestMatch lib l refpt = some m)
    (hopus : refpt.isOpus)
    (hstereo : refpt.channels = 2 → ∀ o, firstOpus l = some o → o.channels = 2) :
    m.channels = refpt.channels := by
  by_cases h1 : refpt.channels = 1
  · rw [bestMatch_mono lib l hopus h1] at h
    obtain ⟨o, ho, rfl⟩ := Option.map_eq_some_iff.mp h
    rw [toMono_of_opus (mem_of_lastOpus ho).2, h1]
  · by_cases h2 : refpt.channels = 2
    · rw [bestMatch_stereo lib l hopus h2] at h
      rw [hstereo h2 m h, h2]
    · rw [bestMatch_other lib l hopus h1 h2] at h
      exact absurd h (by simp)

/-- One call in kind. -/
theorem AskedInKind.answered {caps : List PayloadType} {run : Matching}
    (h : AskedInKind lib caps run) {pair : PayloadType × PayloadType}
    (hpair : pair ∈ run.answered lib caps) : bestMatch lib caps pair.1 = some pair.2 := by
  obtain ⟨one, hrun⟩ := run.answered_eq lib caps
  exact bestMatch_of_noChange lib h.mono (hrun ▸ hpair)

theorem matchAll_concat (caps : List PayloadType) (done : List Matching) (run : Matching) :
    matchAll lib caps (done ++ [run]) = run.after lib (matchAll lib caps done) := by
  rw [matchAll, List.foldl_append]
  rfl

theorem matchAll_eq {caps : List PayloadType} {done : List Matching}
    (h : ∀ run ∈ done, AskedInKind lib caps run) : matchAll lib caps done = caps := by
  induction done using List.reverseRecOn with
  | nil => rfl
  | append_singleton done run ih =>
      rw [matchAll_concat, ih fun r hr => h r (List.mem_append_left _ hr)]
      exact (run.after_eq_iff lib caps).mpr
        (h run (List.mem_append_right _ (List.mem_singleton_self run))).mono

theorem mem_of_concat_start {α : Type} {done runs : List α} {run : α}
    (h : done ++ [run] <+: runs) : run ∈ runs :=
  h.subset (List.mem_append_right _ (List.mem_singleton_self run))

/-- **Matching is read-only on the capabilities, and answers each payload type for itself, exactly
when every call is in kind**: no mono `opus` is asked of capabilities with an `opus` that is not
mono, and no stereo one is answered from capabilities whose first `opus` is not stereo. -/
theorem capabilities_kept_iff (caps : List PayloadType) (runs : List Matching) :
    CapabilitiesKept lib caps runs ↔ ∀ run ∈ runs, AskedInKind lib caps run := by
  constructor
  · intro h run hrun
    obtain ⟨done, rest, hruns⟩ := List.append_of_mem hrun
    have hlast : done ++ [run] <+: runs := ⟨rest, by simp [hruns]⟩
    have hdone := h.unchanged done ((List.prefix_append _ _).trans hlast)
    constructor
    · rw [← run.after_eq_iff lib, ← hdone, ← matchAll_concat, hdone]
      exact h.unchanged _ hlast
    · intro pair hpair hopus h2 o ho
      have hnow : pair ∈ run.answered lib (matchAll lib caps done) := by rwa [hdone]
      have hbest := h.alone done run hlast pair hnow
      have hchannels := h.channels done run hlast pair hnow hopus
      rw [bestMatch_stereo lib caps hopus h2, ho, Option.some.injEq] at hbest
      rw [hbest, hchannels, h2]
  · intro h
    have hkept : ∀ done, done <+: runs → matchAll lib caps done = caps := fun done hdone =>
      matchAll_eq lib fun run hrun => h run (hdone.subset hrun)
    refine ⟨hkept, fun done run hlast pair hpair => ?_, fun done run hlast pair hpair hopus => ?_⟩
    · rw [hkept done ((List.prefix_append _ _).trans hlast)] at hpair
      exact (h run (mem_of_concat_start hlast)).answered lib hpair
    · rw [hkept done ((List.prefix_append _ _).trans hlast)] at hpair
      have hrun := h run (mem_of_concat_start hlast)
      exact channels_of_bestMatch lib (hrun.answered lib hpair) hopus
        (hrun.stereo pair hpair hopus)

/-! ## A mono offer before a stereo one -/

/-- `opus`, as the defaults have it. -/
def opus (channels : Int) : PayloadType :=
  { mimeType := "opus", clockRate := 48000, channels, number := 96 }

/-- An offer of mono `opus` makes the stereo capability mono. -/
theorem mono_offer_changes_capabilities :
    ¬CapabilitiesKept plainLib [opus 2]
      [.payloads [opus 1] false false, .payloads [opus 2] false false] := by
  intro h
  have hkept := h.unchanged [Matching.payloads [opus 1] false false] (List.prefix_append _ _)
  revert hkept
  decide

end Linphone
