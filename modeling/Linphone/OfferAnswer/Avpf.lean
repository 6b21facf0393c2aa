import Linphone.OfferAnswer.Agreement

/-!
# The AVPF parameters of a call

`match_payloads` negotiates the RTCP feedback of a codec: the features both lists have, and the
bigger of the two regular RTCP intervals. The features are intersected on the clone of the local
payload type. The interval is not the bigger one: the clone already holds the local interval, and
the branch that should take the bigger one assigns the local interval again.

So each end keeps its own interval. `avpf_lawful_iff` says when that is what the two should have
agreed on.
-/

namespace Linphone

variable (lib : MediaLib)

/-! ## One entry -/

/-- `entry` has the parameters that `ours` and `theirs` should agree on. -/
structure AvpfNegotiated (ours theirs entry : PayloadType) : Prop where
  features : entry.avpf.features = ours.avpf.features &&& theirs.avpf.features
  trrInterval : entry.avpf.trrInterval = max ours.avpf.trrInterval theirs.avpf.trrInterval

theorem eq_max_self_iff {a b : UInt16} : a = max a b ↔ b ≤ a := by
  change a = (if a ≤ b then b else a) ↔ b ≤ a
  split
  · rename_i hab
    exact ⟨fun h => h ▸ UInt16.le_refl a, fun h => UInt16.le_antisymm hab h⟩
  · rename_i hab
    exact iff_of_true rfl ((UInt16.le_total a b).resolve_left hab)

/-- Two entries with the same features and interval. -/
structure SameAvpf (p q : PayloadType) : Prop where
  features : p.avpf.features = q.avpf.features
  trrInterval : p.avpf.trrInterval = q.avpf.trrInterval

section

variable {matched p2 : PayloadType}

theorem negotiatedPayload_features (h : p2.flags.rtcpFeedbackEnabled) :
    (negotiatedPayload lib matched p2).avpf.features =
      matched.avpf.features &&& p2.avpf.features := by
  unfold negotiatedPayload
  cases p2.sendFmtp <;> simp only [h, if_true]

theorem negotiatedPayload_trrInterval (matched p2 : PayloadType) :
    (negotiatedPayload lib matched p2).avpf.trrInterval = matched.avpf.trrInterval := by
  unfold negotiatedPayload
  cases p2.sendFmtp <;> cases p2.flags.rtcpFeedbackEnabled <;> simp

theorem negotiatedPayload_feedback (h : p2.flags.rtcpFeedbackEnabled) :
    (negotiatedPayload lib matched p2).flags.rtcpFeedbackEnabled = true := by
  unfold negotiatedPayload
  cases p2.sendFmtp <;> simp only [h, if_true]

theorem entries_avpf {pair : PayloadType × PayloadType} {reading : Bool} {r : PayloadType}
    (h : r ∈ entries lib reading pair) : r.avpf = (negotiatedPayload lib pair.2 pair.1).avpf := by
  unfold entries at h
  rcases List.mem_cons.mp h with rfl | h
  · rfl
  · split at h
    · rw [List.mem_singleton.mp h]
    · exact absurd h List.not_mem_nil

end

theorem head_mem_entries (reading : Bool) (pair : PayloadType × PayloadType) :
    negotiatedPayload lib pair.2 pair.1 ∈ entries lib reading pair :=
  List.mem_cons_self

/-! ## One run -/

/-- Every entry made from a remote one with RTCP feedback carries the negotiated parameters. -/
def EntriesNegotiated (locals remote : List PayloadType) (reading one : Bool) : Prop :=
  ∀ pair ∈ matchedPairs lib one locals false remote, pair.1.flags.rtcpFeedbackEnabled →
    ∀ r ∈ entries lib reading pair, AvpfNegotiated pair.2 pair.1 r

/-- **The entries are right exactly when no remote interval is bigger than the local one.** -/
theorem entriesNegotiated_iff (locals remote : List PayloadType) (reading one : Bool) :
    EntriesNegotiated lib locals remote reading one ↔
      ∀ pair ∈ matchedPairs lib one locals false remote, pair.1.flags.rtcpFeedbackEnabled →
        pair.1.avpf.trrInterval ≤ pair.2.avpf.trrInterval := by
  constructor
  · intro h pair hpair hfb
    have hmax := (h pair hpair hfb _ (head_mem_entries lib reading pair)).trrInterval
    rw [negotiatedPayload_trrInterval] at hmax
    exact eq_max_self_iff.mp hmax
  · intro h pair hpair hfb r hr
    have havpf := entries_avpf lib hr
    constructor
    · rw [havpf, negotiatedPayload_features lib hfb]
    · rw [havpf, negotiatedPayload_trrInterval]
      exact eq_max_self_iff.mpr (h pair hpair hfb)

/-! ## Both ends -/

/-- A way that carries the feedback parameters too. -/
structure FeedbackWire extends Wire where
  feedback : ∀ pt, (carry pt).flags.rtcpFeedbackEnabled = pt.flags.rtcpFeedbackEnabled
  avpf : ∀ pt, (carry pt).avpf = pt.avpf

variable (there back : FeedbackWire) (caps offer : List PayloadType) (one : Bool)

/-- What is matched with what at the offerer. -/
def offererPairs : List (PayloadType × PayloadType) :=
  matchedPairs lib false offer false
    ((answeredPairs lib there.toWire caps offer one).map (readAnswer lib back.toWire))

/-- For a codec with RTCP feedback the offerer ends with what was answered. -/
def EndsAgree : Prop :=
  ∀ pair ∈ answeredPairs lib there.toWire caps offer one, pair.1.flags.rtcpFeedbackEnabled →
    ∀ own, (readAnswer lib back.toWire pair, own) ∈ offererPairs lib there back caps offer one →
      ∀ r ∈ entries lib true (readAnswer lib back.toWire pair, own),
        SameAvpf r (negotiatedPayload lib pair.2 pair.1)

/-- The offered payload type that the answer is matched with has the interval of the answerer
and all features that were answered. -/
def FoundWithSame (pair : PayloadType × PayloadType) (own : PayloadType) : Prop :=
  own.avpf.trrInterval = pair.2.avpf.trrInterval ∧
    own.avpf.features &&& (pair.2.avpf.features &&& pair.1.avpf.features) =
      pair.2.avpf.features &&& pair.1.avpf.features

theorem readAnswer_feedback {pair : PayloadType × PayloadType}
    (h : pair.1.flags.rtcpFeedbackEnabled) :
    (readAnswer lib back.toWire pair).flags.rtcpFeedbackEnabled = true := by
  rw [readAnswer, back.feedback, negotiatedPayload_feedback lib h]

theorem readAnswer_avpf (pair : PayloadType × PayloadType) :
    (readAnswer lib back.toWire pair).avpf = (negotiatedPayload lib pair.2 pair.1).avpf :=
  back.avpf _

/-- What the offerer makes of the answer for one pair. -/
theorem sameAvpf_iff {pair : PayloadType × PayloadType} (own : PayloadType)
    (h : pair.1.flags.rtcpFeedbackEnabled) :
    (∀ r ∈ entries lib true (readAnswer lib back.toWire pair, own),
        SameAvpf r (negotiatedPayload lib pair.2 pair.1)) ↔ FoundWithSame pair own := by
  have hfeatures : (negotiatedPayload lib own (readAnswer lib back.toWire pair)).avpf.features =
      own.avpf.features &&& (pair.2.avpf.features &&& pair.1.avpf.features) := by
    rw [negotiatedPayload_features lib (readAnswer_feedback lib back h), readAnswer_avpf,
      negotiatedPayload_features lib h]
  constructor
  · intro hall
    have hsame := hall _ (head_mem_entries lib true _)
    constructor
    · rw [← negotiatedPayload_trrInterval lib own, hsame.trrInterval,
        negotiatedPayload_trrInterval]
    · rw [← hfeatures, hsame.features, negotiatedPayload_features lib h]
  · rintro ⟨htrr, hsub⟩ r hr
    have havpf := entries_avpf lib hr
    constructor
    · rw [havpf, hfeatures, hsub, negotiatedPayload_features lib h]
    · rw [havpf, negotiatedPayload_trrInterval, negotiatedPayload_trrInterval, htrr]

/-- What the negotiation of the parameters should give, in either mode of `match_payloads`. -/
structure AvpfLawful (reading : Bool) : Prop where
  entries : EntriesNegotiated lib caps (offer.map there.carry) reading one
  agree : EndsAgree lib there back caps offer one

/-- **The AVPF parameters are negotiated exactly when no interval has to change**: the local
interval is at least the remote one, and the offerer finds a payload type with the interval of
the answerer and the answered features. -/
theorem avpf_lawful_iff (reading : Bool) :
    AvpfLawful lib there back caps offer one reading ↔
      ∀ pair ∈ answeredPairs lib there.toWire caps offer one,
        pair.1.flags.rtcpFeedbackEnabled →
          pair.1.avpf.trrInterval ≤ pair.2.avpf.trrInterval ∧
            ∀ own, (readAnswer lib back.toWire pair, own) ∈
              offererPairs lib there back caps offer one → FoundWithSame pair own := by
  constructor
  · intro h pair hpair hfb
    refine ⟨(entriesNegotiated_iff lib ..).mp h.entries pair hpair hfb, fun own hown => ?_⟩
    exact (sameAvpf_iff lib back own hfb).mp (h.agree pair hpair hfb own hown)
  · intro h
    constructor
    · exact (entriesNegotiated_iff lib ..).mpr fun pair hpair hfb => (h pair hpair hfb).1
    · intro pair hpair hfb own hown
      exact (sameAvpf_iff lib back own hfb).mpr ((h pair hpair hfb).2 own hown)

/-! ## An interval that has to change -/

/-- `plainWire` with the feedback parameters. -/
def plainFeedbackWire : FeedbackWire where
  carry pt :=
    { plainWire.carry pt with
      avpf := pt.avpf, flags := { rtcpFeedbackEnabled := pt.flags.rtcpFeedbackEnabled } }
  carried _ := ⟨rfl, rfl, rfl⟩
  feedback _ := rfl
  avpf _ := rfl

/-- `VP8` with a regular RTCP interval. -/
def vp8 (trrInterval : UInt16) : PayloadType :=
  { mimeType := "VP8", clockRate := 90000, number := 96
    flags := { rtcpFeedbackEnabled := true }
    avpf := { features := 1, trrInterval } }

/-- The answerer is at one second and is asked for five: it answers one second. -/
theorem interval_not_negotiated :
    ¬AvpfLawful plainLib plainFeedbackWire plainFeedbackWire [vp8 1000] [vp8 5000] false false := by
  intro h
  have hpairs : matchedPairs plainLib false [vp8 1000] false
      ([vp8 5000].map plainFeedbackWire.carry) = [(vp8 5000, vp8 1000)] := by decide
  have hentries := h.entries
  rw [EntriesNegotiated, hpairs] at hentries
  have hentry := hentries _ (List.mem_singleton_self _) rfl _ (head_mem_entries plainLib false _)
  exact absurd hentry.trrInterval (by decide)

end Linphone
