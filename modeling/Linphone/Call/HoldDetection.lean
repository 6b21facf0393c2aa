import Linphone.Call.Upcalls

/-!
# How a peer signals hold

A peer puts a call on hold with the attribute `sendonly`, or with a null address in a stream that
sends and receives. `has_dir` of `coreapi/sal.c` takes the second for the first when it is asked for
`sendonly`; but the stream still counts as one that sends and receives, and most queries of
`sal_media_description_has_dir` ask for that too.

`hold_signalled_iff`: both ways are answered alike, and `call_updating` (`coreapi/callbacks.c`)
treats them alike, exactly if no stream is held by its address or another one goes on.
-/

namespace Linphone

open Reentrant

/-! ## What an offer is taken for -/

/-- What `call_updating` does with an offer. -/
inductive UpdatingHandler
  | callResumed
  | callPausedByRemote
  | callUpdatedByRemote
  | decline
  | nothing
deriving DecidableEq

/-- The choice of `call_updating`. -/
def updatingHandler (rmd : SalMediaDescription) (isUpdate : Bool) :
    CallState → UpdatingHandler
  | .pausedByRemote =>
      if rmd.hasDir .sendRecv || rmd.hasDir .recvOnly then .callResumed else .callUpdatedByRemote
  | .outgoingRinging | .outgoingEarlyMedia | .incomingEarlyMedia =>
      if isUpdate then .callUpdatedByRemote else .nothing
  | .streamsRunning | .connected | .paused =>
      if rmd.hasDir .sendOnly || rmd.hasDir .inactive then .callPausedByRemote
      else .callUpdatedByRemote
  | .updating | .pausing | .resuming | .updatedByRemote => .decline
  | _ => .nothing

def UpdatingHandler.run (c : CallId) (isUpdate : Bool) : UpdatingHandler → CoreProg Unit
  | .callResumed => Linphone.callResumed c
  | .callPausedByRemote => Linphone.callPausedByRemote c
  | .callUpdatedByRemote => Linphone.callUpdatedByRemote c isUpdate
  | .decline => respond c
  | .nothing => pure ()

/-- `call_updating` runs what is chosen. -/
theorem callUpdating_eq (c : CallId) (isUpdate : Bool) :
    callUpdating c isUpdate = (do
      let rmd ← query (.remoteDescription c)
      let r ← readCall c
      match rmd with
      | none => callUpdatedByRemote c isUpdate
      | some rmd => (updatingHandler rmd isUpdate r.vars.state).run c isUpdate) := by
  unfold callUpdating
  congr 1
  funext rmd
  congr 1
  funext r
  cases rmd with
  | none => rfl
  | some rmd =>
    dsimp only
    cases r.vars.state with
    | pausedByRemote | streamsRunning | connected | paused =>
      simp only [updatingHandler]
      split_ifs
      · rfl
      · rfl
    | outgoingRinging | outgoingEarlyMedia | incomingEarlyMedia =>
      cases isUpdate with
      | false => rfl
      | true => rfl
    | _ => rfl

/-! ## The same offer with the attribute -/

namespace SalMediaDescription

variable (md : SalMediaDescription)

/-- A stream whose address says that it is held. -/
def HeldByAddress (ss : SalStreamDescription) : Prop :=
  ss.active = true ∧ ss.dir = .sendRecv ∧
    (isNullAddress md.addr = true ∨ isNullAddress ss.rtpAddr = true)

instance (ss : SalStreamDescription) : Decidable (md.HeldByAddress ss) :=
  inferInstanceAs (Decidable (_ ∧ _))

/-- A stream that sends and receives, at an address. -/
def GoesOn (ss : SalStreamDescription) : Prop :=
  ss.active = true ∧ ss.dir = .sendRecv ∧
    isNullAddress md.addr = false ∧ isNullAddress ss.rtpAddr = false

/-- The description with the streams that are held by their address marked `sendonly`. -/
def markSendOnly : SalMediaDescription :=
  md.mapStreams fun _ ss => if md.HeldByAddress ss then { ss with dir := .sendOnly } else ss

/-- The claim about each query, and about `call_updating` in each state. -/
structure SameHold (md' : SalMediaDescription) : Prop where
  hasDir : ∀ dir, md.hasDir dir = md'.hasDir dir
  updating : ∀ isUpdate state, updatingHandler md isUpdate state =
    updatingHandler md' isUpdate state

variable {md}

theorem someHasDir_iff {dir : SalStreamDir} : md.someHasDir dir = true ↔
    ∃ i < md.nbStreams, (md.stream i).active = true ∧
      ((md.stream i).dir = dir ∨ dir = .sendOnly ∧ md.HeldByAddress (md.stream i)) := by
  simp only [someHasDir, List.any_eq_true, List.mem_range, Bool.and_eq_true, Bool.or_eq_true,
    beq_iff_eq, HeldByAddress]
  refine exists_congr fun i => and_congr_right fun _ => and_congr_right fun hactive => ?_
  simp only [hactive, true_and]
  tauto

theorem heldByAddress_or_goesOn {ss : SalStreamDescription} (hactive : ss.active = true)
    (hdir : ss.dir = .sendRecv) : md.HeldByAddress ss ∨ md.GoesOn ss := by
  by_cases hheld : md.HeldByAddress ss
  · exact .inl hheld
  · refine .inr ⟨hactive, hdir, ?_, ?_⟩
    · exact Bool.eq_false_iff.mpr fun hnull => hheld ⟨hactive, hdir, .inl hnull⟩
    · exact Bool.eq_false_iff.mpr fun hnull => hheld ⟨hactive, hdir, .inr hnull⟩

/-- What is found of a description that is marked. -/
theorem someHasDir_markSendOnly {dir : SalStreamDir} : md.markSendOnly.someHasDir dir = true ↔
    ∃ i < md.nbStreams, (md.stream i).active = true ∧
      if md.HeldByAddress (md.stream i) then dir = .sendOnly else (md.stream i).dir = dir := by
  have hstream : ∀ i < md.nbStreams, md.markSendOnly.stream i =
      if md.HeldByAddress (md.stream i) then { md.stream i with dir := .sendOnly }
      else md.stream i := fun i hi => md.stream_mapStreams _ hi
  rw [someHasDir_iff]
  refine exists_congr fun i => and_congr_right fun hi => ?_
  have hmarked := hstream i hi
  by_cases hheld : md.HeldByAddress (md.stream i)
  · rw [if_pos hheld] at hmarked
    rw [hmarked, if_pos hheld]
    simp only [HeldByAddress, reduceCtorEq, false_and, and_false, or_false]
    exact and_congr_right fun _ => eq_comm
  · rw [if_neg hheld] at hmarked
    have hheld' : ¬md.markSendOnly.HeldByAddress (md.stream i) := hheld
    rw [hmarked, if_neg hheld]
    simp only [hheld', and_false, or_false]

/-- No direction is lost or found but `sendrecv`, which is left to the streams that go on. -/
theorem someHasDir_sendRecv_markSendOnly :
    md.markSendOnly.someHasDir .sendRecv = true ↔ ∃ i < md.nbStreams, md.GoesOn (md.stream i) := by
  rw [someHasDir_markSendOnly]
  refine exists_congr fun i => and_congr_right fun _ => ?_
  constructor
  · rintro ⟨hactive, hdir⟩
    split at hdir
    · cases hdir
    · next hheld => exact (heldByAddress_or_goesOn hactive hdir).resolve_left hheld
  · rintro ⟨hactive, hdir, haddr, hrtp⟩
    refine ⟨hactive, ?_⟩
    rw [if_neg]
    · exact hdir
    · rintro ⟨-, -, hnull | hnull⟩
      · rw [haddr] at hnull
        cases hnull
      · rw [hrtp] at hnull
        cases hnull

theorem someHasDir_recvOnly_markSendOnly :
    md.markSendOnly.someHasDir .recvOnly = md.someHasDir .recvOnly := by
  rw [Bool.eq_iff_iff, someHasDir_markSendOnly, someHasDir_iff]
  refine exists_congr fun i => and_congr_right fun _ => and_congr_right fun _ => ?_
  by_cases hheld : md.HeldByAddress (md.stream i)
  · rw [if_pos hheld]
    simp [hheld.2.1]
  · rw [if_neg hheld]
    simp

theorem someHasDir_sendOnly_markSendOnly :
    md.markSendOnly.someHasDir .sendOnly = md.someHasDir .sendOnly := by
  rw [Bool.eq_iff_iff, someHasDir_markSendOnly, someHasDir_iff]
  refine exists_congr fun i => and_congr_right fun _ => and_congr_right fun _ => ?_
  by_cases hheld : md.HeldByAddress (md.stream i)
  · rw [if_pos hheld]
    simp [hheld]
  · rw [if_neg hheld]
    simp [hheld]

/-- **Hold is detected however it is signalled** exactly if no stream is held by its address, or
some other stream goes on. -/
theorem hold_signalled_iff (md : SalMediaDescription) :
    md.SameHold md.markSendOnly ↔
      (∀ i < md.nbStreams, ¬md.HeldByAddress (md.stream i)) ∨
        ∃ i < md.nbStreams, md.GoesOn (md.stream i) := by
  have hback : md.markSendOnly.someHasDir .sendRecv = true → md.someHasDir .sendRecv = true := by
    intro h
    obtain ⟨i, hi, hgoes⟩ := someHasDir_sendRecv_markSendOnly.mp h
    exact someHasDir_iff.mpr ⟨i, hi, hgoes.1, .inl hgoes.2.1⟩
  constructor
  · intro h
    rw [or_iff_not_imp_left]
    intro hsome
    simp only [not_forall, not_not] at hsome
    obtain ⟨i, hi, hheld⟩ := hsome
    have hboth : md.someHasDir .sendRecv = true :=
      someHasDir_iff.mpr ⟨i, hi, hheld.1, .inl hheld.2.1⟩
    exact someHasDir_sendRecv_markSendOnly.mp ((h.hasDir .sendRecv).symm.trans hboth)
  · intro h
    have hsame : md.markSendOnly.someHasDir .sendRecv = md.someHasDir .sendRecv := by
      refine Bool.eq_iff_iff.mpr ⟨hback, fun hboth => ?_⟩
      refine someHasDir_sendRecv_markSendOnly.mpr (h.elim (fun hnone => ?_) id)
      obtain ⟨i, hi, hactive, hdir | hdir⟩ := someHasDir_iff.mp hboth
      · exact ⟨i, hi, (heldByAddress_or_goesOn hactive hdir).resolve_left (hnone i hi)⟩
      · cases hdir.1
    have hdirs : ∀ dir, md.hasDir dir = md.markSendOnly.hasDir dir := by
      intro dir
      cases dir with
      | recvOnly | sendOnly | sendRecv | inactive =>
        simp only [hasDir, hsame, someHasDir_recvOnly_markSendOnly,
          someHasDir_sendOnly_markSendOnly]
    refine ⟨hdirs, fun isUpdate state => ?_⟩
    cases state with
    | _ => simp only [updatingHandler, hdirs]

/-- An offer with one stream, at the null address. -/
def nullAddressOffer : SalMediaDescription where
  addr := "192.0.2.1"
  nbStreams := 1
  streams := (Vector.replicate maxStreams {}).set 0 { rtpPort := 7078, rtpAddr := "0.0.0.0" }

/-- A stream at the null address does not put the call on hold, `sendonly` does. -/
theorem null_address_no_hold :
    updatingHandler nullAddressOffer false .streamsRunning = .callUpdatedByRemote ∧
      updatingHandler nullAddressOffer.markSendOnly false .streamsRunning = .callPausedByRemote ∧
      ¬nullAddressOffer.SameHold nullAddressOffer.markSendOnly := by
  have hsendRecv : nullAddressOffer.hasDir .sendRecv = true := by decide
  have hmarked : nullAddressOffer.markSendOnly.hasDir .sendRecv = false := by decide
  refine ⟨by decide, by decide, fun h => ?_⟩
  have hsame := h.hasDir .sendRecv
  rw [hsendRecv, hmarked] at hsame
  cases hsame

end SalMediaDescription

end Linphone
