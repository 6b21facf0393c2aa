import Linphone.Call.Destinations

/-!
# What running streams were started on

A start makes the profile of a stream (`make_profile`) from the result it is given. Streams that are
kept go on with the profile of an older result, and nothing but the comparison of the results makes
that right. It does not look at format parameters: what a peer changes of these is lost.
-/

namespace Linphone

theorem SameKind.trans {sd1 sd2 sd3 : SalStreamDescription} (h : SameKind sd1 sd2)
    (h' : SameKind sd2 sd3) : SameKind sd1 sd3 where
  proto := h.proto.trans h'.proto
  type := h.type.trans h'.type
  refused := h.refused.trans h'.refused
  payloads := h'.payloads.trans h.payloads
  bandwidth := h.bandwidth.trans h'.bandwidth
  ptime := h.ptime.trans h'.ptime
  dir := h.dir.trans h'.dir

/-- A call, and the result its streams were last started on. -/
structure StartedCall where
  call : MediaCall
  startedOn : Option SalMediaDescription

namespace StartedCall

variable {lib : MediaLib} {s s' : StartedCall}

/-- An event starts the streams on its result when it does not keep them. -/
def apply (lib : MediaLib) (s : StartedCall) (e : MediaEvent) : Option StartedCall :=
  (s.call.apply lib e).map fun call =>
    { call := call
      startedOn := e.result.elim s.startedOn fun update =>
        ((s.call.rememberBiggest update.1 update.2).kept lib update.1 update.2).elim
          (some update.2) fun _ => s.startedOn }

/-- **Running streams have the profile of the last result**, though it may not be the one that they
were started on. -/
def Profiled (s : StartedCall) : Prop :=
  ∀ md ∈ s.call.resultdesc, PortsValid md ∧ ∀ type, (s.call.slot type).running →
    ∃ md1 i, s.startedOn = some md1 ∧ MediaCall.startable md1 type = some (md1.stream i) ∧
      md.findBestStream type = some i ∧ md1.bandwidth = md.bandwidth ∧
      SameKind (md1.stream i) (md.stream i)

theorem Profiled.apply {e : MediaEvent} (h : s.Profiled)
    (he : ∀ update ∈ e.result, PortsValid update.2) (happly : s.apply lib e = some s') :
    s'.Profiled := by
  obtain ⟨c', hc', rfl⟩ := Option.map_eq_some_iff.mp happly
  intro md hmd
  cases hresult : e.result with
  | none =>
    obtain ⟨hres, hslots⟩ := MediaCall.apply_of_no_result hresult hc'
    obtain ⟨hports, hprofiles⟩ := h md (hres ▸ hmd)
    exact ⟨hports, fun type hr => hprofiles type (hslots type hr).1⟩
  | some update =>
    obtain ⟨env, new⟩ := update
    have hnew := he _ hresult
    obtain rfl := MediaEvent.result_eq_some hresult
    simp only [MediaCall.apply, MediaCall.updateStreams] at hc'
    dsimp only [Option.elim]
    cases hkept : (s.call.rememberBiggest env new).kept lib env new with
    | some old =>
      simp only [hkept, Option.some.injEq] at hc'
      subst hc'
      obtain rfl := Option.some.inj hmd
      obtain ⟨hports, hprofiles⟩ := h old (Option.filter_eq_some_iff.mp hkept).1
      obtain ⟨hnb, hbandwidth, hequals⟩ := sameKinds_of_equals (MediaCall.equals_of_kept hkept).2
      refine ⟨hnew, fun type hr => ?_⟩
      rw [MediaCall.slot_resultdesc, MediaSlot.running, MediaCall.keepStreams_slot_stream] at hr
      obtain ⟨md1, i, hstarted, hstartable, hbest, hlimit, hsame⟩ := hprofiles type hr
      refine ⟨md1, i, hstarted, hstartable, ?_, hlimit.trans hbandwidth,
        hsame.trans (sameKind_of_equals (hequals i (findBestStream_lt hbest)))⟩
      rw [← findBestStream_eq hports hnew hnb fun i hi => sameKind_of_equals (hequals i hi)]
      exact hbest
    | none =>
      simp only [hkept] at hc'
      obtain ⟨hres, hslots⟩ := MediaCall.restartStreams_started hc'
      obtain rfl := Option.some.inj (hres.symm.trans hmd)
      refine ⟨hnew, fun type hr => ?_⟩
      obtain ⟨i, rtcp, hstartable, hbest, -⟩ := hslots type hr
      exact ⟨new, i, rfl, hstartable, hbest, rfl, ⟨rfl, rfl, .rfl, List.prefix_rfl, rfl, rfl, rfl⟩⟩

end StartedCall

end Linphone
