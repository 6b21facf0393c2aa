import Linphone.Call.StreamKeys
import Linphone.Lib.Returns

/-!
# Where running streams send to

A start gives each stream the addresses of the result it is started with. Streams that are kept are
given new ones only when the comparison of the results says that the network has changed, and then
by `linphone_core_update_streams_destinations`, which looks for the streams and for the RTCP port in
its own way. Over all events of a call both come to the same: in every state that is reached,
running streams send to where a start on the last result would have them send.
-/

namespace Linphone

/-! ## What an equal description has in common -/

/-- A bit, or several, of a mask. -/
structure MaskBit (bit : MediaChanges → Bool) : Prop where
  unchanged : bit .unchanged = false
  or : ∀ a b, bit (a ||| b) = (bit a || bit b)

theorem maskBit_network : MaskBit MediaChanges.network := ⟨rfl, fun _ _ => rfl⟩

theorem maskBit_restarts : MaskBit MediaChanges.restarts := by
  refine ⟨rfl, fun a b => ?_⟩
  obtain ⟨_, codec, _, _, streams, xxxcast, force⟩ := a
  show (codec || _ || (streams || _) || (xxxcast || _) || (force || _)) =
    (codec || streams || xxxcast || force || (_ || _ || _ || _))
  ac_rfl

namespace MaskBit

variable {bit : MediaChanges → Bool} (h : MaskBit bit)

include h

theorem when_eq (b : Bool) (c : MediaChanges) : bit (.when b c) = (b && bit c) := by
  cases b with
  | true => rfl
  | false => exact h.unchanged

theorem foldl_eq {α : Type} (f : α → MediaChanges) (l : List α) (start : MediaChanges) :
    bit (l.foldl (fun result a => result ||| f a) start) =
      (bit start || l.any fun a => bit (f a)) := by
  induction l generalizing start with
  | nil => simp
  | cons a l ih => rw [List.foldl_cons, ih, h.or, List.any_cons, Bool.or_assoc]

end MaskBit

section

variable {lib : MediaLib} {old new : SalMediaDescription}

/-- What `payload_type_equals` compares. -/
def PayloadType.compared (p : PayloadType) : Nat × String × Int × Int × Int :=
  (p.type, p.mimeType, p.clockRate, p.channels, p.number)

theorem compared_prefix {l1 l2 : List PayloadType} (h : payloadListEquals l1 l2 = true) :
    l2.map (·.compared) <+: l1.map (·.compared) := by
  induction l1, l2 using payloadListEquals.induct with
  | case1 p1 l1 p2 l2 ih =>
    obtain ⟨hhead, htail⟩ := Bool.and_eq_true_iff.mp h
    have heq : p1.compared = p2.compared := by
      simpa [payloadTypeEquals, PayloadType.compared, and_assoc] using hhead
    rw [List.map_cons, List.map_cons, List.cons_prefix_cons]
    exact ⟨heq.symm, ih htail⟩
  | case2 l1 => exact List.nil_prefix
  | case3 p2 l2 => cases h

/-- What two streams share when the comparison asks for no restart. The first one may have more
payloads. -/
structure SameKind (sd1 sd2 : SalStreamDescription) : Prop where
  proto : sd1.proto = sd2.proto
  type : sd1.type = sd2.type
  refused : sd1.rtpPort = 0 ↔ sd2.rtpPort = 0
  payloads : sd2.payloads.map (·.compared) <+: sd1.payloads.map (·.compared)
  bandwidth : sd1.bandwidth = sd2.bandwidth
  ptime : sd1.ptime = sd2.ptime
  dir : sd1.dir = sd2.dir

theorem sameKind_of_equals {sd1 sd2 : SalStreamDescription}
    (h : (salStreamDescriptionEquals lib sd1 sd2).restarts = false) : SameKind sd1 sd2 := by
  have hchange : ∀ b c, (b && MediaChanges.restarts c) = false → c.restarts = true → b = false := by
    intro b c h hc
    rwa [hc, Bool.and_true] at h
  simp only [salStreamDescriptionEquals, maskBit_restarts.or, maskBit_restarts.when_eq,
    Bool.or_eq_false_iff] at h
  obtain ⟨⟨⟨⟨⟨⟨⟨⟨⟨⟨⟨⟨⟨hproto, -⟩, htype⟩, -⟩, -⟩, hport⟩, -⟩, -⟩, hpayloads⟩, hbandwidth⟩, hptime⟩,
    hdir⟩, -⟩, -⟩ := h
  refine ⟨by simpa using hchange _ _ hproto rfl, by simpa using hchange _ _ htype rfl, ?_,
    compared_prefix (by simpa using hchange _ _ hpayloads rfl),
    by simpa using hchange _ _ hbandwidth rfl, by simpa using hchange _ _ hptime rfl,
    by simpa using hchange _ _ hdir rfl⟩
  by_cases hsame : sd1.rtpPort = sd2.rtpPort
  · rw [hsame]
  · by_cases hzero : sd1.rtpPort = 0 ∨ sd2.rtpPort = 0
    · simp [hsame, hzero, MediaChanges.restarts] at hport
    · exact iff_of_false (fun h => hzero (.inl h)) fun h => hzero (.inr h)

theorem sameAddresses_of_equals {sd1 sd2 : SalStreamDescription}
    (hrestarts : (salStreamDescriptionEquals lib sd1 sd2).restarts = false)
    (h : (salStreamDescriptionEquals lib sd1 sd2).network = false) :
    sd1.rtpAddr = sd2.rtpAddr ∧ sd1.rtpPort = sd2.rtpPort ∧ sd1.rtcpAddr = sd2.rtcpAddr ∧
      sd1.rtcpPort = sd2.rtcpPort := by
  have hkind := sameKind_of_equals hrestarts
  simp only [salStreamDescriptionEquals, maskBit_network.or, maskBit_network.when_eq,
    Bool.or_eq_false_iff] at h
  obtain ⟨⟨⟨⟨⟨⟨⟨⟨⟨⟨⟨-, hrtpAddr⟩, -⟩, hport⟩, hrtcpAddr⟩, hrtcpPort⟩, -⟩, -⟩, -⟩, -⟩, -⟩, -⟩ := h
  refine ⟨by simpa using hrtpAddr, ?_, by simpa using hrtcpAddr, by simpa using hrtcpPort⟩
  by_contra hne
  by_cases hzero : sd1.rtpPort = 0 ∨ sd2.rtpPort = 0
  · rcases hzero with hzero | hzero
    · exact hne (hzero.trans (hkind.refused.mp hzero).symm)
    · exact hne ((hkind.refused.mpr hzero).trans hzero.symm)
  · simp [hne, hzero] at hport

/-- The streams of two results that ask for no restart are of the same kinds. -/
theorem sameKinds_of_equals (h : (salMediaDescriptionEquals lib old new).restarts = false) :
    old.nbStreams = new.nbStreams ∧ old.bandwidth = new.bandwidth ∧
      ∀ i < old.nbStreams,
        (salStreamDescriptionEquals lib (old.stream i) (new.stream i)).restarts = false := by
  simp only [salMediaDescriptionEquals, maskBit_restarts.or, maskBit_restarts.when_eq,
    maskBit_restarts.foldl_eq, maskBit_restarts.unchanged, Bool.or_eq_false_iff] at h
  obtain ⟨⟨⟨⟨-, -⟩, hnb⟩, hbandwidth⟩, -, hstreams⟩ := h
  refine ⟨by simpa [MediaChanges.restarts] using hnb,
    by simpa [MediaChanges.restarts] using hbandwidth, fun i hi => ?_⟩
  have hi' := List.any_eq_false.mp hstreams i (List.mem_range.mpr hi)
  simpa using hi'

theorem sameAddresses_of_network (h : (salMediaDescriptionEquals lib old new).network = false) :
    old.addr = new.addr ∧
      ∀ i < old.nbStreams,
        (salStreamDescriptionEquals lib (old.stream i) (new.stream i)).network = false := by
  simp only [salMediaDescriptionEquals, maskBit_network.or, maskBit_network.when_eq,
    maskBit_network.foldl_eq, maskBit_network.unchanged, Bool.or_eq_false_iff] at h
  obtain ⟨⟨⟨⟨haddr, -⟩, -⟩, -⟩, -, hstreams⟩ := h
  refine ⟨by simpa using haddr, fun i hi => ?_⟩
  have hi' := List.any_eq_false.mp hstreams i (List.mem_range.mpr hi)
  simpa using hi'

theorem findBestStream_lt {md : SalMediaDescription} {type : SalStreamType} {i : Nat}
    (h : md.findBestStream type = some i) : i < md.nbStreams := by
  have hfind : ∀ proto, md.findStream proto type = some i → i < md.nbStreams :=
    fun _ h => (SalMediaDescription.findStream_eq_some.mp h).2.1
  simp only [SalMediaDescription.findBestStream, SalMediaDescription.findSecureStreamOfType,
    Option.orElse_eq_orElse, Option.orElse_eq_or, Option.or_eq_some_iff] at h
  rcases h with h | ⟨-, h | ⟨-, (h | ⟨-, h⟩) | ⟨-, h | ⟨-, h⟩⟩⟩⟩ <;> exact hfind _ h

/-- No port is negative. -/
def PortsValid (md : SalMediaDescription) : Prop := ∀ i < md.nbStreams, 0 ≤ (md.stream i).rtpPort

/-- **The best streams stay where they are** when those of a place are of the same kind. -/
theorem findBestStream_eq (hold : PortsValid old) (hnew : PortsValid new)
    (hnb : old.nbStreams = new.nbStreams)
    (hkinds : ∀ i < old.nbStreams, SameKind (old.stream i) (new.stream i)) (type : SalStreamType) :
    old.findBestStream type = new.findBestStream type := by
  have hfind : ∀ proto, old.findStream proto type = new.findStream proto type := by
    intro proto
    unfold SalMediaDescription.findStream
    rw [← hnb]
    apply find?_congr
    intro i hi
    have hlt := List.mem_range.mp hi
    have hkind := hkinds i hlt
    have hactive : (old.stream i).active = (new.stream i).active := by
      have hzero := hkind.refused
      have hpos := hold i hlt
      have hpos' := hnew i (hnb ▸ hlt)
      unfold SalStreamDescription.active
      rw [decide_eq_decide]
      omega
    rw [hactive, hkind.proto, hkind.type]
  simp only [SalMediaDescription.findBestStream, SalMediaDescription.findSecureStreamOfType, hfind]

end

/-! ## One update -/

namespace MediaCall

variable (lib : MediaLib) (env : UpdateEnv) (c : MediaCall)

/-- Every running stream sends to where a start on `md` would have it send. -/
def DirectedBy (md : SalMediaDescription) : Prop :=
  ∀ type, (c.slot type).running → ∃ i, md.findBestStream type = some i ∧
    (c.slot type).destination = startDestination md (md.stream i) true

/-- A result whose best streams are the only active ones of their type, with an RTCP port and a
unicast address, for a core that uses RTCP. -/
structure Reported (new : SalMediaDescription) : Prop where
  rtcp : env.rtcpEnabled = true
  ports : PortsValid new
  best : ∀ type i, new.findBestStream type = some i →
    lastActive new type = some (new.stream i) ∧ (new.stream i).rtcpPort ≠ 0 ∧
      lib.isMulticast (rtpAddrOf new (new.stream i)) = false

theorem openSlot_directed {slot slot' : MediaSlot} {type : SalStreamType}
    {s : SalStreamDescription} {starts : Bool} {destination : Destination}
    (hn : slot.running = false) (h : c.openSlot slot type s starts destination = some slot')
    (hr : slot'.running = true) : slot'.destination = destination := by
  obtain ⟨keys, -, rfl⟩ := Option.map_eq_some_iff.mp h
  cases starts with
  | true => rfl
  | false => exact absurd hr (ne_true_of_eq_false hn)

/-- The slot was started on the best stream of `new`, and with RTCP where that is possible. -/
def StartedOn (new : SalMediaDescription) (type : SalStreamType) (slot : MediaSlot) : Prop :=
  ∃ i rtcp, startable new type = some (new.stream i) ∧ new.findBestStream type = some i ∧
    slot.destination = startDestination new (new.stream i) rtcp ∧
    (env.rtcpEnabled = true → lib.isMulticast (rtpAddrOf new (new.stream i)) = false → rtcp = true)

variable {lib env c} {c' : MediaCall} {old new : SalMediaDescription}

theorem startAudioStream_started (hn : c.audio.running = false)
    (h : c.startAudioStream lib env new = some c') :
    c'.video = c.video ∧ c'.resultdesc = c.resultdesc ∧
      (c'.audio.running → StartedOn lib env new .audio c'.audio) := by
  unfold startAudioStream at h
  cases hs : startable new .audio with
  | none =>
    rw [hs] at h
    obtain rfl := Option.some.inj h
    exact ⟨rfl, rfl, fun hr => absurd hr (ne_true_of_eq_false hn)⟩
  | some s =>
    rw [hs] at h
    obtain ⟨i, hbest, rfl⟩ := startable_eq_some hs
    obtain ⟨audio, haudio, rfl⟩ := Option.map_eq_some_iff.mp h
    exact ⟨rfl, rfl, fun hr => ⟨i, _, hs, hbest, c.openSlot_directed hn haudio hr,
      fun hrtcp hunicast => by simp [hrtcp, hunicast]⟩⟩

theorem startVideoStream_started (hn : c.video.running = false)
    (h : c.startVideoStream lib env new = some c') :
    c'.audio = c.audio ∧ c'.resultdesc = c.resultdesc ∧
      (c'.video.running → StartedOn lib env new .video c'.video) := by
  unfold startVideoStream at h
  cases hs : startable new .video with
  | none =>
    rw [hs] at h
    obtain rfl := Option.some.inj h
    exact ⟨rfl, rfl, fun hr => absurd hr (ne_true_of_eq_false hn)⟩
  | some s =>
    rw [hs] at h
    dsimp only at h
    split at h
    · obtain rfl := Option.some.inj h
      exact ⟨rfl, rfl, fun hr => absurd hr (ne_true_of_eq_false hn)⟩
    · obtain ⟨i, hbest, rfl⟩ := startable_eq_some hs
      obtain ⟨video, hvideo, rfl⟩ := Option.map_eq_some_iff.mp h
      exact ⟨rfl, rfl, fun hr => ⟨i, _, hs, hbest, c.openSlot_directed hn hvideo hr,
        fun hrtcp hunicast => by simp [hrtcp, hunicast]⟩⟩

/-- After a restart the streams that run are those that were started on the result. -/
theorem restartStreams_started (h : c.restartStreams lib env new = some c') :
    c'.resultdesc = some new ∧
      ∀ type, (c'.slot type).running → StartedOn lib env new type (c'.slot type) := by
  have hslot := c.restartFrom_slot lib env new
  unfold restartStreams startMediaStreams at h
  obtain ⟨c₁, h₁, h⟩ := Option.bind_eq_some_iff.mp h
  obtain ⟨c₂, h₂, rfl⟩ := Option.map_eq_some_iff.mp h
  have haudio : c₁.video = (c.restartFrom lib env new).video ∧ c₁.resultdesc = some new ∧
      (c₁.audio.running → StartedOn lib env new .audio c₁.audio) := by
    split at h₁
    · exact startAudioStream_started (hslot .audio).1 h₁
    · obtain rfl := Option.some.inj h₁
      exact ⟨rfl, rfl, fun hr => absurd hr (ne_true_of_eq_false (hslot .audio).1)⟩
  have hn : c₁.video.running = false := haudio.1 ▸ (hslot .video).1
  have hvideo : c₂.audio = c₁.audio ∧ c₂.resultdesc = c₁.resultdesc ∧
      (c₂.video.running → StartedOn lib env new .video c₂.video) := by
    split at h₂
    · exact startVideoStream_started hn h₂
    · obtain rfl := Option.some.inj h₂
      exact ⟨rfl, rfl, fun hr => absurd hr (ne_true_of_eq_false hn)⟩
  refine ⟨hvideo.2.1.trans haudio.2.1, fun type hr => ?_⟩
  cases type with
  | audio =>
    have hsame : c₂.audio = c₁.audio := hvideo.1
    have hr' : c₂.audio.running = true := hr
    show StartedOn lib env new .audio c₂.audio
    rw [hsame] at hr' ⊢
    exact haudio.2.2 hr'
  | video => exact hvideo.2.2 hr
  | other => cases hr

/-- **Streams that are started** send where the result says. -/
theorem restartStreams_directed (hnew : Reported lib env new)
    (h : c.restartStreams lib env new = some c') :
    c'.resultdesc = some new ∧ c'.DirectedBy new := by
  obtain ⟨hres, hstarted⟩ := restartStreams_started h
  refine ⟨hres, fun type hr => ?_⟩
  obtain ⟨i, rtcp, -, hbest, hdestination, hrtcp⟩ := hstarted type hr
  obtain ⟨-, -, hunicast⟩ := hnew.best type i hbest
  exact ⟨i, hbest, by rw [hdestination, hrtcp hnew.rtcp hunicast]⟩

/-- Where a slot sends to after its destination is looked up again. -/
theorem redirectSlot_destination {type : SalStreamType} {slot : MediaSlot}
    {s : SalStreamDescription} (hlast : lastActive new type = some s) (hport : s.rtcpPort ≠ 0)
    (hr : slot.running = true) :
    (redirectSlot new type slot).destination = startDestination new s true := by
  have hstarted : slot.stream = .started := of_decide_eq_true hr
  simp [redirectSlot, hlast, hstarted, startDestination, hport]

theorem keepStreams_slot_destination {changed : MediaChanges} (type : SalStreamType) :
    ((c.keepStreams old new changed).slot type).destination =
      if changed.network then (redirectSlot new type (c.slot type)).destination
      else (c.slot type).destination := by
  have hrekey : ∀ (c : MediaCall) (slot : MediaSlot) (type : SalStreamType),
      (c.rekeySlot old new type slot).destination = slot.destination := by
    intro c slot type
    unfold rekeySlot
    split <;> rfl
  have hother : redirectSlot new .other ({} : MediaSlot) = {} := by
    unfold redirectSlot
    split <;> rfl
  unfold keepStreams
  cases changed.network <;> cases changed.cryptoKeys <;> cases type <;>
    simp [slot, updateStreamsDestinations, updateCryptoParameters, hrekey, hother]

/-- Streams are kept when the comparison of the results asks for no restart. -/
theorem equals_of_kept (hkept : c.kept lib env new = some old) :
    c.mediaParametersChanged lib env old new =
        c.localdescChanged ||| salMediaDescriptionEquals lib old new ∧
      (salMediaDescriptionEquals lib old new).restarts = false := by
  obtain ⟨-, hcond⟩ := Option.filter_eq_some_iff.mp hkept
  simp only [Bool.and_eq_true, Bool.not_eq_true'] at hcond
  obtain ⟨⟨-, hrestarts⟩, -⟩ := hcond
  have hchanged : c.mediaParametersChanged lib env old new =
      c.localdescChanged ||| salMediaDescriptionEquals lib old new := by
    revert hrestarts
    unfold mediaParametersChanged
    split
    · exact fun h => by cases h
    · split
      · exact fun h => by cases h
      · exact fun _ => rfl
  rw [hchanged, maskBit_restarts.or, Bool.or_eq_false_iff] at hrestarts
  exact ⟨hchanged, hrestarts.2⟩

/-- **Streams that are kept** send where the new result says: they are given its addresses, or it
has those of the result before. -/
theorem keepStreams_directed (hold : PortsValid old) (hnew : Reported lib env new)
    (hkept : c.kept lib env new = some old) (hin : c.DirectedBy old) :
    (c.keepStreams old new (c.mediaParametersChanged lib env old new)).DirectedBy new := by
  obtain ⟨hchanged, hequals⟩ := equals_of_kept hkept
  obtain ⟨hnb, -, hkinds⟩ := sameKinds_of_equals hequals
  intro type hr
  have hrunning : (c.slot type).running = true := by
    rwa [MediaSlot.running, keepStreams_slot_stream] at hr
  obtain ⟨i, hbest, hdestination⟩ := hin type hrunning
  rw [findBestStream_eq hold hnew.ports hnb fun i hi => sameKind_of_equals (hkinds i hi)] at hbest
  obtain ⟨hlast, hport, -⟩ := hnew.best type i hbest
  refine ⟨i, hbest, ?_⟩
  rw [keepStreams_slot_destination]
  cases hnetwork : (c.mediaParametersChanged lib env old new).network with
  | true => exact redirectSlot_destination hlast hport hrunning
  | false =>
    -- then no address has changed
    rw [hchanged, maskBit_network.or, Bool.or_eq_false_iff] at hnetwork
    obtain ⟨haddr, hstreams⟩ := sameAddresses_of_network hnetwork.2
    have hlt : i < old.nbStreams := hnb ▸ findBestStream_lt hbest
    obtain ⟨hrtp, hrtpPort, hrtcp, hrtcpPort⟩ :=
      sameAddresses_of_equals (hkinds i hlt) (hstreams i hlt)
    rw [if_neg Bool.false_ne_true, hdestination]
    simp only [startDestination, rtpAddrOf, rtcpAddrOf, haddr, hrtp, hrtpPort, hrtcp, hrtcpPort]

theorem updateStreams_directed (hin : ∀ old ∈ c.resultdesc, PortsValid old ∧ c.DirectedBy old)
    (hnew : Reported lib env new) (h : c.updateStreams lib env (some new) = some c') :
    c'.resultdesc = some new ∧ c'.DirectedBy new := by
  unfold MediaCall.updateStreams at h
  -- nothing below looks at what `rememberBiggest` stores
  cases hkept : (c.rememberBiggest env new).kept lib env new with
  | some old =>
    simp only [hkept, Option.some.injEq] at h
    subst h
    obtain ⟨hports, hdirected⟩ := hin old (Option.filter_eq_some_iff.mp hkept).1
    have hkeep := (c.rememberBiggest env new).keepStreams_directed hports hnew hkept hdirected
    refine ⟨rfl, fun type hr => ?_⟩
    rw [slot_resultdesc] at hr ⊢
    exact hkeep type hr
  | none =>
    simp only [hkept] at h
    exact restartStreams_directed hnew h

end MediaCall

/-! ## Runs -/

/-- The result of an update, with what the core and the signaling answer then. -/
def MediaEvent.result : MediaEvent → Option (UpdateEnv × SalMediaDescription)
  | .updateStreams env (some new) => some (env, new)
  | _ => none

theorem MediaEvent.result_eq_some {e : MediaEvent} {update : UpdateEnv × SalMediaDescription}
    (h : e.result = some update) : e = .updateStreams update.1 (some update.2) := by
  cases e with
  | updateStreams env new =>
    cases new with
    | none => cases h
    | some new => cases h; rfl
  | _ => cases h

/-- The results of the updates are reported. -/
def MediaEvent.Reported (lib : MediaLib) : MediaEvent → Prop
  | .updateStreams env (some new) => MediaCall.Reported lib env new
  | _ => True

namespace MediaCall

variable {lib : MediaLib} {c c' : MediaCall}

/-- Running streams send to where the last result says. -/
def Directed (c : MediaCall) : Prop := ∀ md ∈ c.resultdesc, PortsValid md ∧ c.DirectedBy md

/-- Events other than updates with a result start no stream, and redirect none. -/
theorem apply_of_no_result {e : MediaEvent} (he : e.result = none)
    (happly : c.apply lib e = some c') :
    c'.resultdesc = c.resultdesc ∧ ∀ type, (c'.slot type).running →
      (c.slot type).running ∧ (c'.slot type).destination = (c.slot type).destination := by
  cases e with
  | updateStreams env new =>
    cases new with
    | none =>
      obtain rfl := Option.some.inj happly
      exact ⟨rfl, fun _ hr => ⟨hr, rfl⟩⟩
    | some new => cases he
  | makeLocalMediaDescription _ | editLocalMediaDescription _ | setParams _ _ =>
    obtain rfl := Option.some.inj happly
    exact ⟨rfl, fun _ hr => ⟨hr, rfl⟩⟩
  | initMediaStreams =>
    obtain rfl := Option.some.inj happly
    refine ⟨rfl, fun type hr => ⟨by simpa using hr, ?_⟩⟩
    cases type <;> rfl
  | stopMediaStreams =>
    obtain rfl := Option.some.inj happly
    exact ⟨rfl, fun type hr => by simp at hr⟩
  | freeMediaResources =>
    obtain rfl := Option.some.inj happly
    exact ⟨rfl, fun type hr => by simp [MediaCall.freeMediaResources] at hr⟩

/-- One event keeps the destinations right. -/
theorem Directed.apply {e : MediaEvent} (h : c.Directed) (he : e.Reported lib)
    (happly : c.apply lib e = some c') : c'.Directed := by
  intro md hmd
  cases hresult : e.result with
  | none =>
    obtain ⟨hres, hslots⟩ := apply_of_no_result hresult happly
    obtain ⟨hports, hdirected⟩ := h md (hres ▸ hmd)
    refine ⟨hports, fun type hr => ?_⟩
    obtain ⟨hr', hsame⟩ := hslots type hr
    rw [hsame]
    exact hdirected type hr'
  | some update =>
    obtain rfl := MediaEvent.result_eq_some hresult
    obtain ⟨hres, hdirected⟩ := updateStreams_directed h he happly
    rw [hres] at hmd
    obtain rfl := Option.some.inj hmd
    exact ⟨he.ports, hdirected⟩

end MediaCall

/-- **No stale destination.** However a call is renegotiated, and whichever updates restart its
streams, running streams send to where a start on the last result would have them send, as long as
the results are reported. -/
theorem directed_of_run {lib : MediaLib} {localdesc : SalMediaDescription} {es : List MediaEvent}
    {c : MediaCall} (hes : ∀ e ∈ es, e.Reported lib)
    (h : es.foldlM (MediaCall.apply lib) (newMediaCall localdesc) = some c) :
    ∀ md ∈ c.resultdesc, c.DirectedBy md := by
  have hstart : (newMediaCall localdesc).Directed := fun md hmd => by cases hmd
  have hend := foldlM_invariant (fun e he _ _ hc happly => hc.apply (hes e he) happly) hstart h
  exact fun md hmd => (hend md hmd).2

/-- A result with an audio stream of the peer at an address. -/
def audioAt (addr : String) (port : Int) : SalMediaDescription :=
  lines 1
    { type := .audio, proto := .rtpAvp, rtpAddr := addr, rtpPort := port, rtcpPort := port + 1
      payloads := [{ mimeType := "PCMU", clockRate := 8000, channels := 1,
                     flags := { canSend := true } }] }

/-- The peer moves while its streams are kept. -/
def movedRun : List MediaEvent :=
  [.updateStreams talking (some (audioAt "10.0.0.2" 7078)),
    .updateStreams talking (some (audioAt "10.0.0.3" 9078))]

theorem reported_movedRun : ∀ e ∈ movedRun, e.Reported plainLib := by
  have hreported : ∀ md, md = audioAt "10.0.0.2" 7078 ∨ md = audioAt "10.0.0.3" 9078 →
      MediaCall.Reported plainLib talking md := by
    rintro md (rfl | rfl) <;> refine ⟨rfl, by unfold PortsValid; decide, fun type i h => ?_⟩ <;>
      cases type <;> cases h <;> exact ⟨rfl, by decide, rfl⟩
  intro e he
  rcases List.mem_cons.mp he with rfl | he
  · exact hreported _ (.inl rfl)
  · rw [List.mem_singleton.mp he]
    exact hreported _ (.inr rfl)

theorem directed_of_run_moved :
    ∃ c, movedRun.foldlM (MediaCall.apply plainLib) (newMediaCall twoSuites) = some c ∧
      (c.audio.running ∧ c.audio.destination.rtpAddr = "10.0.0.3") ∧
      ∀ md ∈ c.resultdesc, c.DirectedBy md :=
  ⟨_, rfl, by decide, directed_of_run reported_movedRun rfl⟩

end Linphone
