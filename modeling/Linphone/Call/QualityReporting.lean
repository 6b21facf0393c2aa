import Linphone.Lib.Conformance
import Linphone.Lib.Single

/-!
# Quality reports

The metrics of a call and the reports about them (`coreapi/quality_reporting.c`). The reports of
RTCP add to sums, in `int`, and to counters of 8 bits; a report of the call divides the ones by the
others, and both start again when it was sent. The metrics come in groups; `are_metrics_filled`
says which of them are written.

`reports_right`: every report has the averages of what was added since the last one was sent, and
each group that has a value, as long as no counter goes round, no sum leaves `int`, a round trip is
added without rounding, and the payload is known when a report has a value for the concealment of
losses.
-/

namespace Linphone

open Single (single)

/-! ## RTCP -/

/-- A block of VoIP metrics. -/
structure RtcpXrVoipMetrics where
  jbNominal : UInt16
  jbMaximum : UInt16
  jbAbsMax : UInt16
  rxConfig : UInt8
  lossRate : UInt8
  discardRate : UInt8
  roundTripDelay : UInt16
  mosLq : UInt8
  mosCq : UInt8

/-- One packet of a compound: VoIP metrics, a sender report with the round trip propagation the
session has then, in seconds, or another one. -/
inductive RtcpPacket
  | xr (block : RtcpXrVoipMetrics)
  | sr (rtt : ℚ)
  | other

/-! ## Metrics -/

structure SessionDescription where
  payloadType : Int := -1
  payloadDesc : Option String := none
  sampleRate : Int := -1
  frameDuration : Int := -1
  fmtp : Option String := none
  packetLossConcealment : Int := -1

structure JitterBuffer where
  adaptive : Int := -1
  nominal : Int := 0
  max : Int := 0
  absMax : Int := -1

structure PacketLoss where
  networkPacketLossRate : ℚ := -1
  jitterBufferDiscardRate : ℚ := -1

structure Delay where
  roundTripDelay : Int := 0
  endSystemDelay : Int := -1
  interarrivalJitter : Int := -1
  meanAbsJitter : Int := -1

structure Signal where
  level : Int := 127
  noiseLevel : Int := 127

structure QualityEstimates where
  moslq : ℚ := 0
  moscq : ℚ := 0

/-- `reporting_content_metrics_t`, as `linphone_reporting_new` leaves it. -/
structure ReportingMetrics where
  start : Int := 0
  stop : Int := 0
  sessionDescription : SessionDescription := {}
  jitterBuffer : JitterBuffer := {}
  packetLoss : PacketLoss := {}
  delay : Delay := {}
  signal : Signal := {}
  qualityEstimates : QualityEstimates := {}
  userAgent : Option String := none
  rtcpXrCount : UInt8 := 0
  rtcpSrCount : UInt8 := 0

/-- The sum of two `int`s that are not negative; nothing is defined beyond `INT_MAX`. -/
def addInt (sum x : Int) : Option Int := if sum + x ≤ 2147483647 then some (sum + x) else none

/-- The milliseconds of a round trip. -/
def delayOf (rtt : ℚ) : Int := ⌊single (1000 * rtt)⌋

/-- `sum += 1000*rtt` with a `float` -/
def addDelay (sum : Int) (rtt : ℚ) : Option Int :=
  let total := ⌊single (single sum + single (1000 * rtt))⌋
  if total ≤ 2147483647 then some total else none

/-- `rtt > 1e-6` -/
def rttKnown (rtt : ℚ) : Bool := 1 / 1000000 < rtt

/-- A mean opinion score of a block. -/
def mosOf (mos : UInt8) : ℚ := if mos = 127 then 127 else single (mos.toNat / 10)

namespace ReportingMetrics

/-- The metrics after a block, with the new sums. `received` says whether they are those of the
other side. -/
def withBlock (received : Bool) (m : ReportingMetrics) (block : RtcpXrVoipMetrics)
    (nominal max roundTripDelay : Int) : ReportingMetrics :=
  { m with
    rtcpXrCount := m.rtcpXrCount + 1
    qualityEstimates :=
      if received then ⟨mosOf block.mosLq, mosOf block.mosCq⟩ else m.qualityEstimates
    jitterBuffer :=
      { nominal := nominal
        max := max
        absMax := block.jbAbsMax.toNat
        adaptive := ((block.rxConfig >>> 4) &&& 3).toNat }
    packetLoss := ⟨block.lossRate.toNat, block.discardRate.toNat⟩
    sessionDescription :=
      { m.sessionDescription with
        packetLossConcealment := ((block.rxConfig >>> 6) &&& 3).toNat }
    delay := { m.delay with roundTripDelay := roundTripDelay } }

/-- The metrics after a sender report. -/
def withRoundTrip (m : ReportingMetrics) (roundTripDelay : Int) : ReportingMetrics :=
  { m with
    rtcpSrCount := m.rtcpSrCount + 1
    delay := { m.delay with roundTripDelay := roundTripDelay } }

/-- One turn of the loop of `linphone_reporting_on_rtcp_update`. -/
def addPacket (received : Bool) (m : ReportingMetrics) : RtcpPacket → Option ReportingMetrics
  | .xr block => do
    let nominal ← addInt m.jitterBuffer.nominal block.jbNominal.toNat
    let max ← addInt m.jitterBuffer.max block.jbMaximum.toNat
    let roundTripDelay ← addInt m.delay.roundTripDelay block.roundTripDelay.toNat
    return m.withBlock received block nominal max roundTripDelay
  | .sr rtt =>
    if rttKnown rtt then m.withRoundTrip <$> addDelay m.delay.roundTripDelay rtt
    else some m
  | .other => some m

/-- `reset_avg_metrics` -/
def resetAvg (m : ReportingMetrics) : ReportingMetrics :=
  { m with
    rtcpSrCount := 0
    rtcpXrCount := 0
    jitterBuffer := { m.jitterBuffer with nominal := 0, max := 0 }
    qualityEstimates := ⟨0, 0⟩
    delay := { m.delay with roundTripDelay := 0 } }

end ReportingMetrics

/-- The payload of a stream. -/
structure ReportedPayload where
  type : Int
  mimeType : Option String
  clockRate : Int
  recvFmtp : Option String

/-- What `linphone_reporting_update_media_info` finds in a call; the ratings are those of the
quality indicator. -/
structure ReportedMedia where
  userAgent : Option String
  start : Int
  duration : Int
  ratings : Option (ℚ × ℚ)
  payload : Option ReportedPayload

/-- A rating, at least 1, or -1 for none. -/
def ratingOf (rating : ℚ) : ℚ := if 0 ≤ rating then max 1 rating else -1

/-- `linphone_reporting_update_media_info` on one of the two metrics. -/
def ReportingMetrics.updateMediaInfo (received : Bool) (m : ReportingMetrics)
    (media : ReportedMedia) : ReportingMetrics :=
  { m with
    userAgent := media.userAgent
    start := media.start
    stop := media.start + media.duration
    qualityEstimates :=
      match received, media.ratings with
      | false, some (lq, average) => ⟨ratingOf lq, ratingOf average⟩
      | _, _ => m.qualityEstimates
    sessionDescription :=
      match media.payload with
      | some payload =>
        { m.sessionDescription with
          payloadType := payload.type
          payloadDesc :=
            if received then payload.mimeType
            else payload.mimeType.or m.sessionDescription.payloadDesc
          sampleRate := payload.clockRate
          fmtp :=
            if received then payload.recvFmtp
            else payload.recvFmtp.or m.sessionDescription.fmtp }
      | none => m.sessionDescription }

/-! ## The text of a report -/

/-- A value, and how it is printed: `%d`, `%s`, one decimal, or as a time. -/
inductive ReportValue
  | int (n : Int)
  | text (s : String)
  | oneDecimal (x : ℚ)
  | time (t : Int)

abbrev ReportFields := List (String × ReportValue)

/-- A line of a report. -/
structure ReportLine where
  group : String
  fields : ReportFields

/-- `APPEND_IF_NUM_IN_RANGE` -/
def ifNumInRange (name : String) (inf sup x : Int) : ReportFields :=
  if inf ≤ x ∧ x ≤ sup then [(name, .int x)] else []

/-- `APPEND_IF_NOT_NULL_STR` -/
def ifNotNull (name : String) (s : Option String) : ReportFields :=
  s.toList.map fun s => (name, .text s)

/-- `APPEND_IF` -/
def appendIf (name : String) (x : Int) (cond : Bool) : ReportFields :=
  if cond then [(name, .int x)] else []

/-- A number that is printed with a decimal if it is in a range, divided first. -/
def decimalInRange (name : String) (inf sup x divisor : ℚ) : ReportFields :=
  if inf ≤ x ∧ x ≤ sup then [(name, .oneDecimal (x / divisor))] else []

namespace ReportingMetrics

/-- A sum divided by a counter, if that is not zero. -/
def average (sum : Int) (count : Nat) : Option Int :=
  if count ≠ 0 then some (sum.tdiv count) else none

variable (m : ReportingMetrics)

def nominalAverage : Option Int := average m.jitterBuffer.nominal m.rtcpXrCount.toNat

def maxAverage : Option Int := average m.jitterBuffer.max m.rtcpXrCount.toNat

def roundTripAverage : Option Int :=
  average m.delay.roundTripDelay (m.rtcpXrCount.toNat + m.rtcpSrCount.toNat)

/-- A range test on an average that there is. -/
def averageInRange (x : Option Int) : Bool := x.any fun x => 0 ≤ x && x ≤ 65535

def averageFields (name : String) (x : Option Int) : ReportFields :=
  x.elim [] (ifNumInRange name 0 65535)

/-! The bits of `are_metrics_filled`. -/

def packetLossFilled : Bool :=
  (0 ≤ m.packetLoss.networkPacketLossRate && m.packetLoss.networkPacketLossRate ≤ 255) ||
  (0 ≤ m.packetLoss.jitterBufferDiscardRate && m.packetLoss.jitterBufferDiscardRate ≤ 255)

def sessionDescriptionFilled : Bool :=
  m.sessionDescription.payloadType != -1 || m.sessionDescription.payloadDesc.isSome ||
  m.sessionDescription.sampleRate != -1 || m.sessionDescription.fmtp.isSome

def jitterBufferFilled : Bool :=
  (0 ≤ m.jitterBuffer.adaptive && m.jitterBuffer.adaptive ≤ 3) ||
  (0 ≤ m.jitterBuffer.absMax && m.jitterBuffer.absMax ≤ 65535) ||
  averageInRange m.nominalAverage || averageInRange m.maxAverage

def delayFilled : Bool :=
  (0 ≤ m.delay.endSystemDelay && m.delay.endSystemDelay ≤ 65535) ||
  (0 ≤ m.delay.interarrivalJitter && m.delay.interarrivalJitter ≤ 65535) ||
  (0 ≤ m.delay.meanAbsJitter && m.delay.meanAbsJitter ≤ 65535) ||
  averageInRange m.roundTripAverage

def signalFilled : Bool := m.signal.level != 127 || m.signal.noiseLevel != 127

def qualityEstimatesFilled : Bool :=
  (1 ≤ m.qualityEstimates.moslq && m.qualityEstimates.moslq ≤ 5) ||
  (1 ≤ m.qualityEstimates.moscq && m.qualityEstimates.moscq ≤ 5)

/-! The lines of `append_metrics_to_buffer`. -/

def timestampsFields : ReportFields :=
  (if 0 < m.start then [("START", .time m.start)] else []) ++
  (if 0 < m.stop then [("STOP", .time m.stop)] else [])

def sessionDescFields : ReportFields :=
  appendIf "PT" m.sessionDescription.payloadType (m.sessionDescription.payloadType != -1) ++
  ifNotNull "PD" m.sessionDescription.payloadDesc ++
  appendIf "SR" m.sessionDescription.sampleRate (m.sessionDescription.sampleRate != -1) ++
  appendIf "FD" m.sessionDescription.frameDuration (m.sessionDescription.frameDuration != -1) ++
  ifNotNull "FMTP" m.sessionDescription.fmtp ++
  appendIf "PLC" m.sessionDescription.packetLossConcealment
    (m.sessionDescription.packetLossConcealment != -1)

def jitterBufferFields : ReportFields :=
  ifNumInRange "JBA" 0 3 m.jitterBuffer.adaptive ++
  averageFields "JBN" m.nominalAverage ++
  averageFields "JBM" m.maxAverage ++
  ifNumInRange "JBX" 0 65535 m.jitterBuffer.absMax

def packetLossFields : ReportFields :=
  decimalInRange "NLR" 0 255 m.packetLoss.networkPacketLossRate 256 ++
  decimalInRange "JDR" 0 255 m.packetLoss.jitterBufferDiscardRate 256

def delayFields : ReportFields :=
  averageFields "RTD" m.roundTripAverage ++
  ifNumInRange "ESD" 0 65535 m.delay.endSystemDelay ++
  ifNumInRange "IAJ" 0 65535 m.delay.interarrivalJitter ++
  ifNumInRange "MAJ" 0 65535 m.delay.meanAbsJitter

def signalFields : ReportFields :=
  appendIf "SL" m.signal.level (m.signal.level != 127) ++
  appendIf "NL" m.signal.noiseLevel (m.signal.noiseLevel != 127)

def qualityEstFields : ReportFields :=
  decimalInRange "MOSLQ" 1 5 m.qualityEstimates.moslq 1 ++
  decimalInRange "MOSCQ" 1 5 m.qualityEstimates.moscq 1

/-- `append_metrics_to_buffer`. The packet loss goes with the jitter buffer. -/
def appendMetrics : List ReportLine :=
  [⟨"Timestamps", m.timestampsFields⟩] ++
  (if m.sessionDescriptionFilled then [⟨"SessionDesc", m.sessionDescFields⟩] else []) ++
  (if m.jitterBufferFilled then
    [⟨"JitterBuffer", m.jitterBufferFields⟩, ⟨"PacketLoss", m.packetLossFields⟩] else []) ++
  (if m.delayFilled then [⟨"Delay", m.delayFields⟩] else []) ++
  (if m.signalFilled then [⟨"Signal", m.signalFields⟩] else []) ++
  (if m.qualityEstimatesFilled then [⟨"QualityEst", m.qualityEstFields⟩] else []) ++
  m.userAgent.toList.map fun userAgent => ⟨"LinphoneExt", [("UA", .text userAgent)]⟩

/-- `are_metrics_filled(rm)!=0` -/
def anyFilled : Bool :=
  m.packetLossFilled || m.sessionDescriptionFilled || m.jitterBufferFilled || m.delayFilled ||
  m.signalFilled || m.qualityEstimatesFilled

/-- What `send_report` writes of the metrics; those of the other side may be left out. -/
def reportLines (received : Bool) : List ReportLine :=
  if received && !m.anyFilled then [] else m.appendMetrics

end ReportingMetrics

/-! ## Runs -/

/-- A packet of RTCP, or a report that is written, and sent or not. -/
inductive ReportingEvent
  | packet (p : RtcpPacket)
  | report (media : ReportedMedia) (sent : Bool)

/-- Metrics, and those the report was written from that was just written. -/
structure Reporting where
  metrics : ReportingMetrics := {}
  written : Option ReportingMetrics := none

/-- `publish` tells whether the report is sent; then the averages start again. -/
def Reporting.step (received : Bool) (r : Reporting) : ReportingEvent → Option Reporting
  | .packet p => (r.metrics.addPacket received p).map fun m => ⟨m, none⟩
  | .report media sent =>
    let m := r.metrics.updateMediaInfo received media
    some ⟨if sent then m.resetAvg else m, some m⟩

/-- The packets since the last report that was sent, and those the report is about that was just
written. -/
structure Accumulated where
  since : List RtcpPacket := []
  reported : Option (List RtcpPacket) := none

def Accumulated.step (a : Accumulated) : ReportingEvent → Accumulated
  | .packet p => ⟨a.since ++ [p], none⟩
  | .report _ sent => ⟨if sent then [] else a.since, some a.since⟩

/-! ## What is expected of a report -/

namespace RtcpPacket

def nominal : RtcpPacket → Option Int
  | xr block => some block.jbNominal.toNat
  | _ => none

def maximum : RtcpPacket → Option Int
  | xr block => some block.jbMaximum.toNat
  | _ => none

/-- The milliseconds of a block, or of a sender report whose round trip is known. -/
def delay : RtcpPacket → Option Int
  | xr block => some block.roundTripDelay.toNat
  | sr rtt => if rttKnown rtt then some (delayOf rtt) else none
  | other => none

end RtcpPacket

/-- The average of some values, in whole numbers. -/
def trueAverage (values : List Int) : Option Int :=
  if values = [] then none else some (values.sum.tdiv values.length)

/-- The groups of a report, with those of their fields that have a value. -/
def ReportingMetrics.groups (m : ReportingMetrics) : List ReportLine :=
  [⟨"SessionDesc", m.sessionDescFields⟩, ⟨"JitterBuffer", m.jitterBufferFields⟩,
    ⟨"PacketLoss", m.packetLossFields⟩, ⟨"Delay", m.delayFields⟩, ⟨"Signal", m.signalFields⟩,
    ⟨"QualityEst", m.qualityEstFields⟩]

/-- The averages are the true ones, and no group is missing that has a field. -/
structure ReportRight (received : Bool) (m : ReportingMetrics) (packets : List RtcpPacket) :
    Prop where
  nominal : m.nominalAverage = trueAverage (packets.filterMap RtcpPacket.nominal)
  maximum : m.maxAverage = trueAverage (packets.filterMap RtcpPacket.maximum)
  roundTrip : m.roundTripAverage = trueAverage (packets.filterMap RtcpPacket.delay)
  groups : ∀ line ∈ m.groups, line.fields ≠ [] → line ∈ m.reportLines received

/-- The sums and the counters are those of the packets. -/
structure ReportingMetrics.Tracks (m : ReportingMetrics) (since : List RtcpPacket) : Prop where
  nominal : m.jitterBuffer.nominal = (since.filterMap RtcpPacket.nominal).sum
  maximum : m.jitterBuffer.max = (since.filterMap RtcpPacket.maximum).sum
  delay : m.delay.roundTripDelay = (since.filterMap RtcpPacket.delay).sum
  xrCount : m.rtcpXrCount.toNat = (since.filterMap RtcpPacket.nominal).length
  count : m.rtcpXrCount.toNat + m.rtcpSrCount.toNat = (since.filterMap RtcpPacket.delay).length
  frame : m.sessionDescription.frameDuration = -1
  loss : m.packetLoss = {} ∨ 0 ≤ m.jitterBuffer.adaptive ∧ m.jitterBuffer.adaptive ≤ 3

/-- The metrics are those of the packets, and the report that was written is right. -/
structure Reporting.Follows (received : Bool) (r : Reporting) (a : Accumulated) : Prop where
  tracks : r.metrics.Tracks a.since
  right : ∀ m, r.written = some m →
    ∃ packets, a.reported = some packets ∧ ReportRight received m packets

/-- The counter that goes up is not at its end, the round trips stay an `int` and are added without
rounding, and the payload is known when a report has a value for the concealment of losses. -/
def Reporting.Meets (received : Bool) (r : Reporting) : ReportingEvent → Prop
  | .packet (.xr block) =>
    r.metrics.rtcpXrCount ≠ 255 ∧
      r.metrics.delay.roundTripDelay + block.roundTripDelay.toNat ≤ 2147483647
  | .packet (.sr rtt) =>
    rttKnown rtt = true →
      r.metrics.rtcpSrCount ≠ 255 ∧
        r.metrics.delay.roundTripDelay + delayOf rtt ≤ 2147483647 ∧
        ⌊single (single r.metrics.delay.roundTripDelay + single (1000 * rtt))⌋ =
          r.metrics.delay.roundTripDelay + delayOf rtt
  | .packet .other => True
  | .report media _ =>
    r.metrics.sessionDescription.packetLossConcealment ≠ -1 →
      (r.metrics.updateMediaInfo received media).sessionDescriptionFilled = true

/-! ## Groups -/

namespace ReportingMetrics

variable {m : ReportingMetrics}

theorem averageFields_ne_nil {name : String} {x : Option Int} :
    averageFields name x ≠ [] ↔ averageInRange x = true := by
  cases x with
  | none => simp [averageFields, averageInRange]
  | some x => simp [averageFields, averageInRange, ifNumInRange]

theorem ifNumInRange_ne_nil {name : String} {inf sup x : Int} :
    ifNumInRange name inf sup x ≠ [] ↔ inf ≤ x ∧ x ≤ sup := by
  simp [ifNumInRange]

theorem decimalInRange_ne_nil {name : String} {inf sup x divisor : ℚ} :
    decimalInRange name inf sup x divisor ≠ [] ↔ inf ≤ x ∧ x ≤ sup := by
  simp [decimalInRange]

theorem append_ne_nil_iff {l l' : ReportFields} : l ++ l' ≠ [] ↔ l ≠ [] ∨ l' ≠ [] := by
  rw [ne_eq, List.append_eq_nil_iff, not_and_or]

theorem jitterBufferFilled_of_fields (h : m.jitterBufferFields ≠ []) :
    m.jitterBufferFilled = true := by
  simp only [jitterBufferFields, append_ne_nil_iff, ifNumInRange_ne_nil, averageFields_ne_nil] at h
  simp only [jitterBufferFilled, Bool.or_eq_true, Bool.and_eq_true, decide_eq_true_eq]
  tauto

theorem packetLossFilled_of_fields (h : m.packetLossFields ≠ []) : m.packetLossFilled = true := by
  simpa only [packetLossFields, append_ne_nil_iff, decimalInRange_ne_nil, packetLossFilled,
    Bool.or_eq_true, Bool.and_eq_true, decide_eq_true_eq] using h

theorem delayFilled_of_fields (h : m.delayFields ≠ []) : m.delayFilled = true := by
  simp only [delayFields, append_ne_nil_iff, ifNumInRange_ne_nil, averageFields_ne_nil] at h
  simp only [delayFilled, Bool.or_eq_true, Bool.and_eq_true, decide_eq_true_eq]
  tauto

theorem signalFilled_of_fields (h : m.signalFields ≠ []) : m.signalFilled = true := by
  rw [signalFields, append_ne_nil_iff] at h
  rw [signalFilled, Bool.or_eq_true]
  refine h.imp (fun h => ?_) fun h => ?_
  · by_contra hlevel
    simp [appendIf, hlevel] at h
  · by_contra hlevel
    simp [appendIf, hlevel] at h

theorem qualityEstimatesFilled_of_fields (h : m.qualityEstFields ≠ []) :
    m.qualityEstimatesFilled = true := by
  simpa only [qualityEstFields, append_ne_nil_iff, decimalInRange_ne_nil, qualityEstimatesFilled,
    Bool.or_eq_true, Bool.and_eq_true, decide_eq_true_eq] using h

theorem sessionDescriptionFilled_of_fields (hframe : m.sessionDescription.frameDuration = -1)
    (hplc : m.sessionDescription.packetLossConcealment ≠ -1 → m.sessionDescriptionFilled = true)
    (h : m.sessionDescFields ≠ []) : m.sessionDescriptionFilled = true := by
  by_cases hc : m.sessionDescription.packetLossConcealment = -1
  · by_contra hfilled
    simp only [sessionDescriptionFilled, Bool.or_eq_true, not_or, bne_iff_ne, ne_eq, not_not,
      Option.isSome_iff_ne_none] at hfilled
    obtain ⟨⟨⟨htype, hdesc⟩, hrate⟩, hfmtp⟩ := hfilled
    simp [sessionDescFields, appendIf, ifNotNull, hframe, hc, htype, hdesc, hrate, hfmtp] at h
  · exact hplc hc

/-- What is filled is written. -/
theorem groups_written (received : Bool)
    (hsession : m.sessionDescFields ≠ [] → m.sessionDescriptionFilled = true)
    (hloss : m.packetLossFields ≠ [] → m.jitterBufferFilled = true) {line : ReportLine}
    (hline : line ∈ m.groups) (h : line.fields ≠ []) : line ∈ m.reportLines received := by
  have hwritten : line ∈ m.appendMetrics ∧ m.anyFilled = true := by
    simp only [groups, List.mem_cons, List.not_mem_nil, or_false] at hline
    rcases hline with rfl | rfl | rfl | rfl | rfl | rfl
    · have := hsession h
      simp [appendMetrics, anyFilled, this]
    · have := jitterBufferFilled_of_fields h
      simp [appendMetrics, anyFilled, this]
    · have := hloss h
      simp [appendMetrics, anyFilled, this]
    · have := delayFilled_of_fields h
      simp [appendMetrics, anyFilled, this]
    · have := signalFilled_of_fields h
      simp [appendMetrics, anyFilled, this]
    · have := qualityEstimatesFilled_of_fields h
      simp [appendMetrics, anyFilled, this]
  rw [reportLines, hwritten.2]
  simpa using hwritten.1

/-! ## Averages -/

theorem average_eq {values : List Int} {sum : Int} {count : Nat} (hsum : sum = values.sum)
    (hcount : count = values.length) : average sum count = trueAverage values := by
  rw [average, trueAverage, hsum, hcount]
  by_cases h : values = []
  · subst h
    rfl
  · rw [if_neg h, if_pos (List.length_eq_zero_iff.not.mpr h)]

variable {since : List RtcpPacket}

theorem length_maximum (since : List RtcpPacket) :
    (since.filterMap RtcpPacket.maximum).length =
      (since.filterMap RtcpPacket.nominal).length := by
  induction since with
  | nil => rfl
  | cons p since ih =>
    cases p <;> simp [RtcpPacket.maximum, RtcpPacket.nominal, List.filterMap_cons, ih]

/-- Metrics that track their packets give a right report. -/
theorem Tracks.right (h : m.Tracks since) (received : Bool)
    (hplc : m.sessionDescription.packetLossConcealment ≠ -1 → m.sessionDescriptionFilled = true) :
    ReportRight received m since where
  nominal := average_eq h.nominal h.xrCount
  maximum := average_eq h.maximum (h.xrCount.trans (length_maximum since).symm)
  roundTrip := average_eq h.delay h.count
  groups line hline hne := by
    refine groups_written received (sessionDescriptionFilled_of_fields h.frame hplc)
      (fun hloss => ?_) hline hne
    have hfilled := packetLossFilled_of_fields hloss
    rcases h.loss with hnone | hadaptive
    · rw [packetLossFilled, hnone] at hfilled
      exact absurd hfilled (by norm_num)
    · rw [jitterBufferFilled]
      simp [hadaptive]

/-! ## Packets -/

theorem sum_le_of_le {values : List Int} (h : ∀ x ∈ values, x ≤ 65535) :
    values.sum ≤ 65535 * values.length := by
  induction values with
  | nil => simp
  | cons x values ih =>
    have hx := h x List.mem_cons_self
    have hrest := ih fun y hy => h y (List.mem_cons_of_mem x hy)
    rw [List.sum_cons, List.length_cons]
    push_cast
    linarith

theorem nominal_le (since : List RtcpPacket) :
    (since.filterMap RtcpPacket.nominal).sum ≤
      65535 * (since.filterMap RtcpPacket.nominal).length := by
  refine sum_le_of_le fun x hx => ?_
  obtain ⟨p, -, hp⟩ := List.mem_filterMap.mp hx
  cases p with
  | xr block =>
    cases hp
    have := block.jbNominal.toNat_lt
    omega
  | sr rtt => cases hp
  | other => cases hp

theorem maximum_le (since : List RtcpPacket) :
    (since.filterMap RtcpPacket.maximum).sum ≤
      65535 * (since.filterMap RtcpPacket.maximum).length := by
  refine sum_le_of_le fun x hx => ?_
  obtain ⟨p, -, hp⟩ := List.mem_filterMap.mp hx
  cases p with
  | xr block =>
    cases hp
    have := block.jbMaximum.toNat_lt
    omega
  | sr rtt => cases hp
  | other => cases hp

theorem filterMap_snoc {α β : Type} (f : α → Option β) (l : List α) (x : α) :
    (l ++ [x]).filterMap f = l.filterMap f ++ (f x).toList := by
  rw [List.filterMap_append, List.filterMap_cons, List.filterMap_nil]
  cases f x <;> rfl

theorem sum_snoc (f : RtcpPacket → Option Int) (since : List RtcpPacket) (p : RtcpPacket) :
    ((since ++ [p]).filterMap f).sum = (since.filterMap f).sum + (f p).getD 0 := by
  rw [filterMap_snoc, List.sum_append]
  cases f p <;> simp

/-- One more packet, with what it adds. -/
theorem Tracks.snoc (h : m.Tracks since) {m' : ReportingMetrics} {p : RtcpPacket}
    (hnominal : m'.jitterBuffer.nominal = m.jitterBuffer.nominal + p.nominal.getD 0)
    (hmax : m'.jitterBuffer.max = m.jitterBuffer.max + p.maximum.getD 0)
    (hdelay : m'.delay.roundTripDelay = m.delay.roundTripDelay + p.delay.getD 0)
    (hxr : m'.rtcpXrCount.toNat = m.rtcpXrCount.toNat + p.nominal.toList.length)
    (hcount : m'.rtcpXrCount.toNat + m'.rtcpSrCount.toNat =
      m.rtcpXrCount.toNat + m.rtcpSrCount.toNat + p.delay.toList.length)
    (hframe : m'.sessionDescription.frameDuration = -1)
    (hloss : m'.packetLoss = {} ∨ 0 ≤ m'.jitterBuffer.adaptive ∧ m'.jitterBuffer.adaptive ≤ 3) :
    m'.Tracks (since ++ [p]) where
  nominal := by rw [sum_snoc, hnominal, h.nominal]
  maximum := by rw [sum_snoc, hmax, h.maximum]
  delay := by rw [sum_snoc, hdelay, h.delay]
  xrCount := by rw [filterMap_snoc, List.length_append, hxr, h.xrCount]
  count := by rw [filterMap_snoc, List.length_append, hcount, h.count]
  frame := hframe
  loss := hloss

theorem toNat_add_one {count : UInt8} (h : count ≠ 255) : (count + 1).toNat = count.toNat + 1 := by
  have hlt := count.toNat_lt
  have hne : count.toNat ≠ 255 := fun heq => h (UInt8.toNat_inj.mp heq)
  rw [UInt8.toNat_add, UInt8.toNat_one]
  omega

theorem addInt_eq {sum x : Int} (h : sum + x ≤ 2147483647) : addInt sum x = some (sum + x) :=
  if_pos h

theorem and_three_le (x : UInt8) : (x &&& 3).toNat ≤ 3 := by
  rw [UInt8.toNat_and]
  exact Nat.and_le_right

theorem addPacket_tracks (received : Bool) (h : m.Tracks since) (p : RtcpPacket)
    (hmeets : Reporting.Meets received ⟨m, none⟩ (.packet p)) :
    ∃ m', m.addPacket received p = some m' ∧ m'.Tracks (since ++ [p]) := by
  cases p with
  | xr block =>
    obtain ⟨hcount, hsum⟩ := hmeets
    have hlt : m.rtcpXrCount.toNat < 255 := by
      have hlt := m.rtcpXrCount.toNat_lt
      have hne : m.rtcpXrCount.toNat ≠ 255 := fun heq => hcount (UInt8.toNat_inj.mp heq)
      omega
    have hnominal : m.jitterBuffer.nominal + block.jbNominal.toNat ≤ 2147483647 := by
      have := nominal_le since
      have := block.jbNominal.toNat_lt
      rw [← h.nominal, ← h.xrCount] at *
      omega
    have hmax : m.jitterBuffer.max + block.jbMaximum.toNat ≤ 2147483647 := by
      have := maximum_le since
      have := block.jbMaximum.toNat_lt
      rw [← h.maximum, length_maximum, ← h.xrCount] at *
      omega
    have hxr := toNat_add_one hcount
    have hstep : m.addPacket received (.xr block) =
        some (m.withBlock received block (m.jitterBuffer.nominal + block.jbNominal.toNat)
          (m.jitterBuffer.max + block.jbMaximum.toNat)
          (m.delay.roundTripDelay + block.roundTripDelay.toNat)) := by
      rw [addPacket, addInt_eq hnominal, addInt_eq hmax, addInt_eq hsum]
      rfl
    refine ⟨_, hstep, h.snoc rfl rfl rfl hxr ?_ h.frame (Or.inr ⟨Int.natCast_nonneg _, ?_⟩)⟩
    · show (m.rtcpXrCount + 1).toNat + m.rtcpSrCount.toNat = _
      rw [hxr, Nat.add_right_comm]
      rfl
    · exact Int.ofNat_le.mpr (and_three_le _)
  | sr rtt =>
    by_cases hknown : rttKnown rtt = true
    · obtain ⟨hcount, hsum, hexact⟩ := hmeets hknown
      have hdelay : addDelay m.delay.roundTripDelay rtt =
          some (m.delay.roundTripDelay + delayOf rtt) := by
        rw [addDelay, show _ = _ from hexact]
        exact if_pos hsum
      have hstep : m.addPacket received (.sr rtt) =
          some (m.withRoundTrip (m.delay.roundTripDelay + delayOf rtt)) := by
        rw [addPacket, if_pos hknown, hdelay]
        rfl
      have hvalue : RtcpPacket.delay (.sr rtt) = some (delayOf rtt) := if_pos hknown
      refine ⟨_, hstep, h.snoc (Int.add_zero _).symm (Int.add_zero _).symm ?_ rfl ?_ h.frame
        h.loss⟩
      · rw [hvalue]
        rfl
      · rw [hvalue]
        show m.rtcpXrCount.toNat + (m.rtcpSrCount + 1).toNat = _
        rw [toNat_add_one hcount, Nat.add_assoc]
        rfl
    · have hvalue : RtcpPacket.delay (.sr rtt) = none := if_neg hknown
      refine ⟨m, by rw [addPacket, if_neg hknown], h.snoc (Int.add_zero _).symm
        (Int.add_zero _).symm ?_ rfl ?_ h.frame h.loss⟩
      · rw [hvalue]
        exact (Int.add_zero _).symm
      · rw [hvalue]
        rfl
  | other =>
    exact ⟨m, rfl, h.snoc (Int.add_zero _).symm (Int.add_zero _).symm (Int.add_zero _).symm rfl rfl
      h.frame h.loss⟩

/-! ## Reports -/

theorem Tracks.updateMediaInfo (h : m.Tracks since) (received : Bool) (media : ReportedMedia) :
    (m.updateMediaInfo received media).Tracks since := by
  refine ⟨h.nominal, h.maximum, h.delay, h.xrCount, h.count, ?_, h.loss⟩
  cases hp : media.payload with
  | none => simp [ReportingMetrics.updateMediaInfo, hp, h.frame]
  | some payload => simp [ReportingMetrics.updateMediaInfo, hp, h.frame]

theorem Tracks.resetAvg (h : m.Tracks since) : m.resetAvg.Tracks [] :=
  ⟨rfl, rfl, rfl, rfl, rfl, h.frame, h.loss⟩

theorem updateMediaInfo_concealment (received : Bool) (m : ReportingMetrics)
    (media : ReportedMedia) :
    (m.updateMediaInfo received media).sessionDescription.packetLossConcealment =
      m.sessionDescription.packetLossConcealment := by
  cases hp : media.payload with
  | none => simp [ReportingMetrics.updateMediaInfo, hp]
  | some payload => simp [ReportingMetrics.updateMediaInfo, hp]

end ReportingMetrics

/-- One event keeps the metrics at their packets, and a report that is written is right. -/
theorem step_follows (received : Bool) {r : Reporting} {a : Accumulated}
    (h : r.Follows received a) {e : ReportingEvent} (hmeets : r.Meets received e) :
    ∃ r', r.step received e = some r' ∧ r'.Follows received (a.step e) := by
  cases e with
  | packet p =>
    have hmeets' : Reporting.Meets received ⟨r.metrics, none⟩ (.packet p) := by
      cases p <;> exact hmeets
    obtain ⟨m', hm', htracks⟩ := ReportingMetrics.addPacket_tracks received h.tracks p hmeets'
    refine ⟨⟨m', none⟩, by rw [Reporting.step, hm']; rfl, htracks, fun m hm => ?_⟩
    exact absurd hm (by simp)
  | report media sent =>
    have htracks := h.tracks.updateMediaInfo received media
    refine ⟨_, rfl, ?_, fun m hm => ⟨a.since, rfl, ?_⟩⟩
    · cases sent with
      | true => exact htracks.resetAvg
      | false => exact htracks
    · obtain rfl := Option.some.inj hm
      refine htracks.right received fun hplc => hmeets ?_
      rwa [ReportingMetrics.updateMediaInfo_concealment] at hplc

/-- **Every report is right in a run whose events meet the condition.** -/
theorem reports_right (received : Bool) (events : List ReportingEvent)
    (h : Conformance.Allowed (Reporting.step received) (Reporting.Meets received) {} events) :
    Conformance.Conforms (Reporting.step received) Accumulated.step (Reporting.Follows received)
      {} {} events := by
  refine Conformance.conforms_of_allowed (fun r a e hr he => step_follows received hr he) ?_ h
  exact ⟨⟨rfl, rfl, rfl, rfl, rfl, rfl, Or.inl rfl⟩, fun m hm => absurd hm (by simp)⟩

theorem delay_whole (sum ms : Nat) (rtt : ℚ) (hrtt : 1000 * rtt = ms) (h : sum + ms < 2 ^ 24) :
    delayOf rtt = ms ∧
      ⌊single (single ((sum : Int) : ℚ) + single (1000 * rtt))⌋ = (sum : Int) + delayOf rtt := by
  have hms : single (1000 * rtt) = ms := by rw [hrtt, Single.single_natCast (by omega)]
  have hdelay : delayOf rtt = ms := by rw [delayOf, hms, Int.floor_natCast]
  have hsum : single ((sum : Int) : ℚ) = sum := by
    rw [Int.cast_natCast, Single.single_natCast (by omega)]
  refine ⟨hdelay, ?_⟩
  rw [hms, hsum, hdelay, ← Nat.cast_add, Single.single_natCast h, Int.floor_natCast, Nat.cast_add]

/-- A call with a block of metrics, a round trip of half a second, and a report. -/
def oneReport : List ReportingEvent :=
  [.packet (.xr ⟨40, 60, 100, 0x60, 3, 2, 120, 42, 41⟩), .packet (.sr (1 / 2)),
    .report ⟨some "linphone", 1000, 60, some (4, 4), some ⟨0, some "PCMU", 8000, none⟩⟩ true]

theorem oneReport_right :
    Conformance.Conforms (Reporting.step false) Accumulated.step (Reporting.Follows false)
      {} {} oneReport := by
  refine reports_right false oneReport ?_
  refine Conformance.allowed_cons.mpr ⟨⟨by decide, by decide⟩, fun r hr => ?_⟩
  obtain rfl := Option.some.inj hr
  have hwhole := delay_whole 120 500 (1 / 2) (by norm_num) (by norm_num)
  refine Conformance.allowed_cons.mpr ⟨fun _ => ⟨by decide, ?_, hwhole.2⟩, fun r hr => ?_⟩
  · rw [hwhole.1]
    decide
  · refine Conformance.allowed_cons.mpr ⟨fun _ => ?_, fun r hr before e hbefore => ?_⟩
    · simp [ReportingMetrics.sessionDescriptionFilled, ReportingMetrics.updateMediaInfo]
    · simp at hbefore

/-- 256 blocks of metrics. -/
def manyBlocks : List ReportingEvent :=
  List.replicate 256 (.packet (.xr ⟨40, 60, 100, 0x60, 3, 2, 120, 42, 41⟩)) ++
    [.report ⟨some "linphone", 1000, 60, some (4, 4), some ⟨0, some "PCMU", 8000, none⟩⟩ true]

/-- After 256 blocks the counter is back at zero, and the averages are missing. -/
theorem averages_of_256_blocks_missing :
    ¬Conformance.Conforms (Reporting.step false) Accumulated.step (Reporting.Follows false)
      {} {} manyBlocks := by
  intro h
  obtain ⟨r, hr, hfollows⟩ := h manyBlocks List.prefix_rfl
  have hmissing : (Conformance.run (Reporting.step false) {} manyBlocks).map
      (fun r => r.written.map (·.nominalAverage)) = some (some none) := by
    decide +kernel
  have haverage : (manyBlocks.foldl Accumulated.step {}).reported.map
      (fun packets => trueAverage (packets.filterMap RtcpPacket.nominal)) = some (some 40) := by
    decide +kernel
  rw [hr, Option.map_some, Option.some.injEq, Option.map_eq_some_iff] at hmissing
  obtain ⟨m, hm, hnone⟩ := hmissing
  obtain ⟨packets, hpackets, hright⟩ := hfollows.right m hm
  rw [hpackets, Option.map_some, Option.some.injEq, ← hright.nominal, hnone] at haverage
  exact absurd haverage (by simp)

end Linphone
