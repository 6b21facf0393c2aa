import Linphone.Call.Streams

/-!
# Keys of running streams

A negotiation designates the keys of each secured stream: to send, the entry of the local
description under the local tag of the result, and to receive, the first entry of the result. An
update of the streams is meant to leave exactly those installed. When the streams are started again
it does, provided the negotiation designates an entry of its own suite; when they are kept, each
direction is set only if the masks of `media_parameters_changed` and of the local description say
so, and a change of suite or of tag alone is not seen by them.

`keysInstalled_of_runOk` follows the keys over all events of a call: the invariant is that running
streams have the keys of the last result, under the local description of that update.
-/

namespace Linphone

/-! ## The keys of a negotiation -/

/-- The first entry of a crypto list under a tag. -/
def entryOfTag (crypto : Vector SalSrtpCryptoAlgo cryptoAlgoMax) (tag : UInt32) :
    Option SalSrtpCryptoAlgo :=
  ((List.finRange cryptoAlgoMax).find? fun i => (getElem crypto i i.isLt).tag == tag).map fun i =>
    getElem crypto i i.isLt

/-- The local entry a secured stream of a result designates: the one under its local tag, in the
stream of the local description with its transport and type. -/
def designatedEntry (localdesc : SalMediaDescription) (type : SalStreamType)
    (s : SalStreamDescription) : Option SalSrtpCryptoAlgo :=
  (localdesc.findStream s.proto type).bind fun j =>
    entryOfTag (localdesc.stream j).crypto s.cryptoLocalTag

/-- The keys a negotiation gives to a stream of a call: those of the designated entry and of the
first entry of the result if it is secured, and no key if it is not. There are none to give when
a secured stream designates no entry. -/
def negotiatedKeys (localdesc md : SalMediaDescription) (type : SalStreamType) : Option SrtpKeys :=
  match md.findBestStream type with
  | none => some {}
  | some i =>
      if (md.stream i).hasSrtp then
        (designatedEntry localdesc type (md.stream i)).map fun e =>
          { send := some (e.algo, e.masterKey), recv := some (srtpRecv (md.stream i)) }
      else some {}

/-- A secured stream designates an entry of its own suite. A tag is compared as an
`unsigned char`, so it has to fit one. -/
def Designates (localdesc : SalMediaDescription) (type : SalStreamType)
    (s : SalStreamDescription) (e : SalSrtpCryptoAlgo) : Prop :=
  designatedEntry localdesc type s = some e ∧
    e.algo = (getElem s.crypto 0 cryptoAlgoMax_pos).algo ∧ s.cryptoLocalTag < 256

theorem localKey_of_lt {crypto : Vector SalSrtpCryptoAlgo cryptoAlgoMax} {tag : UInt32}
    (h : tag < 256) : localKey crypto tag = (entryOfTag crypto tag).map (·.masterKey) := by
  have htag : tag.toUInt8.toUInt32 = tag := by
    apply UInt32.toNat_inj.mp
    have hlt : tag.toNat < 256 := by simpa using UInt32.lt_iff_toNat_lt.mp h
    simpa using hlt
  simp only [localKey, findCryptoIndexFromTag, entryOfTag, htag, Option.map_map]
  rfl

theorem Designates.srtpSend {localdesc : SalMediaDescription} {type : SalStreamType}
    {s : SalStreamDescription} {e : SalSrtpCryptoAlgo} (h : Designates localdesc type s e) :
    ∃ j, localdesc.findStream s.proto type = some j ∧
      srtpSend (localdesc.stream j) s = some (e.algo, e.masterKey) := by
  obtain ⟨he, halgo, htag⟩ := h
  obtain ⟨j, hj, he⟩ := Option.bind_eq_some_iff.mp he
  refine ⟨j, hj, ?_⟩
  simp [Linphone.srtpSend, localKey_of_lt htag, he, halgo]

theorem Designates.negotiatedKeys {localdesc md : SalMediaDescription} {type : SalStreamType}
    {i : Nat} {e : SalSrtpCryptoAlgo} (hbest : md.findBestStream type = some i)
    (hs : (md.stream i).hasSrtp = true) (h : Designates localdesc type (md.stream i) e) :
    negotiatedKeys localdesc md type =
      some { send := some (e.algo, e.masterKey), recv := some (srtpRecv (md.stream i)) } := by
  simp [Linphone.negotiatedKeys, hbest, hs, h.1]

theorem negotiatedKeys_of_plain {localdesc md : SalMediaDescription} {type : SalStreamType}
    (h : (md.findBestStream type).filter (fun i => (md.stream i).hasSrtp) = none) :
    negotiatedKeys localdesc md type = some {} := by
  unfold negotiatedKeys
  cases hb : md.findBestStream type with
  | none => rfl
  | some i =>
      have hs : (md.stream i).hasSrtp = false := by simpa [hb, Option.filter] using h
      simp [hs]

namespace MediaCall

variable (lib : MediaLib) (env : UpdateEnv) (c : MediaCall)

/-- Every running stream has the keys of the negotiation `md` under a local description. -/
def KeyedBy (localdesc md : SalMediaDescription) : Prop :=
  ∀ type, (c.slot type).running → negotiatedKeys localdesc md type = some (c.slot type).keys

/-! ## When an update installs the keys -/

/-- The stream of the result that a start opens. -/
def opens (new : SalMediaDescription) : SalStreamType → Option SalStreamDescription
  | .audio => startable new .audio
  | .video => (startable new .video).filter fun s => !videoInactive lib env new s
  | .other => none

/-- The keys the sessions carry when the streams are started again. -/
def carriedKeys (new : SalMediaDescription) (type : SalStreamType) : SrtpKeys :=
  if c.running && c.xxxcastMedia lib env new then {} else (c.slot type).keys

/-- Streams that are started: a secured one designates its local entry, and one that is not
secured finds no keys on its session. -/
def StartOk (new : SalMediaDescription) : Prop :=
  ∀ type s, opens lib env new type = some s →
    if s.hasSrtp then ∃ e, Designates c.localdesc type s e
    else c.carriedKeys lib env new type = {}

/-- A secured stream that is kept, over the previous negotiation `old` under `used`. Each direction
either asks for the key of the previous negotiation, or is one that the crypto update sets. -/
structure SecuredKept (localdesc : SalMediaDescription) (localChanged changed : MediaChanges)
    (used old new : SalMediaDescription) (type : SalStreamType) (s : SalStreamDescription) :
    Prop where
  designates : ∃ e, Designates localdesc type s e
  localStream : changed.cryptoKeys →
    localdesc.findSecureStreamOfType type = localdesc.findStream s.proto type
  send :
    (negotiatedKeys used old type).map (·.send) =
        (negotiatedKeys localdesc new type).map (·.send) ∨
      localChanged.cryptoKeys ∧ (old.findSecureStreamOfType type).isSome
  recv :
    (negotiatedKeys used old type).map (·.recv) =
        (negotiatedKeys localdesc new type).map (·.recv) ∨
      changed.cryptoKeys ∧ ∃ o, old.findSecureStreamOfType type = some o ∧
        (old.stream o).crypto[0].masterKey ≠ s.crypto[0].masterKey

/-- Streams that are kept. One that is not secured was not secured before either. -/
def KeptOk (used old new : SalMediaDescription) : Prop :=
  ∀ type, (c.slot type).running →
    match (new.findBestStream type).filter fun i => (new.stream i).hasSrtp with
    | some i =>
        SecuredKept c.localdesc c.localdescChanged (c.mediaParametersChanged lib env old new)
          used old new type (new.stream i)
    | none => negotiatedKeys used old type = some {} ∧ new.findSecureStreamOfType type = none

/-- The condition on an update, given the local description of the previous one. -/
def UpdateOk (used new : SalMediaDescription) : Prop :=
  match c.kept lib env new with
  | some old => c.KeptOk lib env used old new
  | none => c.StartOk lib env new

/-! ## Starts -/

theorem startable_eq_some {md : SalMediaDescription} {type : SalStreamType}
    {s : SalStreamDescription} (h : startable md type = some s) :
    ∃ i, md.findBestStream type = some i ∧ md.stream i = s := by
  obtain ⟨h, -⟩ := Option.filter_eq_some_iff.mp h
  exact Option.map_eq_some_iff.mp h

theorem opens_eq_some {new : SalMediaDescription} {type : SalStreamType}
    {s : SalStreamDescription} (h : opens lib env new type = some s) :
    ∃ i, new.findBestStream type = some i ∧ new.stream i = s := by
  cases type with
  | audio => exact startable_eq_some h
  | video => exact startable_eq_some (Option.filter_eq_some_iff.mp h).1
  | other => simp [opens] at h

/-- The condition on one opened stream makes the keys it is started with the negotiated ones. -/
theorem installKeys_eq {localdesc new : SalMediaDescription} {type : SalStreamType}
    {s : SalStreamDescription} {keys : SrtpKeys} (hopen : opens lib env new type = some s)
    (h : if s.hasSrtp then ∃ e, Designates localdesc type s e else keys = {}) :
    ∃ k, installKeys localdesc type s keys = some k ∧
      negotiatedKeys localdesc new type = some k := by
  obtain ⟨i, hbest, rfl⟩ := opens_eq_some lib env hopen
  by_cases hs : (new.stream i).hasSrtp = true
  · rw [if_pos hs] at h
    obtain ⟨e, he⟩ := h
    obtain ⟨j, hj, hsend⟩ := he.srtpSend
    refine ⟨_, ?_, he.negotiatedKeys hbest hs⟩
    simp [installKeys, hs, hj, hsend]
  · rw [if_neg hs] at h
    exact ⟨{}, by simp [installKeys, hs, h], by simp [negotiatedKeys, hbest, hs]⟩

/-- What opening a slot leaves there, if it leaves a running stream. -/
theorem openSlot_keyed {slot : MediaSlot} {new : SalMediaDescription} {type : SalStreamType}
    {s : SalStreamDescription} (starts : Bool) (destination : Destination)
    (hn : slot.running = false) (hopen : opens lib env new type = some s)
    (h : if s.hasSrtp then ∃ e, Designates c.localdesc type s e else slot.keys = {}) :
    ∃ slot', c.openSlot slot type s starts destination = some slot' ∧
      (slot'.running → negotiatedKeys c.localdesc new type = some slot'.keys) := by
  obtain ⟨k, hk, hneg⟩ := installKeys_eq lib env hopen h
  simp only [openSlot, hk, Option.map_some]
  refine ⟨_, rfl, ?_⟩
  cases starts with
  | true => exact fun _ => hneg
  | false =>
      intro hr
      rw [← Bool.not_eq_true] at hn
      exact absurd hr hn

theorem startAudioStream_keyed {new : SalMediaDescription} (hn : c.audio.running = false)
    (h : ∀ s, opens lib env new .audio = some s →
      if s.hasSrtp then ∃ e, Designates c.localdesc .audio s e else c.audio.keys = {}) :
    ∃ audio b, c.startAudioStream lib env new =
        some { c with audio := audio, currentInConference := b } ∧
      (audio.running → negotiatedKeys c.localdesc new .audio = some audio.keys) := by
  unfold startAudioStream
  cases ho : startable new .audio with
  | none => exact ⟨c.audio, c.currentInConference, rfl, fun hr => by simp [hn] at hr⟩
  | some s =>
      dsimp only
      have hopen : opens lib env new .audio = some s := ho
      obtain ⟨audio, ha, hkeys⟩ := c.openSlot_keyed lib env env.audioStarts
        (startDestination new s (env.rtcpEnabled && !lib.isMulticast (rtpAddrOf new s)))
        hn hopen (h s hopen)
      exact ⟨audio, c.inConference, by rw [ha]; rfl, hkeys⟩

theorem startVideoStream_keyed {new : SalMediaDescription} (hn : c.video.running = false)
    (h : ∀ s, opens lib env new .video = some s →
      if s.hasSrtp then ∃ e, Designates c.localdesc .video s e else c.video.keys = {}) :
    ∃ video, c.startVideoStream lib env new = some { c with video := video } ∧
      (video.running → negotiatedKeys c.localdesc new .video = some video.keys) := by
  unfold startVideoStream
  cases ho : startable new .video with
  | none => exact ⟨c.video, rfl, fun hr => by simp [hn] at hr⟩
  | some s =>
      dsimp only
      split
      · exact ⟨c.video, rfl, fun hr => by simp [hn] at hr⟩
      · rename_i hactive
        have hopen : opens lib env new .video = some s := by
          simpa [opens, ho, Option.filter] using hactive
        obtain ⟨video, hv, hkeys⟩ := c.openSlot_keyed lib env env.videoStarts
          (startDestination new s
            (env.rtcpEnabled && (env.reusePreview || !lib.isMulticast (rtpAddrOf new s))))
          hn hopen (h s hopen)
        exact ⟨video, by rw [hv]; rfl, hkeys⟩

/-- Starting streams that were not running. -/
theorem startMediaStreams_keyed {new : SalMediaDescription} (muted ringback : Bool)
    (ha : c.audio.running = false) (hv : c.video.running = false)
    (h : ∀ type s, opens lib env new type = some s →
      if s.hasSrtp then ∃ e, Designates c.localdesc type s e else (c.slot type).keys = {}) :
    ∃ c', c.startMediaStreams lib env new muted ringback = some c' ∧
      c'.localdesc = c.localdesc ∧ c'.resultdesc = c.resultdesc ∧
      c'.KeyedBy c.localdesc new := by
  have hfirst : ∃ audio b,
      (if c.audio.stream ≠ .absent then c.startAudioStream lib env new else some c) =
        some { c with audio := audio, currentInConference := b } ∧
      (audio.running → negotiatedKeys c.localdesc new .audio = some audio.keys) := by
    split
    · exact c.startAudioStream_keyed lib env ha (h .audio)
    · exact ⟨c.audio, c.currentInConference, rfl, fun hr => by simp [ha] at hr⟩
  obtain ⟨audio, b, hfirst, hakeys⟩ := hfirst
  let c₁ : MediaCall := { c with audio := audio, currentInConference := b }
  have hsecond : ∃ video,
      (if c₁.video.stream ≠ .absent then c₁.startVideoStream lib env new else some c₁) =
        some { c₁ with video := video } ∧
      (video.running → negotiatedKeys c.localdesc new .video = some video.keys) := by
    split
    · exact c₁.startVideoStream_keyed lib env hv (h .video)
    · exact ⟨c.video, rfl, fun hr => by simp [hv] at hr⟩
  obtain ⟨video, hsecond, hvkeys⟩ := hsecond
  unfold startMediaStreams
  rw [hfirst, Option.bind_some, hsecond]
  refine ⟨_, rfl, rfl, rfl, fun type hr => ?_⟩
  cases type with
  | audio => exact hakeys hr
  | video => exact hvkeys hr
  | other => simp [slot, MediaSlot.running] at hr

theorem slot_running_of_not_running (h : c.running = false) (type : SalStreamType) :
    (c.slot type).running = false := by
  obtain ⟨ha, hv⟩ := Bool.or_eq_false_iff.mp h
  cases type with
  | audio => exact ha
  | video => exact hv
  | other => rfl

@[simp] theorem slot_resultdesc (md : Option SalMediaDescription) (type : SalStreamType) :
    ({ c with resultdesc := md }).slot type = c.slot type := by
  cases type <;> rfl

@[simp] theorem initMediaStreams_slot_keys (type : SalStreamType) :
    (c.initMediaStreams.slot type).keys = (c.slot type).keys := by
  cases type <;> rfl

@[simp] theorem initMediaStreams_slot_running (type : SalStreamType) :
    (c.initMediaStreams.slot type).running = (c.slot type).running := by
  cases type <;> simp [slot, initMediaStreams]

@[simp] theorem stopMediaStreams_slot_keys (type : SalStreamType) :
    (c.stopMediaStreams.slot type).keys = (c.slot type).keys := by
  cases type <;> rfl

@[simp] theorem stopMediaStreams_slot_running (type : SalStreamType) :
    (c.stopMediaStreams.slot type).running = false := by
  cases type <;> rfl

@[simp] theorem sessionsUninit_slot_keys (type : SalStreamType) :
    (c.sessionsUninit.slot type).keys = {} := by
  cases type <;> rfl

@[simp] theorem sessionsUninit_slot_running (type : SalStreamType) :
    (c.sessionsUninit.slot type).running = (c.slot type).running := by
  cases type <;> rfl

/-- Streams are started over from sessions with the carried keys. -/
theorem restartFrom_slot (new : SalMediaDescription) (type : SalStreamType) :
    ((c.restartFrom lib env new).slot type).running = false ∧
      ((c.restartFrom lib env new).slot type).keys = c.carriedKeys lib env new type := by
  have hprep : ∀ c' : MediaCall,
      ((if c'.audio.stream = .absent then c'.initMediaStreams else c').slot type).running =
          (c'.slot type).running ∧
        ((if c'.audio.stream = .absent then c'.initMediaStreams else c').slot type).keys =
          (c'.slot type).keys := by
    intro c'
    split <;> simp
  simp only [restartFrom, slot_resultdesc, hprep]
  unfold carriedKeys recreateStreams
  cases hr : c.running with
  | false => exact ⟨c.slot_running_of_not_running hr type, by simp⟩
  | true => cases c.xxxcastMedia lib env new <;> simp

theorem restartFrom_localdesc (new : SalMediaDescription) :
    (c.restartFrom lib env new).localdesc = c.localdesc := by
  have hprep : ∀ c' : MediaCall,
      (if c'.audio.stream = .absent then c'.initMediaStreams else c').localdesc =
        c'.localdesc := by
    intro c'
    split <;> rfl
  simp only [restartFrom, hprep]
  unfold recreateStreams
  split
  · split <;> rfl
  · rfl

/-- A restart under its condition starts every stream with the negotiated keys. -/
theorem restartStreams_keyed {new : SalMediaDescription} (h : c.StartOk lib env new) :
    ∃ c', c.restartStreams lib env new = some c' ∧ c'.localdesc = c.localdesc ∧
      c'.resultdesc = some new ∧ c'.KeyedBy c.localdesc new := by
  have hslot := c.restartFrom_slot lib env new
  have hlocal := c.restartFrom_localdesc lib env new
  obtain ⟨c', hc', hl, hres, hkeys⟩ := (c.restartFrom lib env new).startMediaStreams_keyed lib env
    ((env.state = .incomingEarlyMedia || env.state = .outgoingEarlyMedia) && !c.realEarlyMedia)
    (env.state = .incomingEarlyMedia && env.remoteRingbackTone)
    (hslot .audio).1 (hslot .video).1 fun type s hopen => by
      rw [hlocal, (hslot type).2]
      exact h type s hopen
  rw [hlocal] at hl hkeys
  exact ⟨c', hc', hl, hres, hkeys⟩

/-! ## Kept streams -/

@[simp] theorem redirectSlot_stream (md : SalMediaDescription) (type : SalStreamType)
    (slot : MediaSlot) : (redirectSlot md type slot).stream = slot.stream := by
  unfold redirectSlot
  split
  · split <;> rfl
  · rfl

@[simp] theorem redirectSlot_keys (md : SalMediaDescription) (type : SalStreamType)
    (slot : MediaSlot) : (redirectSlot md type slot).keys = slot.keys := by
  unfold redirectSlot
  split
  · split <;> rfl
  · rfl

@[simp] theorem rekeySlot_stream (old new : SalMediaDescription) (type : SalStreamType)
    (slot : MediaSlot) : (c.rekeySlot old new type slot).stream = slot.stream := by
  unfold rekeySlot
  split <;> rfl

theorem keepStreams_slot_stream (old new : SalMediaDescription) (changed : MediaChanges)
    (type : SalStreamType) :
    ((c.keepStreams old new changed).slot type).stream = (c.slot type).stream := by
  unfold keepStreams
  split <;> split <;> cases type <;> simp [slot, updateStreamsDestinations, updateCryptoParameters]

theorem keepStreams_slot_keys (old new : SalMediaDescription) (changed : MediaChanges)
    (type : SalStreamType) (h : (c.slot type).running) :
    ((c.keepStreams old new changed).slot type).keys =
      if changed.cryptoKeys then c.rekeyed old new type (c.slot type).keys
      else (c.slot type).keys := by
  have hstream : (c.slot type).stream ≠ .absent := by
    have : (c.slot type).stream = .started := by simpa [MediaSlot.running] using h
    simp [this]
  unfold keepStreams
  cases type with
  | audio =>
      have ha : c.audio.stream ≠ .absent := hstream
      cases changed.network <;> cases changed.cryptoKeys <;>
        simp [slot, updateStreamsDestinations, updateCryptoParameters, rekeySlot, ha, rekeyed,
          updateStreamCryptoParams]
  | video =>
      have hv : c.video.stream ≠ .absent := hstream
      cases changed.network <;> cases changed.cryptoKeys <;>
        simp [slot, updateStreamsDestinations, updateCryptoParameters, rekeySlot, hv, rekeyed,
          updateStreamCryptoParams]
  | other => exact absurd rfl hstream

theorem keepStreams_localdesc (old new : SalMediaDescription) (changed : MediaChanges) :
    (c.keepStreams old new changed).localdesc = c.localdesc := by
  unfold keepStreams
  split <;> split <;> rfl

/-- The mask of kept streams has the bits of the local description. -/
theorem cryptoKeys_of_kept {old new : SalMediaDescription} (h : c.kept lib env new = some old)
    (hl : c.localdescChanged.cryptoKeys = true) :
    (c.mediaParametersChanged lib env old new).cryptoKeys = true := by
  obtain ⟨-, h⟩ := Option.filter_eq_some_iff.mp h
  have hrestarts : (c.mediaParametersChanged lib env old new).restarts = false := by
    simp only [Bool.and_eq_true, Bool.not_eq_true'] at h
    exact h.1.2
  revert hrestarts
  unfold mediaParametersChanged
  split
  · intro h
    cases h
  · split
    · intro h
      cases h
    · simp [hl]

/-- A stream with the designated entry gets the new key in each direction the update sets. -/
theorem rekeyed_of_designates {old new : SalMediaDescription} {type : SalStreamType} {i : Nat}
    {e : SalSrtpCryptoAlgo} (hbest : new.findBestStream type = some i)
    (hs : (new.stream i).hasSrtp = true) (he : Designates c.localdesc type (new.stream i) e)
    (hlocal : c.localdesc.findSecureStreamOfType type =
      c.localdesc.findStream (new.stream i).proto type) (keys : SrtpKeys) :
    c.rekeyed old new type keys =
      match old.findSecureStreamOfType type with
      | some o =>
          { send := if c.localdescChanged.cryptoKeys then some (e.algo, e.masterKey) else keys.send
            recv :=
              if (old.stream o).crypto[0].masterKey ≠ (new.stream i).crypto[0].masterKey then
                some (srtpRecv (new.stream i))
              else keys.recv }
      | none => keys := by
  obtain ⟨j, hj, hsend⟩ := he.srtpSend
  have hnew := SalMediaDescription.findSecureStreamOfType_of_best hbest hs
  unfold rekeyed
  rw [hlocal, hj, hnew]
  cases old.findSecureStreamOfType type with
  | none => rfl
  | some o => simp only [updateStreamCryptoParams, hsend]

/-- **Kept streams.** Under the condition, streams that had the keys of the previous negotiation
have those of the new one. -/
theorem keepStreams_keyed {used old new : SalMediaDescription}
    (hkept : c.kept lib env new = some old) (hin : c.KeyedBy used old)
    (h : c.KeptOk lib env used old new) :
    (c.keepStreams old new (c.mediaParametersChanged lib env old new)).KeyedBy c.localdesc new := by
  intro type hr
  rw [MediaSlot.running, keepStreams_slot_stream] at hr
  have hold := hin type hr
  have hcond := h type hr
  rw [c.keepStreams_slot_keys old new _ type hr]
  generalize (c.slot type).keys = keys at hold ⊢
  cases hsec : (new.findBestStream type).filter fun i => (new.stream i).hasSrtp with
  | none =>
      rw [hsec] at hcond
      obtain ⟨hplain, hnone⟩ := hcond
      obtain rfl : keys = {} := Option.some.inj (hold.symm.trans hplain)
      have hrekeyed : c.rekeyed old new type {} = {} := by
        unfold rekeyed
        rw [hnone]
        split <;> simp_all
      rw [negotiatedKeys_of_plain hsec, hrekeyed, ite_self]
  | some i =>
      rw [hsec] at hcond
      obtain ⟨hbest, hs⟩ := Option.filter_eq_some_iff.mp hsec
      obtain ⟨⟨e, he⟩, hlocal, hsend, hrecv⟩ := hcond
      rw [hold, he.negotiatedKeys hbest hs] at hsend hrecv
      simp only [Option.map_some, Option.some.injEq] at hsend hrecv
      rw [he.negotiatedKeys hbest hs]
      cases hc : (c.mediaParametersChanged lib env old new).cryptoKeys with
      | false =>
          -- neither direction is set, so both keep their key
          have hs' := hsend.resolve_right fun hl => by
            simp [c.cryptoKeys_of_kept lib env hkept hl.1] at hc
          have hr' := hrecv.resolve_right fun hl => by simp [hl.1] at hc
          simp [SrtpKeys.ext_iff, hs', hr']
      | true =>
          rw [if_pos rfl, c.rekeyed_of_designates hbest hs he (hlocal hc)]
          cases ho : old.findSecureStreamOfType type with
          | none =>
              simp only [ho, Option.isSome_none, Bool.false_eq_true, and_false, or_false,
                reduceCtorEq, false_and, exists_false] at hsend hrecv
              simp [SrtpKeys.ext_iff, hsend, hrecv]
          | some o =>
              simp only [ho, Option.isSome_some, and_true, Option.some.injEq, hc, true_and,
                exists_eq_left'] at hsend hrecv
              simp only [SrtpKeys.ext_iff, Option.some.injEq]
              refine ⟨?_, ?_⟩
              · split
                · rfl
                · exact (hsend.resolve_right ‹_›).symm
              · split
                · rfl
                · exact (hrecv.resolve_right ‹_›).symm

/-- **One update.** Under its condition an update is defined and leaves every running stream with
the keys of the negotiation it was called with. -/
theorem updateStreams_keyed {used new : SalMediaDescription}
    (hin : ∀ old, c.resultdesc = some old → c.KeyedBy used old) (h : c.UpdateOk lib env used new) :
    ∃ c', c.updateStreams lib env (some new) = some c' ∧ c'.localdesc = c.localdesc ∧
      c'.resultdesc = some new ∧ c'.KeyedBy c.localdesc new := by
  -- nothing below looks at what `rememberBiggest` stores
  let c₀ := c.rememberBiggest env new
  unfold UpdateOk at h
  change ∃ c', (match c.kept lib env new with
      | some old => some { c₀.keepStreams old new (c.mediaParametersChanged lib env old new) with
          resultdesc := some new }
      | none => c₀.restartStreams lib env new) = some c' ∧ _
  cases hk : c.kept lib env new with
  | some old =>
      rw [hk] at h
      have hin₀ : c₀.KeyedBy used old := hin old (Option.filter_eq_some_iff.mp hk).1
      have hkeyed := c₀.keepStreams_keyed lib env hk hin₀ h
      refine ⟨_, rfl, c₀.keepStreams_localdesc old new _, rfl, fun type hr => ?_⟩
      rw [slot_resultdesc] at hr ⊢
      exact hkeyed type hr
  | none =>
      rw [hk] at h
      exact c₀.restartStreams_keyed lib env h

end MediaCall

/-! ## Runs -/

/-- What happens to the media of a call. -/
inductive MediaEvent
  | makeLocalMediaDescription (md : SalMediaDescription)
  /-- The local description changed in place: its directions when a call is resumed, its crypto
  lists when an outgoing call is retried without SRTP, its addresses by ICE and UPnP. -/
  | editLocalMediaDescription (md : SalMediaDescription)
  | setParams (inConference realEarlyMedia : Bool)
  | initMediaStreams
  | stopMediaStreams
  | freeMediaResources
  | updateStreams (env : UpdateEnv) (new : Option SalMediaDescription)

/-- The call after an event. -/
def MediaCall.apply (lib : MediaLib) (c : MediaCall) : MediaEvent → Option MediaCall
  | .makeLocalMediaDescription md => some (c.makeLocalMediaDescription lib md)
  | .editLocalMediaDescription md => some { c with localdesc := md }
  | .setParams inConference realEarlyMedia =>
      some { c with inConference := inConference, realEarlyMedia := realEarlyMedia }
  | .initMediaStreams => some c.initMediaStreams
  | .stopMediaStreams => some c.stopMediaStreams
  | .freeMediaResources => some c.freeMediaResources
  | .updateStreams env new => c.updateStreams lib env new

/-- The events of a call, each defined, and every running stream with the keys of the negotiation
after each update. -/
def KeyedRun (lib : MediaLib) : MediaCall → List MediaEvent → Prop
  | _, [] => True
  | c, e :: es =>
      ∃ c', c.apply lib e = some c' ∧
        (∀ env new, e = .updateStreams env (some new) → c'.KeyedBy c'.localdesc new) ∧
        KeyedRun lib c' es

/-- The local description of the last update, after an event. -/
def usedAfter (c : MediaCall) (used : SalMediaDescription) : MediaEvent → SalMediaDescription
  | .updateStreams _ (some _) => c.localdesc
  | _ => used

/-- Every update of a run meets its condition. -/
def RunOk (lib : MediaLib) : MediaCall → SalMediaDescription → List MediaEvent → Prop
  | _, _, [] => True
  | c, used, e :: es =>
      (∀ env new, e = .updateStreams env (some new) → c.UpdateOk lib env used new) ∧
        ∀ c', c.apply lib e = some c' → RunOk lib c' (usedAfter c used e) es

namespace MediaCall

variable (lib : MediaLib) (c : MediaCall)

/-- Running streams have the keys of the last result, under the local description it was applied
with. -/
def InStep (used : SalMediaDescription) : Prop :=
  ∀ old, c.resultdesc = some old → c.KeyedBy used old

theorem InStep.of_slots {c c' : MediaCall} {used : SalMediaDescription} (h : c.InStep used)
    (hres : c'.resultdesc = c.resultdesc)
    (hrun : ∀ type, (c'.slot type).running → (c.slot type).running)
    (hkeys : ∀ type, (c'.slot type).running → (c'.slot type).keys = (c.slot type).keys) :
    c'.InStep used := by
  intro old hold type hr
  rw [hkeys type hr]
  exact h old (hres ▸ hold) type (hrun type hr)

/-- One event keeps the invariant, and an update leaves the keys of its negotiation. -/
theorem apply_inStep {used : SalMediaDescription} {e : MediaEvent} (hin : c.InStep used)
    (h : ∀ env new, e = .updateStreams env (some new) → c.UpdateOk lib env used new) :
    ∃ c', c.apply lib e = some c' ∧
      (∀ env new, e = .updateStreams env (some new) → c'.KeyedBy c'.localdesc new) ∧
      c'.InStep (usedAfter c used e) := by
  cases e with
  | makeLocalMediaDescription md =>
      exact ⟨_, rfl, by simp, hin.of_slots rfl (fun _ h => h) fun _ _ => rfl⟩
  | editLocalMediaDescription md =>
      exact ⟨_, rfl, by simp, hin.of_slots rfl (fun _ h => h) fun _ _ => rfl⟩
  | setParams inConference realEarlyMedia =>
      exact ⟨_, rfl, by simp, hin.of_slots rfl (fun _ h => h) fun _ _ => rfl⟩
  | initMediaStreams =>
      exact ⟨_, rfl, by simp, hin.of_slots rfl (by simp) (by simp)⟩
  | stopMediaStreams =>
      exact ⟨_, rfl, by simp, hin.of_slots rfl (by simp) (by simp)⟩
  | freeMediaResources =>
      exact ⟨_, rfl, by simp,
        hin.of_slots rfl (by simp [freeMediaResources]) (by simp [freeMediaResources])⟩
  | updateStreams env new =>
      cases new with
      | none => exact ⟨c, rfl, by simp, hin⟩
      | some new =>
          obtain ⟨c', hc', hlocal, hres, hkeys⟩ := c.updateStreams_keyed lib env hin (h env new rfl)
          refine ⟨c', hc', ?_, ?_⟩
          · intro env' new' heq
            cases heq
            exact hlocal ▸ hkeys
          · intro old hold
            rw [hres] at hold
            obtain rfl := Option.some.inj hold
            exact hkeys

end MediaCall

theorem keyedRun_of_inStep (lib : MediaLib) {c : MediaCall} {used : SalMediaDescription}
    {es : List MediaEvent} (hin : c.InStep used) (h : RunOk lib c used es) :
    KeyedRun lib c es := by
  induction es generalizing c used with
  | nil => trivial
  | cons e es ih =>
      obtain ⟨hupdate, hrest⟩ := h
      obtain ⟨c', hc', hkeys, hin'⟩ := c.apply_inStep lib hin hupdate
      exact ⟨c', hc', hkeys, ih hin' (hrest c' hc')⟩

/-- A call with its first local description, before any media. -/
def newMediaCall (localdesc : SalMediaDescription) : MediaCall := { localdesc := localdesc }

/-- **No stale key.** In a run whose updates meet their conditions every update is defined, and
leaves every running stream with the keys of the negotiation it was called with. -/
theorem keysInstalled_of_runOk (lib : MediaLib) {localdesc : SalMediaDescription}
    {es : List MediaEvent} (h : RunOk lib (newMediaCall localdesc) localdesc es) :
    KeyedRun lib (newMediaCall localdesc) es :=
  keyedRun_of_inStep lib (fun _ hold => by cases hold) h

/-! ## Concrete runs -/

/-- One active SDES audio stream with a codec. -/
def sdesAudio (port : Int) (crypto : Vector SalSrtpCryptoAlgo cryptoAlgoMax) (tag : UInt32) :
    SalMediaDescription :=
  lines 1
    { type := .audio, proto := .rtpSavp, rtpPort := port, crypto := crypto, cryptoLocalTag := tag
      payloads := [{ mimeType := "PCMU", clockRate := 8000, channels := 1,
                     flags := { canSend := true } }] }

/-- Two suites of the local side, each with its key. -/
def twoSuites : SalMediaDescription :=
  sdesAudio 7078 #v[⟨1, .aes128Sha1_80, "a"⟩, ⟨2, .aes128Sha1_32, "b"⟩, {}, {}] 0

def firstSuite : SalMediaDescription := sdesAudio 9078 #v[⟨1, .aes128Sha1_80, "k"⟩, {}, {}, {}] 1

def secondSuite : SalMediaDescription := sdesAudio 9078 #v[⟨2, .aes128Sha1_32, "l"⟩, {}, {}, {}] 2

def talking : UpdateEnv := { state := .streamsRunning }

/-- A second negotiation moves to the second suite: the crypto update sets the receiving key and
leaves the key and suite of the first negotiation in the sending direction. -/
theorem second_suite_sends_with_first :
    ¬KeyedRun plainLib (newMediaCall twoSuites)
      [.updateStreams talking (some firstSuite), .updateStreams talking (some secondSuite)] := by
  rintro ⟨c₁, h₁, -, c₂, h₂, hkeys, -⟩
  cases h₁
  cases h₂
  have := hkeys talking secondSuite rfl .audio (by decide)
  exact absurd this (by decide)

/-- The peer changes its key within the negotiated suite. -/
def secondKey : SalMediaDescription := sdesAudio 9078 #v[⟨1, .aes128Sha1_80, "l"⟩, {}, {}, {}] 1

theorem startOk_firstSuite : (newMediaCall twoSuites).StartOk plainLib talking firstSuite := by
  intro type s hopen
  cases type with
  | audio =>
      cases hopen
      exact ⟨_, rfl, rfl, by decide⟩
  | video => cases hopen
  | other => cases hopen

theorem updateOk_secondKey {c : MediaCall}
    (h : (newMediaCall twoSuites).updateStreams plainLib talking (some firstSuite) = some c) :
    c.UpdateOk plainLib talking twoSuites secondKey := by
  cases h
  change MediaCall.KeptOk plainLib talking _ twoSuites firstSuite secondKey
  intro type hr
  cases type with
  | audio => exact ⟨⟨_, rfl, rfl, by decide⟩, fun _ => rfl, .inl rfl, .inr ⟨rfl, 0, rfl, by decide⟩⟩
  | video => exact absurd hr (by decide)
  | other => exact absurd hr (by decide)

/-- The condition holds of a run in which the peer changes its key. -/
theorem keysInstalled_of_runOk_second_key :
    KeyedRun plainLib (newMediaCall twoSuites)
      [.updateStreams talking (some firstSuite), .updateStreams talking (some secondKey)] := by
  apply keysInstalled_of_runOk
  refine ⟨fun env new heq => ?_, fun c₁ h₁ => ⟨fun env new heq => ?_, fun c₂ h₂ => trivial⟩⟩
  · cases heq
    exact startOk_firstSuite
  · cases heq
    exact updateOk_secondKey h₁

end Linphone
