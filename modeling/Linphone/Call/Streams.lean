import Linphone.Sal.Changes
import Linphone.Sal.Process
import Linphone.Call.State

/-!
# Running streams across renegotiations

`linphone_core_update_streams` (`coreapi/callbacks.c`) is called with the result of every
negotiation of a call. When streams are running it compares the result with the previous one and
either stops and starts the streams again, or keeps them and applies what changed; SRTP keys are
installed when a stream starts (`linphone_call_start_media_streams`) and, on kept streams, by
`linphone_call_update_crypto_parameters` (`coreapi/linphonecall.c`). The sessions of a call outlive
its streams, and so do the keys they were given.

A `none` from the model is a `NULL` that is dereferenced. The build is one with video. What the
updates do to the keys over a whole call is in `Linphone.Call.StreamKeys`.
-/

namespace Linphone

/-! ## The media side of a call -/

/-- `NULL`, initialized or prepared, and started. -/
inductive MediaStreamState
  | absent | initialized | started
deriving DecidableEq, Inhabited

/-- Suite and key last handed to a session, in each direction. -/
@[ext] structure SrtpKeys where
  send : Option (MSCryptoSuite × String) := none
  recv : Option (MSCryptoSuite × String) := none
deriving DecidableEq, Inhabited

/-- Where a stream sends to. -/
structure Destination where
  rtpAddr : String := ""
  rtpPort : Int := 0
  rtcpAddr : String := ""
  rtcpPort : Int := 0
deriving DecidableEq, Inhabited

/-- A stream of a call and the sessions it runs on. -/
structure MediaSlot where
  stream : MediaStreamState := .absent
  keys : SrtpKeys := {}
  destination : Destination := {}
deriving DecidableEq, Inhabited

/-- What the functions below read and write of a `LinphoneCall`, from its first local description
on. -/
structure MediaCall where
  localdesc : SalMediaDescription
  localdescChanged : MediaChanges := .unchanged
  resultdesc : Option SalMediaDescription := none
  biggestdesc : Option SalMediaDescription := none
  expectMediaInAck : Bool := false
  /-- `call->params->in_conference` -/
  inConference : Bool := false
  /-- `call->current_params->in_conference` -/
  currentInConference : Bool := false
  realEarlyMedia : Bool := false
  upBw : Int := 0
  allMuted : Bool := false
  playingRingbacktone : Bool := false
  audio : MediaSlot := {}
  video : MediaSlot := {}

/-- What the core and the signaling answer during an update. -/
structure UpdateEnv where
  state : CallState
  /-- `sal_call_is_offerer` -/
  isOfferer : Bool := true
  /-- `sal_call_get_remote_media_description` -/
  remoteMedia : SalMediaDescription := .new
  uploadBandwidth : Int := 0
  /-- `linphone_core_get_remote_ringback_tone(lc) != NULL` -/
  remoteRingbackTone : Bool := false
  rtcpEnabled : Bool := true
  capture : Bool := true
  display : Bool := true
  /-- The video stream takes over the source of the preview. -/
  reusePreview : Bool := false
  audioStarts : Bool := true
  videoStarts : Bool := true

namespace MediaSlot

variable (slot : MediaSlot)

def init : MediaSlot :=
  { slot with stream := if slot.stream = .absent then .initialized else slot.stream }

/-- The stream goes, the sessions are reclaimed by the call. -/
def stop : MediaSlot := { slot with stream := .absent }

/-- `ms_media_stream_sessions_uninit` -/
def uninit : MediaSlot := { slot with keys := {}, destination := {} }

def running : Bool := slot.stream = .started

@[simp] theorem init_keys : slot.init.keys = slot.keys := rfl

@[simp] theorem stop_keys : slot.stop.keys = slot.keys := rfl

@[simp] theorem uninit_keys : slot.uninit.keys = {} := rfl

@[simp] theorem uninit_stream : slot.uninit.stream = slot.stream := rfl

@[simp] theorem stop_stream : slot.stop.stream = .absent := rfl

@[simp] theorem init_running : slot.init.running = slot.running := by
  unfold init running
  split <;> simp_all

@[simp] theorem stop_running : slot.stop.running = false := rfl

@[simp] theorem uninit_running : slot.uninit.running = slot.running := rfl

end MediaSlot

namespace MediaCall

variable (lib : MediaLib) (env : UpdateEnv) (c : MediaCall)

/-- The slot of a type; only audio and video have one. -/
def slot : SalStreamType → MediaSlot
  | .audio => c.audio
  | .video => c.video
  | .other => {}

/-- `linphone_call_init_media_streams` -/
def initMediaStreams : MediaCall := { c with audio := c.audio.init, video := c.video.init }

/-- `linphone_call_stop_media_streams` -/
def stopMediaStreams : MediaCall := { c with audio := c.audio.stop, video := c.video.stop }

/-- `ms_media_stream_sessions_uninit` on both sessions of the call. -/
def sessionsUninit : MediaCall := { c with audio := c.audio.uninit, video := c.video.uninit }

/-- `linphone_call_free_media_resources` -/
def freeMediaResources : MediaCall := c.stopMediaStreams.sessionsUninit

/-- `linphone_call_make_local_media_description`, given the description it builds. -/
def makeLocalMediaDescription (md : SalMediaDescription) : MediaCall :=
  { c with localdesc := md, localdescChanged := salMediaDescriptionEquals lib md c.localdesc }

/-! ## Starting streams -/

/-- `used_pt` of `make_profile`: the first payload that can be sent. -/
def usedPt (s : SalStreamDescription) : Int :=
  ((s.payloads.find? (·.flags.canSend)).map (·.number)).getD (-1)

/-- The stream of the result a start looks at, when there is one to start. -/
def startable (md : SalMediaDescription) (type : SalStreamType) : Option SalStreamDescription :=
  ((md.findBestStream type).map md.stream).filter fun s =>
    s.dir != .inactive && s.rtpPort != 0 && usedPt s != -1

/-- The addresses of a stream; the one of the session stands for a missing one. -/
def rtpAddrOf (md : SalMediaDescription) (s : SalStreamDescription) : String :=
  if s.rtpAddr ≠ "" then s.rtpAddr else md.addr

def rtcpAddrOf (md : SalMediaDescription) (s : SalStreamDescription) : String :=
  if s.rtcpAddr ≠ "" then s.rtcpAddr else md.addr

/-- The destination a stream is started with. -/
def startDestination (md : SalMediaDescription) (s : SalStreamDescription) (rtcp : Bool) :
    Destination where
  rtpAddr := rtpAddrOf md s
  rtpPort := s.rtpPort
  rtcpAddr := rtcpAddrOf md s
  rtcpPort := if rtcp then (if s.rtcpPort ≠ 0 then s.rtcpPort else s.rtpPort + 1) else 0

/-- The SRTP block of a start. The stream of the local description is looked up by transport and
type, and dereferenced without a test. -/
def installKeys (localdesc : SalMediaDescription) (type : SalStreamType)
    (s : SalStreamDescription) (keys : SrtpKeys) : Option SrtpKeys :=
  if s.hasSrtp then
    (localdesc.findStream s.proto type).map fun j =>
      match srtpSend (localdesc.stream j) s with
      | some k => { send := some k, recv := some (srtpRecv s) }
      | none => keys -- a warning
  else some keys

/-- The part common to both kinds of streams: keys, then the start itself. -/
def openSlot (slot : MediaSlot) (type : SalStreamType) (s : SalStreamDescription) (starts : Bool)
    (destination : Destination) : Option MediaSlot :=
  (installKeys c.localdesc type s slot.keys).map fun keys =>
    if starts then { stream := .started, keys := keys, destination := destination }
    else { slot with keys := keys }

/-- `linphone_call_start_audio_stream` -/
def startAudioStream (md : SalMediaDescription) : Option MediaCall :=
  match startable md .audio with
  | none => some c
  | some s =>
      let rtcp := env.rtcpEnabled && !lib.isMulticast (rtpAddrOf md s)
      (c.openSlot c.audio .audio s env.audioStarts (startDestination md s rtcp)).map fun audio =>
        { c with audio := audio, currentInConference := c.inConference }

/-- The direction of the video stream is inactive or incompatible with local capabilities. -/
def videoInactive (md : SalMediaDescription) (s : SalStreamDescription) : Bool :=
  !(lib.isMulticast (rtpAddrOf md s) || (s.dir == .sendOnly && env.capture) ||
    (s.dir == .recvOnly && env.display) || s.dir == .sendRecv)

/-- `linphone_call_start_video_stream` -/
def startVideoStream (md : SalMediaDescription) : Option MediaCall :=
  match startable md .video with
  | none => some c
  | some s =>
      if videoInactive lib env md s then some c
      else
        let rtcp := env.rtcpEnabled && (env.reusePreview || !lib.isMulticast (rtpAddrOf md s))
        (c.openSlot c.video .video s env.videoStarts (startDestination md s rtcp)).map fun video =>
          { c with video := video }

/-- `linphone_call_start_media_streams`, on streams that were initialized. -/
def startMediaStreams (md : SalMediaDescription) (allInputsMuted sendRingbacktone : Bool) :
    Option MediaCall :=
  (if c.audio.stream ≠ .absent then c.startAudioStream lib env md else some c).bind fun c =>
    (if c.video.stream ≠ .absent then c.startVideoStream lib env md else some c).map fun c =>
      { c with
        allMuted := allInputsMuted, playingRingbacktone := sendRingbacktone
        upBw := env.uploadBandwidth }

/-! ## Keeping streams -/

/-- `media_parameters_changed` -/
def mediaParametersChanged (old new : SalMediaDescription) : MediaChanges :=
  if c.inConference ≠ c.currentInConference then { forceStreamReconstruction := true }
  else if c.upBw ≠ env.uploadBandwidth then { forceStreamReconstruction := true }
  else c.localdescChanged ||| salMediaDescriptionEquals lib old new

/-- The last active stream of a type. -/
def lastActive (md : SalMediaDescription) (type : SalStreamType) : Option SalStreamDescription :=
  (((List.range md.nbStreams).map md.stream).filter fun s => s.active && s.type == type).getLast?

/-- The slot sends to the addresses of the last active stream of its type. -/
def redirectSlot (md : SalMediaDescription) (type : SalStreamType) (slot : MediaSlot) :
    MediaSlot :=
  match lastActive md type with
  | some s =>
      if slot.stream ≠ .absent then
        { slot with destination := ⟨rtpAddrOf md s, s.rtpPort, rtcpAddrOf md s, s.rtcpPort⟩ }
      else slot
  | none => slot

/-- `linphone_core_update_streams_destinations` -/
def updateStreamsDestinations (new : SalMediaDescription) : MediaCall :=
  { c with
    audio := redirectSlot new .audio c.audio
    video := redirectSlot new .video c.video }

/-- `update_stream_crypto_params` -/
def updateStreamCryptoParams (localSt old new : SalStreamDescription) (keys : SrtpKeys) :
    SrtpKeys :=
  match srtpSend localSt new with
  | some k =>
      { send := if c.localdescChanged.cryptoKeys then some k else keys.send
        recv :=
          if (getElem old.crypto 0 cryptoAlgoMax_pos).masterKey ≠
              (getElem new.crypto 0 cryptoAlgoMax_pos).masterKey then some (srtpRecv new)
          else keys.recv }
  | none => keys -- a warning

/-- The crypto update of the keys of one kind of stream: all three descriptions have to have a
secure stream. -/
def rekeyed (old new : SalMediaDescription) (type : SalStreamType) (keys : SrtpKeys) : SrtpKeys :=
  match c.localdesc.findSecureStreamOfType type, old.findSecureStreamOfType type,
      new.findSecureStreamOfType type with
  | some j, some o, some n =>
      c.updateStreamCryptoParams (c.localdesc.stream j) (old.stream o) (new.stream n) keys
  | _, _, _ => keys

def rekeySlot (old new : SalMediaDescription) (type : SalStreamType) (slot : MediaSlot) :
    MediaSlot :=
  if slot.stream ≠ .absent then { slot with keys := c.rekeyed old new type slot.keys } else slot

/-- `linphone_call_update_crypto_parameters`, for SDES. -/
def updateCryptoParameters (old new : SalMediaDescription) : MediaCall :=
  { c with
    audio := c.rekeySlot old new .audio c.audio
    video := c.rekeySlot old new .video c.video }

/-- What is done to streams that are kept. -/
def keepStreams (old new : SalMediaDescription) (changed : MediaChanges) : MediaCall :=
  let c := if changed.network then c.updateStreamsDestinations new else c
  if changed.cryptoKeys then c.updateCryptoParameters old new else c

/-! ## The update -/

/-- Media already started. -/
def running : Bool := c.audio.running || c.video.running

/-- The previous result, when the running streams are kept. -/
def kept (new : SalMediaDescription) : Option SalMediaDescription :=
  c.resultdesc.filter fun old =>
    c.running && !(c.mediaParametersChanged lib env old new).restarts && !c.playingRingbacktone

/-- `SAL_MEDIA_DESCRIPTION_NETWORK_XXXCAST_CHANGED`, when there is a previous result. -/
def xxxcastMedia (new : SalMediaDescription) : Bool :=
  c.resultdesc.any fun old => (c.mediaParametersChanged lib env old new).networkXxxcast

/-- Streams stopped to be started again, on new sessions when the media ip type has changed. -/
def recreateStreams (new : SalMediaDescription) : MediaCall :=
  let stopped := c.stopMediaStreams
  (if c.xxxcastMedia lib env new then stopped.sessionsUninit else stopped).initMediaStreams

/-- `call->biggestdesc` remembers the mapping of the streams. -/
def rememberBiggest (new : SalMediaDescription) : MediaCall :=
  { c with
    biggestdesc :=
      if c.biggestdesc.all (·.nbStreams < new.nbStreams) then
        some (if env.isOfferer then c.localdesc else env.remoteMedia)
      else c.biggestdesc
    expectMediaInAck := false }

/-- Both ways to a start: streams that were running are recreated, and streams that were stopped,
as after a local pause, are initialized. -/
def restartFrom (new : SalMediaDescription) : MediaCall :=
  let c := if c.running then c.recreateStreams lib env new else c
  let c := if c.audio.stream = .absent then c.initMediaStreams else c
  { c with resultdesc := some new }

/-- The rest of the update when the streams are not kept. -/
def restartStreams (new : SalMediaDescription) : Option MediaCall :=
  let allMuted :=
    (env.state = .incomingEarlyMedia || env.state = .outgoingEarlyMedia) && !c.realEarlyMedia
  let sendRingbacktone := env.state = .incomingEarlyMedia && env.remoteRingbackTone
  (c.restartFrom lib env new).startMediaStreams lib env new allMuted sendRingbacktone

/-- `linphone_core_update_streams` -/
def updateStreams : Option SalMediaDescription → Option MediaCall
  | none => some c -- called with null media description
  | some new =>
      let c := c.rememberBiggest env new
      match c.kept lib env new with
      | some old =>
          let changed := c.mediaParametersChanged lib env old new
          some { c.keepStreams old new changed with resultdesc := some new }
      | none => c.restartStreams lib env new

end MediaCall

end Linphone
