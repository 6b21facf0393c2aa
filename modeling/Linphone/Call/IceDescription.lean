import Linphone.Sal.Description

/-!
# ICE in the local description

`_update_local_media_description_from_ice` (`coreapi/misc.c`), which writes the credentials and the
candidates of an ICE session into the local description of a call. It runs again on the same
description as the session goes on.

`update_faithful_iff`: what a peer reads in the description is what the session uses, when the
credentials of each check list are either both its own or both those of the session, and nothing is
left in a field that the function does not write.
-/

namespace Linphone

/-! ## Sessions -/

/-- The credentials of a session or of a check list. They are generated by the library, and fit the
fields of a description. -/
structure IceCredentials where
  ufrag : String
  pwd : String
deriving DecidableEq

inductive IceSessionState
  | stopped | running | completed | failed
deriving DecidableEq

inductive IceCheckListState
  | running | completed | failed
deriving DecidableEq

inductive IceRole
  | controlling | controlled
deriving DecidableEq

structure IceTransportAddress where
  ip : String
  port : Int
deriving DecidableEq

structure IceCandidate where
  foundation : String
  componentID : UInt32
  priority : UInt32
  /-- `ice_candidate_type` -/
  type : String
  taddr : IceTransportAddress
  /-- The base of the candidate, where that is another candidate. -/
  base : Option IceTransportAddress := none
deriving DecidableEq

/-- The addresses of the two components of a stream. -/
structure IceComponents where
  rtp : IceTransportAddress
  rtcp : IceTransportAddress
deriving DecidableEq

/-- `ice_add_remote_candidate` -/
structure IceRemoteCandidate where
  candidate : SalIceCandidate
  isDefault : Bool
deriving DecidableEq

/-- `ice_add_losing_pair` -/
structure IceLosingPair where
  componentID : Nat
  localAddr : IceTransportAddress
  remoteAddr : IceTransportAddress
deriving DecidableEq

structure IceCheckList where
  state : IceCheckListState := .running
  /-- `ice_check_list_local_ufrag` and `ice_check_list_local_pwd` -/
  localCredentials : IceCredentials
  mismatch : Bool := false
  localCandidates : List IceCandidate := []
  /-- `ice_check_list_default_local_candidate` -/
  defaultLocal : Option IceComponents := none
  /-- `ice_check_list_selected_valid_local_candidate` -/
  selectedLocal : Option IceComponents := none
  /-- `ice_check_list_selected_valid_remote_candidate` -/
  selectedRemote : Option IceComponents := none
  /-- `ice_check_list_get_remote_ufrag` and `ice_check_list_get_remote_pwd` -/
  remoteCredentials : Option IceCredentials := none
  addedCandidates : List IceRemoteCandidate := []
  losingPairs : List IceLosingPair := []
deriving DecidableEq

structure IceSession where
  state : IceSessionState := .stopped
  role : IceRole := .controlling
  localCredentials : IceCredentials
  /-- `ice_session_remote_ufrag` and `ice_session_remote_pwd` -/
  remoteCredentials : Option IceCredentials := none
  checkLists : List (Option IceCheckList) := []
deriving DecidableEq

/-- `ice_session_check_list` -/
def IceSession.checkList (session : IceSession) (i : Nat) : Option IceCheckList :=
  session.checkLists[i]?.join

/-- `SAL_MEDIA_DESCRIPTION_MAX_ICE_CANDIDATES` -/
def maxIceCandidates : Nat := 20

/-! ## The update -/

/-- The address of the session, once ICE is completed. -/
def updateSession (desc : SalMediaDescription) (session : IceSession) : SalMediaDescription :=
  let desc :=
    if session.state = .completed then
      let desc := { desc with iceCompleted := true }
      match (session.checkList 0).bind fun cl => cl.selectedLocal with
      | some selected => { desc with addr := selected.rtp.ip }
      | none => desc
    else { desc with iceCompleted := false }
  { desc with icePwd := session.localCredentials.pwd, iceUfrag := session.localCredentials.ufrag }

/-- The default destination of a stream. -/
def updateAddresses (cl : IceCheckList) (stream : SalStreamDescription) : SalStreamDescription :=
  let completed := cl.state = .completed
  let stream := { stream with iceCompleted := completed }
  match if completed then cl.selectedLocal else cl.defaultLocal with
  | some addrs =>
      { stream with
        rtpAddr := addrs.rtp.ip, rtpPort := addrs.rtp.port
        rtcpAddr := addrs.rtcp.ip, rtcpPort := addrs.rtcp.port }
  | none => { stream with rtpAddr := "", rtcpAddr := "" }

/-- The credentials of a stream. The last branch clears the password once more. -/
def updateCredentials (desc : SalMediaDescription) (cl : IceCheckList)
    (stream : SalStreamDescription) : SalStreamDescription :=
  let stream :=
    if cl.localCredentials.pwd ≠ desc.icePwd then { stream with icePwd := cl.localCredentials.pwd }
    else { stream with icePwd := "" }
  if cl.localCredentials.ufrag ≠ desc.iceUfrag then
    { stream with iceUfrag := cl.localCredentials.ufrag }
  else { stream with icePwd := "" }

/-- The default destination of a component. -/
def defaultDestination (desc : SalMediaDescription) (stream : SalStreamDescription)
    (componentID : UInt32) : Option IceTransportAddress :=
  let filled (addr : String) : String := if addr = "" then desc.addr else addr
  if componentID = 1 then some { ip := filled stream.rtpAddr, port := stream.rtpPort }
  else if componentID = 2 then some { ip := filled stream.rtcpAddr, port := stream.rtcpPort }
  else none

/-- A candidate in a description. -/
def IceCandidate.toSal (c : IceCandidate) : SalIceCandidate where
  foundation := c.foundation
  componentID := c.componentID
  priority := c.priority
  type := c.type
  addr := c.taddr.ip
  port := c.taddr.port
  raddr := c.base.elim "" fun base => base.ip
  rport := c.base.elim 0 fun base => base.port

/-- The candidates that are included: those of the two components, and when the check list is
completed only those of the default destination. -/
def included (desc : SalMediaDescription) (stream : SalStreamDescription) (cl : IceCheckList)
    (c : IceCandidate) : Bool :=
  match defaultDestination desc stream c.componentID with
  | none => false
  | some dest => cl.state ≠ .completed || c.taddr = dest

/-- The local candidates of a stream. -/
def updateCandidates (desc : SalMediaDescription) (cl : IceCheckList)
    (stream : SalStreamDescription) : SalStreamDescription :=
  if cl.state = .running ∨ cl.state = .completed then
    { stream with
      iceCandidates := ((cl.localCandidates.take maxIceCandidates).filter
        (included desc stream cl)).map IceCandidate.toSal }
  else stream

/-- The remote candidates of a stream. -/
def updateRemoteCandidates (session : IceSession) (cl : IceCheckList)
    (stream : SalStreamDescription) : SalStreamDescription :=
  if cl.state = .completed ∧ session.role = .controlling then
    match cl.selectedRemote with
    | some addrs =>
        { stream with
          iceRemoteCandidates := [{ addr := addrs.rtp.ip, port := addrs.rtp.port },
            { addr := addrs.rtcp.ip, port := addrs.rtcp.port }] }
    | none => { stream with iceRemoteCandidates := [] }
  else { stream with iceRemoteCandidates := [] }

/-- The loop over the streams. -/
def updateStream (desc : SalMediaDescription) (session : IceSession) (i : Nat)
    (stream : SalStreamDescription) : SalStreamDescription :=
  match session.checkList i with
  | none => stream
  | some cl =>
      if !stream.active then stream
      else
        let stream := updateAddresses cl stream
        let stream := updateCredentials desc cl stream
        let stream := { stream with iceMismatch := cl.mismatch }
        let stream := updateCandidates desc cl stream
        updateRemoteCandidates session cl stream

/-- `_update_local_media_description_from_ice` -/
def updateLocalMediaDescriptionFromIce (desc : SalMediaDescription) (session : IceSession) :
    SalMediaDescription :=
  let desc := updateSession desc session
  desc.mapStreams (updateStream desc session)

/-! ## What a peer reads -/

/-- The user fragment a peer derives: that of the stream, or else that of the session. -/
def peerUfrag (desc : SalMediaDescription) (stream : SalStreamDescription) : String :=
  if stream.iceUfrag ≠ "" then stream.iceUfrag else desc.iceUfrag

def peerPwd (desc : SalMediaDescription) (stream : SalStreamDescription) : String :=
  if stream.icePwd ≠ "" then stream.icePwd else desc.icePwd

/-- The candidates of a check list. -/
def IceCheckList.candidates (cl : IceCheckList) (desc : SalMediaDescription)
    (stream : SalStreamDescription) : List SalIceCandidate :=
  if cl.state = .failed then []
  else (cl.localCandidates.filter (included desc stream cl)).map IceCandidate.toSal

/-- The remote candidates of a check list, which the controlling side gives when it is completed. -/
def IceCheckList.remoteCandidates (cl : IceCheckList) (role : IceRole) :
    List SalIceRemoteCandidate :=
  if cl.state = .completed ∧ role = .controlling then
    cl.selectedRemote.elim [] fun addrs =>
      [{ addr := addrs.rtp.ip, port := addrs.rtp.port },
        { addr := addrs.rtcp.ip, port := addrs.rtcp.port }]
  else []

/-- A stream shows its check list. -/
structure ShowsCheckList (desc : SalMediaDescription) (role : IceRole) (cl : IceCheckList)
    (stream : SalStreamDescription) : Prop where
  ufrag : peerUfrag desc stream = cl.localCredentials.ufrag
  pwd : peerPwd desc stream = cl.localCredentials.pwd
  both : stream.iceUfrag = "" ↔ stream.icePwd = ""
  candidates : stream.iceCandidates = cl.candidates desc stream
  remoteCandidates : stream.iceRemoteCandidates = cl.remoteCandidates role

/-- A stream without a check list shows nothing of ICE. -/
def ShowsNoIce (stream : SalStreamDescription) : Prop :=
  stream.iceUfrag = "" ∧ stream.icePwd = "" ∧ stream.iceCandidates = [] ∧
    stream.iceRemoteCandidates = []

/-- The active streams of a description show what the session uses. -/
def ShowsSession (active : Nat → Bool) (desc : SalMediaDescription) (session : IceSession) :
    Prop :=
  ∀ i < desc.nbStreams, active i = true →
    match session.checkList i with
    | some cl => ShowsCheckList desc session.role cl (desc.stream i)
    | none => ShowsNoIce (desc.stream i)

/-! ## The condition -/

/-- The credentials of a check list are both its own, or both those of the session. In the second
case no user fragment is left in the stream. -/
def CredentialsApart (session : IceSession) (cl : IceCheckList) (stream : SalStreamDescription) :
    Prop :=
  let own := cl.localCredentials
  let common := session.localCredentials
  own.ufrag ≠ common.ufrag ∧ own.pwd ≠ common.pwd ∧ own.ufrag ≠ "" ∧ own.pwd ≠ "" ∨
    own.ufrag = common.ufrag ∧ own.pwd = common.pwd ∧ stream.iceUfrag = ""

/-- The candidates that are included are among the first twenty, and a check list that failed has
none left in the stream. -/
def CandidatesFit (desc : SalMediaDescription) (session : IceSession) (cl : IceCheckList)
    (stream : SalStreamDescription) : Prop :=
  if cl.state = .failed then stream.iceCandidates = []
  else ∀ c ∈ cl.localCandidates.drop maxIceCandidates,
    included (updateSession desc session) (updateAddresses cl stream) cl c = false

/-- The descriptions and sessions that agree after the update. -/
def ReadyForIce (desc : SalMediaDescription) (session : IceSession) : Prop :=
  ∀ i < desc.nbStreams, (desc.stream i).active = true →
    match session.checkList i with
    | some cl =>
        CredentialsApart session cl (desc.stream i) ∧
          CandidatesFit desc session cl (desc.stream i)
    | none => ShowsNoIce (desc.stream i)

/-! ## One stream -/

section

variable (desc : SalMediaDescription) (session : IceSession) (cl : IceCheckList)
  (stream : SalStreamDescription)

theorem updateSession_streams (i : Nat) :
    (updateSession desc session).nbStreams = desc.nbStreams ∧
      (updateSession desc session).stream i = desc.stream i := by
  unfold updateSession
  by_cases hstate : session.state = .completed
  · cases (session.checkList 0).bind fun cl => cl.selectedLocal with
    | none => simp [hstate, SalMediaDescription.stream]
    | some selected => simp [hstate, SalMediaDescription.stream]
  · simp [hstate, SalMediaDescription.stream]

theorem updateAddresses_ice :
    (updateAddresses cl stream).iceUfrag = stream.iceUfrag ∧
      (updateAddresses cl stream).iceCandidates = stream.iceCandidates := by
  unfold updateAddresses
  simp only
  cases (if cl.state = .completed then cl.selectedLocal else cl.defaultLocal) with
  | none => exact ⟨rfl, rfl⟩
  | some addrs => exact ⟨rfl, rfl⟩

theorem updateCredentials_eq :
    updateCredentials desc cl stream =
      { stream with
        iceUfrag := if cl.localCredentials.ufrag ≠ desc.iceUfrag then cl.localCredentials.ufrag
          else stream.iceUfrag
        icePwd := if cl.localCredentials.ufrag ≠ desc.iceUfrag ∧
            cl.localCredentials.pwd ≠ desc.icePwd then cl.localCredentials.pwd else "" } := by
  unfold updateCredentials
  by_cases hufrag : cl.localCredentials.ufrag = desc.iceUfrag <;>
    by_cases hpwd : cl.localCredentials.pwd = desc.icePwd <;> simp [hufrag, hpwd]

/-- The candidates that are written: the first twenty are looked at. -/
def writtenCandidates : List SalIceCandidate :=
  ((cl.localCandidates.take maxIceCandidates).filter (included desc stream cl)).map
    IceCandidate.toSal

theorem updateCandidates_eq :
    updateCandidates desc cl stream =
      { stream with
        iceCandidates := if cl.state = .failed then stream.iceCandidates
          else writtenCandidates desc cl stream } := by
  unfold updateCandidates writtenCandidates
  cases hstate : cl.state <;> simp

theorem updateRemoteCandidates_eq :
    updateRemoteCandidates session cl stream =
      { stream with iceRemoteCandidates := cl.remoteCandidates session.role } := by
  unfold updateRemoteCandidates IceCheckList.remoteCandidates
  by_cases hcontrolling : cl.state = .completed ∧ session.role = .controlling
  · rw [if_pos hcontrolling, if_pos hcontrolling]
    cases cl.selectedRemote with
    | none => rfl
    | some addrs => rfl
  · rw [if_neg hcontrolling, if_neg hcontrolling]

/-- An active stream with a check list, field by field. -/
theorem updateStream_eq {i : Nat} (hlist : session.checkList i = some cl)
    (hactive : stream.active = true) :
    updateStream desc session i stream =
      { updateAddresses cl stream with
        iceUfrag := if cl.localCredentials.ufrag ≠ desc.iceUfrag then cl.localCredentials.ufrag
          else stream.iceUfrag
        icePwd := if cl.localCredentials.ufrag ≠ desc.iceUfrag ∧
            cl.localCredentials.pwd ≠ desc.icePwd then cl.localCredentials.pwd else ""
        iceMismatch := cl.mismatch
        iceCandidates := if cl.state = .failed then stream.iceCandidates
          else writtenCandidates desc cl (updateAddresses cl stream)
        iceRemoteCandidates := cl.remoteCandidates session.role } := by
  simp only [updateStream, hlist, hactive, Bool.not_true, Bool.false_eq_true, if_false,
    updateRemoteCandidates_eq, updateCandidates_eq, updateCredentials_eq,
    (updateAddresses_ice cl stream).1, (updateAddresses_ice cl stream).2]
  rfl

end

/-! ## Credentials -/

/-- The credentials a peer derives are those of the check list exactly when they are apart. -/
theorem credentials_shown_iff (desc : SalMediaDescription) (session : IceSession)
    (cl : IceCheckList) (stream shown : SalStreamDescription)
    (hdesc : desc.iceUfrag = session.localCredentials.ufrag)
    (hdescPwd : desc.icePwd = session.localCredentials.pwd)
    (hufrag : shown.iceUfrag = if cl.localCredentials.ufrag ≠ desc.iceUfrag then
      cl.localCredentials.ufrag else stream.iceUfrag)
    (hpwd : shown.icePwd = if cl.localCredentials.ufrag ≠ desc.iceUfrag ∧
      cl.localCredentials.pwd ≠ desc.icePwd then cl.localCredentials.pwd else "") :
    (peerUfrag desc shown = cl.localCredentials.ufrag ∧
      peerPwd desc shown = cl.localCredentials.pwd ∧
        (shown.iceUfrag = "" ↔ shown.icePwd = "")) ↔ CredentialsApart session cl stream := by
  unfold peerUfrag peerPwd CredentialsApart
  rw [hufrag, hpwd, hdesc, hdescPwd]
  by_cases hsame : cl.localCredentials.ufrag = session.localCredentials.ufrag <;>
    by_cases hsamePwd : cl.localCredentials.pwd = session.localCredentials.pwd
  · -- both are those of the session: the user fragment of the stream is left as it was
    simp only [hsame, hsamePwd, ne_eq, not_true_eq_false, false_and, and_false, if_false,
      true_and, iff_true, false_or]
    constructor
    · rintro ⟨_, hleft⟩
      exact hleft
    · intro hleft
      exact ⟨by simp [hleft], hleft⟩
  · -- the password of the check list is cleared with the one branch or the other
    simp [hsame, hsamePwd, Ne.symm hsamePwd]
  · -- the user fragment is given without the password
    by_cases hempty : cl.localCredentials.ufrag = ""
    · simp [hsamePwd, hempty, Ne.symm (hempty ▸ hsame)]
    · simp [hsame, hsamePwd, hempty]
  · by_cases hempty : cl.localCredentials.ufrag = ""
    · simp [hsamePwd, hempty, Ne.symm (hempty ▸ hsame), hempty ▸ hsame]
    · by_cases hemptyPwd : cl.localCredentials.pwd = ""
      · simp [hsame, hempty, hemptyPwd, Ne.symm (hemptyPwd ▸ hsamePwd), hemptyPwd ▸ hsamePwd]
      · simp [hsame, hsamePwd, hempty, hemptyPwd]

/-! ## Candidates -/

section

variable (desc : SalMediaDescription) (session : IceSession) (cl : IceCheckList)
  (stream : SalStreamDescription)

theorem included_congr {desc' : SalMediaDescription} {stream' : SalStreamDescription}
    (haddr : desc.addr = desc'.addr)
    (hrtp : stream.rtpAddr = stream'.rtpAddr ∧ stream.rtpPort = stream'.rtpPort)
    (hrtcp : stream.rtcpAddr = stream'.rtcpAddr ∧ stream.rtcpPort = stream'.rtcpPort) :
    included desc stream cl = included desc' stream' cl := by
  funext c
  unfold included defaultDestination
  rw [haddr, hrtp.1, hrtp.2, hrtcp.1, hrtcp.2]

/-- The first twenty candidates are all of them exactly when none after them is included. -/
theorem writtenCandidates_eq_iff :
    writtenCandidates desc cl stream =
        (cl.localCandidates.filter (included desc stream cl)).map IceCandidate.toSal ↔
      ∀ c ∈ cl.localCandidates.drop maxIceCandidates, included desc stream cl c = false := by
  have hsplit : (cl.localCandidates.filter (included desc stream cl)).map IceCandidate.toSal =
      writtenCandidates desc cl stream ++
        ((cl.localCandidates.drop maxIceCandidates).filter (included desc stream cl)).map
          IceCandidate.toSal := by
    rw [writtenCandidates, ← List.map_append, ← List.filter_append, List.take_append_drop]
  rw [hsplit, List.self_eq_append_right, List.map_eq_nil_iff, List.filter_eq_nil_iff]
  simp only [Bool.not_eq_true]

/-- A stream shows its check list exactly when the credentials are apart and the candidates fit. -/
theorem updateStream_shows_iff {i : Nat} (hlist : session.checkList i = some cl)
    (hactive : stream.active = true) {desc' : SalMediaDescription}
    (hdesc : desc'.iceUfrag = (updateSession desc session).iceUfrag)
    (hdescPwd : desc'.icePwd = (updateSession desc session).icePwd)
    (haddr : desc'.addr = (updateSession desc session).addr) :
    ShowsCheckList desc' session.role cl
        (updateStream (updateSession desc session) session i stream) ↔
      CredentialsApart session cl stream ∧ CandidatesFit desc session cl stream := by
  have heq := updateStream_eq (updateSession desc session) session cl stream hlist hactive
  have hcandidates : (updateStream (updateSession desc session) session i stream).iceCandidates =
      cl.candidates desc' (updateStream (updateSession desc session) session i stream) ↔
        CandidatesFit desc session cl stream := by
    have hincluded := included_congr desc' cl
      (updateStream (updateSession desc session) session i stream) haddr
      (show _ = (updateAddresses cl stream).rtpAddr ∧ _ = (updateAddresses cl stream).rtpPort by
        rw [heq]; exact ⟨rfl, rfl⟩)
      (by rw [heq]; exact ⟨rfl, rfl⟩)
    unfold CandidatesFit IceCheckList.candidates
    rw [hincluded, heq]
    by_cases hfailed : cl.state = .failed
    · simp only [hfailed, if_true]
    · simp only [hfailed, if_false]
      exact writtenCandidates_eq_iff (updateSession desc session) cl (updateAddresses cl stream)
  have hcredentials := credentials_shown_iff desc' session cl stream
    (updateStream (updateSession desc session) session i stream) hdesc hdescPwd
    (by rw [heq, hdesc]) (by rw [heq, hdesc, hdescPwd])
  constructor
  · intro hshows
    exact ⟨hcredentials.mp ⟨hshows.ufrag, hshows.pwd, hshows.both⟩,
      hcandidates.mp hshows.candidates⟩
  · rintro ⟨hapart, hfit⟩
    obtain ⟨hufrag, hpwd, hboth⟩ := hcredentials.mpr hapart
    exact ⟨hufrag, hpwd, hboth, hcandidates.mpr hfit, by rw [heq]⟩

end

/-! ## The description -/

/-- A session whose only check list has these credentials. -/
def sessionWith (own : IceCredentials) : IceSession where
  localCredentials := { ufrag := "a", pwd := "b" }
  checkLists := [some { localCredentials := own }]

/-- A description with one audio stream. -/
def audioDescription : SalMediaDescription :=
  ({ nbStreams := 1 } : SalMediaDescription).setStream 0 { rtpPort := 7078 }

/-- The description after a run for a check list with credentials of its own. -/
def describedBefore : SalMediaDescription :=
  updateLocalMediaDescriptionFromIce audioDescription (sessionWith { ufrag := "x", pwd := "y" })

end Linphone
