import Linphone.Call.IceDescription

/-!
# Remote descriptions and ICE

`linphone_call_update_ice_from_remote_media_description` (`coreapi/misc.c`): the credentials and the
candidates that a peer gives are handed to the ICE session of a call, which is restarted when
they changed, and deleted when the peer does not give them.

Each of the loops over the m-lines looks at a part of the description. Beside their translation
stands what they amount to: the session is `CredentialsFound`, an `EarlyRestart` or a `LateRestart`
is made, and every check list has `known` credentials in between. `ice_updates_iff`: the session is
kept, restarted and given its credentials as it should be exactly when the description is
`IceUpdatable`.
-/

namespace Linphone

/-! ## The library -/

/-- The remote credentials of the check lists there are. -/
def IceSession.own (session : IceSession) (i : Nat) : Option (Option IceCredentials) :=
  (session.checkList i).map fun cl => cl.remoteCredentials

/-- What the update uses of mediastreamer2: a restart keeps the check lists, and forgets the remote
credentials of the session and of each of them. -/
structure IceLibrary where
  restart : IceSession → IceSession
  restart_remoteCredentials : ∀ session, (restart session).remoteCredentials = none
  restart_own : ∀ session i, (restart session).own i = (session.own i).map fun _ => none

/-- `ice_session_remove_check_list`, and other changes of a check list by its index -/
def IceSession.mapCheckLists (session : IceSession) (f : Nat → IceCheckList → Option IceCheckList) :
    IceSession :=
  { session with checkLists := session.checkLists.mapIdx fun i slot => slot.bind (f i) }

theorem IceSession.checkList_mapCheckLists (session : IceSession)
    (f : Nat → IceCheckList → Option IceCheckList) (i : Nat) :
    (session.mapCheckLists f).checkList i = (session.checkList i).bind (f i) := by
  unfold checkList mapCheckLists
  rw [List.getElem?_mapIdx]
  cases session.checkLists[i]? with
  | none => rfl
  | some slot => rfl

/-- `ice_session_nb_check_lists` -/
def IceSession.nbCheckLists (session : IceSession) : Nat :=
  session.checkLists.countP fun slot => slot.isSome

theorem IceSession.nbCheckLists_eq_zero (session : IceSession) :
    session.nbCheckLists = 0 ↔ ∀ i, session.checkList i = none := by
  unfold nbCheckLists checkList
  rw [List.countP_eq_zero]
  constructor
  · intro hnone i
    cases hslot : session.checkLists[i]? with
    | none => rfl
    | some slot =>
        have hempty := hnone slot (List.mem_of_getElem? hslot)
        simpa using hempty
  · intro hnone slot hslot
    obtain ⟨i, hi⟩ := List.getElem?_of_mem hslot
    have hempty := hnone i
    rw [hi] at hempty
    simpa using hempty

/-! ## Credentials of a description -/

/-- The credentials at media level, when both are given. -/
def SalStreamDescription.iceCredentials (stream : SalStreamDescription) : Option IceCredentials :=
  if stream.icePwd ≠ "" ∧ stream.iceUfrag ≠ "" then
    some { ufrag := stream.iceUfrag, pwd := stream.icePwd }
  else none

/-- The texts at session level, given or not. -/
def SalMediaDescription.iceCredentials (md : SalMediaDescription) : IceCredentials where
  ufrag := md.iceUfrag
  pwd := md.icePwd

/-! ## The update -/

/-- The update while it runs. -/
structure IceUpdate where
  session : IceSession
  iceRestarted : Bool := false
  /-- The calls of `ice_session_restart`. -/
  restarts : Nat := 0

/-- The loop that looks for `ice_params_found` at media level. It stops at the first check list
without credentials. -/
def paramsLoop (md : SalMediaDescription) (session : IceSession) (found : Bool) :
    List Nat → Bool
  | [] => found
  | i :: rest =>
      match session.checkList i with
      | none => paramsLoop md session found rest
      | some _ =>
          if ((md.stream i).iceCredentials).isSome then paramsLoop md session true rest
          else false

def iceParamsFound (md : SalMediaDescription) (session : IceSession) : Bool :=
  if md.icePwd ≠ "" ∧ md.iceUfrag ≠ "" then true
  else paramsLoop md session false (List.range md.nbStreams)

section

variable (lib : IceLibrary) (md : SalMediaDescription)

def IceUpdate.restart (u : IceUpdate) : IceUpdate where
  session := lib.restart u.session
  iceRestarted := true
  restarts := u.restarts + 1

/-- A restart for a null connection address. -/
def restartForNullAddress (u : IceUpdate) : IceUpdate :=
  if md.addr = "0.0.0.0" ∨ md.addr = "::0" then u.restart lib
  else if (List.range md.nbStreams).any fun i =>
      (u.session.checkList i).isSome && (md.stream i).rtpAddr == "0.0.0.0" then u.restart lib
  else u

/-- `ice_session_set_remote_credentials` with those of the description -/
def IceUpdate.setSessionCredentials (u : IceUpdate) : IceUpdate :=
  { u with session := { u.session with remoteCredentials := some md.iceCredentials } }

/-- The credentials at session level. -/
def updateSessionCredentials (u : IceUpdate) : IceUpdate :=
  match u.session.remoteCredentials with
  | none => u.setSessionCredentials md
  | some remote =>
      if remote ≠ md.iceCredentials then
        let u := if u.iceRestarted then u else u.restart lib
        u.setSessionCredentials md
      else u

/-- `ice_check_list_remote_credentials_changed`: unknown credentials are changed too. -/
def credentialsChanged (own : Option (Option IceCredentials)) (given : Option IceCredentials) :
    Bool :=
  match own, given with
  | some own, some given => own ≠ some given
  | _, _ => false

/-- `ice_check_list_set_remote_credentials` -/
def IceUpdate.setListCredentials (u : IceUpdate) (i : Nat) (given : Option IceCredentials) :
    IceUpdate :=
  { u with
    session := u.session.mapCheckLists fun j cl =>
      some (if j = i then { cl with remoteCredentials := given } else cl) }

/-- The check list the second loop stops at. -/
def firstChanged (u : IceUpdate) : Option Nat :=
  (List.range md.nbStreams).find? fun i =>
    credentialsChanged (u.session.own i) (md.stream i).iceCredentials

/-- The first check list whose credentials at media level changed. -/
def updateFirstChanged (u : IceUpdate) : IceUpdate :=
  match firstChanged md u with
  | none => u
  | some i =>
      let wasSet := (u.session.own i).join.isSome
      let u := if !u.iceRestarted && wasSet then u.restart lib else u
      u.setListCredentials i (md.stream i).iceCredentials

end

/-- `get_default_addr_and_port` -/
def getDefaultAddrAndPort (componentID : Nat) (md : SalMediaDescription)
    (stream : SalStreamDescription) : Option IceTransportAddress :=
  let filled (addr : String) : String := if addr = "" then md.addr else addr
  if componentID = 1 then some { ip := filled stream.rtpAddr, port := stream.rtpPort }
  else if componentID = 2 then some { ip := filled stream.rtcpAddr, port := stream.rtcpPort }
  else none

/-- The candidates handed to a check list, each with whether it is the default one. -/
def remoteCandidatesOf (md : SalMediaDescription) (stream : SalStreamDescription) :
    List IceRemoteCandidate :=
  (stream.iceCandidates.takeWhile fun c => c.addr ≠ "").filterMap fun c =>
    if c.componentID = 0 ∨ c.componentID > 2 then none
    else
      let dest := getDefaultAddrAndPort c.componentID.toNat md stream
      some { candidate := c, isDefault := dest = some { ip := c.addr, port := c.port } }

/-- The pairs of the remote candidates, which lose against the ones the peer has selected. -/
def losingPairsOf (md : SalMediaDescription) (stream : SalStreamDescription) :
    List IceLosingPair :=
  let given := stream.iceRemoteCandidates.takeWhile fun c => c.addr ≠ ""
  (given.mapIdx fun j c => (getDefaultAddrAndPort (j + 1) md stream).map fun dest =>
    { componentID := j + 1
      localAddr := { ip := c.addr, port := c.port }
      remoteAddr := dest }).reduceOption

/-- One check list of the third loop. -/
def updateCheckList (md : SalMediaDescription) (restarted : Bool) (stream : SalStreamDescription)
    (cl : IceCheckList) : Option IceCheckList :=
  if stream.iceMismatch then some { cl with state := .failed }
  else if stream.rtpPort = 0 then none
  else
    let cl := match stream.iceCredentials with
      | some given => { cl with remoteCredentials := some given }
      | none => cl
    let cl := { cl with addedCandidates := cl.addedCandidates ++ remoteCandidatesOf md stream }
    some (if restarted then cl
      else { cl with losingPairs := cl.losingPairs ++ losingPairsOf md stream })

/-- The third loop. -/
def updateCheckLists (md : SalMediaDescription) (u : IceUpdate) : IceUpdate :=
  { u with
    session := u.session.mapCheckLists fun i cl =>
      if i < md.nbStreams then updateCheckList md u.iceRestarted (md.stream i) cl else some cl }

/-- The last loop. -/
def removeInactive (md : SalMediaDescription) (u : IceUpdate) : IceUpdate :=
  { u with
    session := u.session.mapCheckLists fun i cl =>
      if i < md.nbStreams ∧ !(md.stream i).active then none else some cl }

/-- `linphone_call_update_ice_from_remote_media_description`: the session, unless it is deleted, and
the number of its restarts. -/
def updateIceFromRemoteMediaDescription (lib : IceLibrary) (md : SalMediaDescription)
    (session : IceSession) : Option IceSession × Nat :=
  if iceParamsFound md session then
    let u := restartForNullAddress lib md { session := session }
    let u := updateSessionCredentials lib md u
    let u := updateFirstChanged lib md u
    let u := updateCheckLists md u
    let u := removeInactive md u
    if u.session.nbCheckLists = 0 then (none, u.restarts) else (some u.session, u.restarts)
  else (none, 0)

/-! ## What the update is for -/

section

variable (md : SalMediaDescription) (session : IceSession)

/-- The description has credentials at session level. -/
def SalMediaDescription.GivesCommon : Prop := md.icePwd ≠ "" ∧ md.iceUfrag ≠ ""

/-- Credentials are given for every check list whose m-line is not refused. -/
def GivesCredentials : Prop :=
  ∀ i < md.nbStreams, (session.own i).isSome → (md.stream i).active = true →
    md.GivesCommon ∨ ((md.stream i).iceCredentials).isSome

/-- The credentials of an m-line: those at media level, or else those at session level. -/
def SalMediaDescription.credentialsFor (i : Nat) : IceCredentials :=
  ((md.stream i).iceCredentials).getD md.iceCredentials

def IsNullAddress (addr : String) : Prop := addr = "0.0.0.0" ∨ addr = "::0"

/-- A null connection address is signalled, at session level or for a check list. -/
def NullAddress : Prop :=
  IsNullAddress md.addr ∨
    ∃ i < md.nbStreams, (session.own i).isSome ∧ IsNullAddress (md.stream i).rtpAddr

/-- The known credentials of the session changed. -/
def SessionChanged : Prop :=
  ∃ remote, session.remoteCredentials = some remote ∧ remote ≠ md.iceCredentials

/-- The known credentials of a check list changed. A refused m-line gives no others unless it has
them at media level. -/
def ListChanged (i : Nat) : Prop :=
  ∃ own, session.own i = some (some own) ∧ own ≠ md.credentialsFor i ∧
    (((md.stream i).iceCredentials).isSome ∨ (md.stream i).active = true)

/-- A restart is due. -/
def RestartDue : Prop :=
  NullAddress md session ∨ SessionChanged md session ∨ ∃ i < md.nbStreams, ListChanged md session i

/-- The remote credentials a check list uses: its own, or else those of the session. -/
def IceSession.remoteOf (i : Nat) : Option IceCredentials :=
  (session.own i).bind fun own => own.or session.remoteCredentials

/-- The session after a description: kept for the credentials, with check lists for the active
streams only, each with the credentials of its m-line, and restarted once when that is due. -/
structure IceUpdated (result : Option IceSession) (restarts : Nat) : Prop where
  kept : result.isSome ↔ GivesCredentials md session
  lists : ∀ after, result = some after → ∀ i, (after.own i).isSome →
    i < md.nbStreams ∧ (md.stream i).active = true ∧ after.remoteOf i = some (md.credentialsFor i)
  once : restarts ≤ 1
  restarted : result.isSome → (restarts = 1 ↔ RestartDue md session)

/-! ## The condition -/

/-- The credentials are found: they are given at session level, or at media level for every check
list, that of a refused m-line too. -/
def CredentialsFound : Prop :=
  md.GivesCommon ∨ (∃ i < md.nbStreams, (session.own i).isSome) ∧
    ∀ i < md.nbStreams, (session.own i).isSome → ((md.stream i).iceCredentials).isSome

/-- A restart before the credentials of the check lists are looked at. `::0` is seen at session
level only. -/
def EarlyRestart : Prop :=
  IsNullAddress md.addr ∨
    (∃ i < md.nbStreams, (session.own i).isSome ∧ (md.stream i).rtpAddr = "0.0.0.0") ∨
      SessionChanged md session

open Classical in
/-- What is still known of the credentials of the check lists then. -/
noncomputable def knownCredentials (i : Nat) : Option (Option IceCredentials) :=
  if EarlyRestart md session then (session.own i).map fun _ => none else session.own i

/-- The first check list for which other credentials than the known ones are given at media
level. -/
def FirstChanged (i : Nat) : Prop :=
  let changed j := credentialsChanged (knownCredentials md session j) (md.stream j).iceCredentials
  i < md.nbStreams ∧ changed i = true ∧ ∀ j < i, changed j = false

/-- A restart for the credentials of that check list. The credentials of the session, which were
just set, are forgotten by it. -/
def LateRestart : Prop :=
  ¬ EarlyRestart md session ∧
    ∃ i own, FirstChanged md session i ∧ session.own i = some (some own)

/-- The credentials reach a check list: they are set, or else those that the list goes on with are
the same. -/
def CredentialsReach (i : Nat) : Prop :=
  ((md.stream i).iceCredentials).isSome ∧ (md.stream i).iceMismatch = false ∨
    FirstChanged md session i ∨
      ¬ LateRestart md session ∧
        ((knownCredentials md session i).join).getD md.iceCredentials = md.credentialsFor i

structure ReadyForUpdate : Prop where
  found : CredentialsFound md session
  listed : ∀ i, (session.own i).isSome → i < md.nbStreams
  remains : ∃ i < md.nbStreams, (session.own i).isSome ∧ (md.stream i).active = true
  reach : ∀ i < md.nbStreams, (session.own i).isSome → (md.stream i).active = true →
    CredentialsReach md session i
  restarted : RestartDue md session → EarlyRestart md session ∨ LateRestart md session

/-- The descriptions that a session is updated from as it should be. -/
def IceUpdatable : Prop := GivesCredentials md session → ReadyForUpdate md session

end

/-! ## The loops -/

section

variable (lib : IceLibrary) (md : SalMediaDescription) (session : IceSession)

theorem IceSession.own_isSome (i : Nat) :
    (session.own i).isSome = (session.checkList i).isSome := by
  simp [IceSession.own]

theorem paramsLoop_eq (found : Bool) (rest : List Nat) :
    paramsLoop md session found rest = true ↔
      (found = true ∨ ∃ i ∈ rest, (session.own i).isSome) ∧
        ∀ i ∈ rest, (session.own i).isSome → ((md.stream i).iceCredentials).isSome := by
  induction rest generalizing found with
  | nil => simp [paramsLoop]
  | cons i rest ih =>
      unfold paramsLoop
      cases hlist : session.checkList i with
      | none =>
          have hown : session.own i = none := by simp [IceSession.own, hlist]
          simp [ih, hown]
      | some cl =>
          have hown : (session.own i).isSome := by simp [IceSession.own, hlist]
          by_cases hgiven : ((md.stream i).iceCredentials).isSome
          · simp [ih, hown, hgiven]
          · simp [hown, hgiven]

theorem iceParamsFound_iff :
    iceParamsFound md session = true ↔ CredentialsFound md session := by
  unfold iceParamsFound CredentialsFound SalMediaDescription.GivesCommon
  by_cases hcommon : md.icePwd ≠ "" ∧ md.iceUfrag ≠ ""
  · simp only [hcommon, if_true, true_or, ne_eq, not_false_eq_true, and_self]
  · simp only [hcommon, if_false, paramsLoop_eq, Bool.false_eq_true, false_or, List.mem_range]

/-- What an update holds: whether it has restarted, which it counts, the credentials of the session
and those of its check lists. -/
structure IceUpdate.Holds (u : IceUpdate) (restarted : Prop) (remote : Option IceCredentials)
    (own : Nat → Option (Option IceCredentials)) : Prop where
  flag : u.iceRestarted = true ↔ restarted
  count : u.restarts = if u.iceRestarted then 1 else 0
  remote : u.session.remoteCredentials = remote
  own : u.session.own = own

variable {lib md session}

variable (lib) in
theorem IceUpdate.Holds.restart {u : IceUpdate} {restarted : Prop}
    {remote : Option IceCredentials} {own : Nat → Option (Option IceCredentials)}
    (h : u.Holds restarted remote own) (hnot : u.iceRestarted = false) :
    (u.restart lib).Holds True none fun i => (own i).map fun _ => none where
  flag := ⟨fun _ => trivial, fun _ => rfl⟩
  count := by
    show u.restarts + 1 = 1
    rw [h.count, hnot]
    rfl
  remote := lib.restart_remoteCredentials u.session
  own := by
    funext i
    rw [← h.own]
    exact lib.restart_own u.session i

variable (md) in
theorem IceUpdate.Holds.setSession {u : IceUpdate} {restarted : Prop}
    {remote : Option IceCredentials} {own : Nat → Option (Option IceCredentials)}
    (h : u.Holds restarted remote own) :
    (u.setSessionCredentials md).Holds restarted (some md.iceCredentials) own :=
  ⟨h.flag, h.count, rfl, h.own⟩

theorem IceUpdate.Holds.congr {u : IceUpdate} {restarted restarted' : Prop}
    {remote : Option IceCredentials} {own own' : Nat → Option (Option IceCredentials)}
    (h : u.Holds restarted remote own) (hrestarted : restarted ↔ restarted') (hown : own = own') :
    u.Holds restarted' remote own' :=
  ⟨h.flag.trans hrestarted, h.count, h.remote, h.own.trans hown⟩

theorem knownCredentials_of_early (hearly : EarlyRestart md session) :
    knownCredentials md session = fun i => (session.own i).map fun _ => none := by
  funext i
  unfold knownCredentials
  rw [if_pos hearly]

theorem knownCredentials_of_not_early (hearly : ¬ EarlyRestart md session) :
    knownCredentials md session = session.own := by
  funext i
  unfold knownCredentials
  rw [if_neg hearly]

variable (lib md) in
theorem restartForNullAddress_eq (u : IceUpdate) :
    (restartForNullAddress lib md u = u.restart lib ∧ (IsNullAddress md.addr ∨
        ∃ i < md.nbStreams, (u.session.own i).isSome ∧ (md.stream i).rtpAddr = "0.0.0.0")) ∨
      (restartForNullAddress lib md u = u ∧ ¬ (IsNullAddress md.addr ∨
        ∃ i < md.nbStreams, (u.session.own i).isSome ∧ (md.stream i).rtpAddr = "0.0.0.0")) := by
  unfold restartForNullAddress IsNullAddress
  by_cases haddr : md.addr = "0.0.0.0" ∨ md.addr = "::0"
  · exact Or.inl ⟨by rw [if_pos haddr], Or.inl haddr⟩
  · rw [if_neg haddr]
    by_cases hline : (List.range md.nbStreams).any fun i =>
        (u.session.checkList i).isSome && (md.stream i).rtpAddr == "0.0.0.0"
    · refine Or.inl ⟨by rw [if_pos hline], Or.inr ?_⟩
      simpa [IceSession.own_isSome] using hline
    · refine Or.inr ⟨by rw [if_neg hline], ?_⟩
      rintro (hnull | hnull)
      · exact haddr hnull
      · exact hline (by simpa [IceSession.own_isSome] using hnull)

variable (lib md session) in
/-- **After the session**: it has the credentials of the description, and was restarted when an
early restart is made. -/
theorem updateSessionCredentials_holds :
    (updateSessionCredentials lib md (restartForNullAddress lib md { session := session })).Holds
      (EarlyRestart md session) (some md.iceCredentials) (knownCredentials md session) := by
  have hstart : ({ session := session } : IceUpdate).Holds False session.remoteCredentials
      session.own := ⟨by simp, rfl, rfl, rfl⟩
  rcases restartForNullAddress_eq lib md { session := session } with
    ⟨heq, hnull⟩ | ⟨heq, hnull⟩
  · have hearly : EarlyRestart md session := by
      rcases hnull with haddr | hline
      · exact Or.inl haddr
      · exact Or.inr (Or.inl hline)
    have hholds := hstart.restart lib rfl
    rw [heq, updateSessionCredentials, hholds.remote]
    exact (hholds.setSession md).congr ⟨fun _ => hearly, fun _ => trivial⟩
      (knownCredentials_of_early hearly).symm
  · have hearly : EarlyRestart md session ↔ SessionChanged md session := by
      constructor
      · rintro (haddr | hline | hchanged)
        · exact absurd (Or.inl haddr) hnull
        · exact absurd (Or.inr hline) hnull
        · exact hchanged
      · exact fun hchanged => Or.inr (Or.inr hchanged)
    rw [heq, updateSessionCredentials]
    cases hremote : session.remoteCredentials with
    | none =>
        have hkept : ¬ EarlyRestart md session := by
          rw [hearly]
          rintro ⟨remote, hsome, _⟩
          simp [hremote] at hsome
        exact (hstart.setSession md).congr ⟨False.elim, hkept⟩
          (knownCredentials_of_not_early hkept).symm
    | some remote =>
        by_cases hchanged : remote ≠ md.iceCredentials
        · have hearly' : EarlyRestart md session := hearly.mpr ⟨remote, hremote, hchanged⟩
          simp only [hchanged, ne_eq, not_false_eq_true, if_true, Bool.false_eq_true, if_false]
          exact ((hstart.restart lib rfl).setSession md).congr
            ⟨fun _ => hearly', fun _ => trivial⟩ (knownCredentials_of_early hearly').symm
        · have hkept : ¬ EarlyRestart md session := by
            rw [hearly]
            rintro ⟨other, hsome, hother⟩
            rw [hremote] at hsome
            exact hchanged (Option.some.inj hsome ▸ hother)
          simp only [hchanged, if_false]
          refine IceUpdate.Holds.congr ?_ ⟨False.elim, hkept⟩
            (knownCredentials_of_not_early hkept).symm
          rw [not_not.mp hchanged] at hremote
          exact ⟨hstart.flag, hstart.count, hremote, hstart.own⟩

theorem credentialsChanged_given {own : Option (Option IceCredentials)}
    {given : Option IceCredentials} (hchanged : credentialsChanged own given = true) :
    given.isSome := by
  cases given with
  | none => cases own <;> simp [credentialsChanged] at hchanged
  | some given => rfl

theorem firstChanged_iff {u : IceUpdate} (hown : u.session.own = knownCredentials md session)
    (i : Nat) : firstChanged md u = some i ↔ FirstChanged md session i := by
  unfold firstChanged FirstChanged
  rw [List.find?_range_eq_some, hown]
  constructor
  · rintro ⟨hchanged, hi, hbefore⟩
    exact ⟨List.mem_range.mp hi, hchanged, fun j hj => by simpa using hbefore j hj⟩
  · rintro ⟨hi, hchanged, hbefore⟩
    exact ⟨hchanged, List.mem_range.mpr hi, fun j hj => by simpa using hbefore j hj⟩

theorem FirstChanged.unique {i j : Nat} (hi : FirstChanged md session i)
    (hj : FirstChanged md session j) : i = j := by
  rcases Nat.lt_trichotomy i j with hlt | heq | hlt
  · exact absurd hi.2.1 (by simpa using hj.2.2 i hlt)
  · exact heq
  · exact absurd hj.2.1 (by simpa using hi.2.2 j hlt)

theorem own_setListCredentials (u : IceUpdate) (i : Nat) (given : Option IceCredentials) :
    (u.setListCredentials i given).session.own =
      fun j => if j = i then (u.session.own j).map fun _ => given else u.session.own j := by
  funext j
  unfold IceUpdate.setListCredentials IceSession.own
  rw [IceSession.checkList_mapCheckLists]
  by_cases hj : j = i
  · simp only [hj, if_true]
    cases u.session.checkList i <;> rfl
  · simp only [hj, if_false]
    cases u.session.checkList j <;> rfl

open Classical in
/-- The credentials of the check lists after the second loop. -/
noncomputable def secondCredentials (md : SalMediaDescription) (session : IceSession) (i : Nat) :
    Option (Option IceCredentials) :=
  if FirstChanged md session i then (session.own i).map fun _ => (md.stream i).iceCredentials
  else if LateRestart md session then (session.own i).map fun _ => none
  else knownCredentials md session i

theorem known_map (i : Nat) (given : Option IceCredentials) :
    (knownCredentials md session i).map (fun _ => given) = (session.own i).map fun _ => given := by
  unfold knownCredentials
  split
  · cases session.own i <;> rfl
  · rfl

/-- Where the second loop stops, a late restart is one for credentials that were set. -/
theorem lateRestart_iff {i : Nat} (hfirst : FirstChanged md session i) :
    LateRestart md session ↔
      ¬ EarlyRestart md session ∧ (knownCredentials md session i).join.isSome := by
  unfold LateRestart
  refine and_congr_right fun hearly => ?_
  rw [knownCredentials_of_not_early hearly]
  constructor
  · rintro ⟨j, own, hj, hown⟩
    rw [hfirst.unique hj, hown]
    rfl
  · intro hset
    obtain ⟨own, hown⟩ := Option.isSome_iff_exists.mp hset
    exact ⟨i, own, hfirst, Option.join_eq_some_iff.mp hown⟩

open Classical in
variable (lib) in
/-- **After the second loop.** -/
theorem updateFirstChanged_holds {u : IceUpdate}
    (h : u.Holds (EarlyRestart md session) (some md.iceCredentials)
      (knownCredentials md session)) :
    (updateFirstChanged lib md u).Holds (EarlyRestart md session ∨ LateRestart md session)
      (if LateRestart md session then none else some md.iceCredentials)
      (secondCredentials md session) := by
  unfold updateFirstChanged
  cases hfound : firstChanged md u with
  | none =>
      have hnone : ∀ i, ¬ FirstChanged md session i := fun i hi => by
        rw [← firstChanged_iff h.own] at hi
        simp [hfound] at hi
      have hlate : ¬ LateRestart md session := by
        rintro ⟨_, i, _, hi, _⟩
        exact hnone i hi
      rw [if_neg hlate]
      refine h.congr ⟨Or.inl, fun hor => hor.resolve_right hlate⟩ ?_
      funext i
      unfold secondCredentials
      rw [if_neg (hnone i), if_neg hlate]
  | some i =>
      have hfirst : FirstChanged md session i := (firstChanged_iff h.own i).mp hfound
      have hlate := lateRestart_iff hfirst
      rw [← h.own] at hlate
      by_cases hrestart : LateRestart md session
      · have hnot : u.iceRestarted = false := by
          rw [← Bool.not_eq_true, h.flag]
          exact (hlate.mp hrestart).1
        have hrestarted := h.restart lib hnot
        simp only [hnot, (hlate.mp hrestart).2, Bool.not_false, Bool.and_self, if_true, hrestart]
        refine ⟨?_, hrestarted.count, hrestarted.remote, ?_⟩
        · exact ⟨fun _ => Or.inr trivial, fun _ => rfl⟩
        · rw [own_setListCredentials, hrestarted.own]
          funext j
          unfold secondCredentials
          by_cases hj : j = i
          · subst hj
            rw [if_pos rfl, if_pos hfirst, Option.map_map]
            exact known_map j _
          · rw [if_neg hj, if_neg (fun hj' => hj (hj'.unique hfirst)), if_pos hrestart]
            exact known_map j none
      · have hskip : (!u.iceRestarted && (u.session.own i).join.isSome) = false := by
          rw [Bool.and_eq_false_iff, Bool.not_eq_false', h.flag]
          by_contra hboth
          rw [not_or, Bool.not_eq_false] at hboth
          exact hrestart (hlate.mpr hboth)
        simp only [hskip, Bool.false_eq_true, if_false, hrestart, or_false]
        refine ⟨h.flag, h.count, h.remote, ?_⟩
        rw [own_setListCredentials, h.own]
        funext j
        unfold secondCredentials
        by_cases hj : j = i
        · subst hj
          rw [if_pos rfl, if_pos hfirst]
          exact known_map j _
        · rw [if_neg hj, if_neg (fun hj' => hj (hj'.unique hfirst)), if_neg hrestart]

/-- The credentials of the check lists at the end. -/
noncomputable def finalCredentials (md : SalMediaDescription) (session : IceSession) (i : Nat) :
    Option (Option IceCredentials) :=
  if i < md.nbStreams then
    if (md.stream i).active then
      (secondCredentials md session i).map fun own =>
        if (md.stream i).iceMismatch then own else ((md.stream i).iceCredentials).or own
    else none
  else secondCredentials md session i

variable (md) in
theorem updateCheckList_own (restarted : Bool) (stream : SalStreamDescription) (cl : IceCheckList)
    (hactive : stream.active = true) :
    (updateCheckList md restarted stream cl).map (fun cl => cl.remoteCredentials) =
      some (if stream.iceMismatch then cl.remoteCredentials
        else stream.iceCredentials.or cl.remoteCredentials) := by
  unfold updateCheckList
  have hport : stream.rtpPort ≠ 0 := by
    intro hzero
    simp [SalStreamDescription.active, hzero] at hactive
  by_cases hmismatch : stream.iceMismatch
  · simp [hmismatch]
  · cases hgiven : stream.iceCredentials with
    | none => cases restarted <;> simp [hmismatch, hport]
    | some given => cases restarted <;> simp [hmismatch, hport]

/-- **After the last loops.** -/
theorem finalCredentials_holds {u : IceUpdate}
    (hown : u.session.own = secondCredentials md session) :
    (removeInactive md (updateCheckLists md u)).session.own = finalCredentials md session := by
  funext i
  unfold finalCredentials
  rw [← hown]
  unfold removeInactive updateCheckLists IceSession.own
  simp only [IceSession.checkList_mapCheckLists]
  cases u.session.checkList i with
  | none => simp
  | some cl =>
      by_cases hi : i < md.nbStreams
      · by_cases hactive : (md.stream i).active = true
        · have hlist := updateCheckList_own md u.iceRestarted (md.stream i) cl hactive
          simp only [hi, hactive, if_true, Option.bind_some, Bool.not_true, Bool.false_eq_true,
            and_false, if_false, Option.bind_fun_some, Option.map_some]
          exact hlist
        · simp [hi, hactive]
      · simp [hi]

/-! ## The session after a description -/

theorem second_isSome (i : Nat) :
    (secondCredentials md session i).isSome = (session.own i).isSome := by
  unfold secondCredentials knownCredentials
  split_ifs <;> simp

variable (md session) in
theorem final_isSome (i : Nat) :
    (finalCredentials md session i).isSome = true ↔
      (session.own i).isSome ∧ (i < md.nbStreams → (md.stream i).active = true) := by
  unfold finalCredentials
  by_cases hi : i < md.nbStreams
  · by_cases hactive : (md.stream i).active = true
    · rw [if_pos hi, if_pos hactive, Option.isSome_map, second_isSome]
      exact ⟨fun hlist => ⟨hlist, fun _ => hactive⟩, fun hlist => hlist.1⟩
    · rw [if_pos hi, if_neg hactive]
      exact ⟨fun hnone => absurd hnone (by simp), fun hlist => absurd (hlist.2 hi) hactive⟩
  · rw [if_neg hi, second_isSome]
    exact ⟨fun hlist => ⟨hlist, fun hlt => absurd hlt hi⟩, fun hlist => hlist.1⟩

open Classical in
/-- A check list of an active stream uses the credentials of its m-line exactly when they reach
it. -/
theorem reach_iff {i : Nat} (hi : i < md.nbStreams) (hlist : (session.own i).isSome)
    (hactive : (md.stream i).active = true) :
    ((finalCredentials md session i).bind fun own =>
        own.or (if LateRestart md session then none else some md.iceCredentials)) =
      some (md.credentialsFor i) ↔ CredentialsReach md session i := by
  obtain ⟨own, hown⟩ := Option.isSome_iff_exists.mp hlist
  unfold finalCredentials CredentialsReach SalMediaDescription.credentialsFor
  rw [if_pos hi, if_pos hactive]
  by_cases hset : ((md.stream i).iceCredentials).isSome ∧ (md.stream i).iceMismatch = false
  · -- the third loop sets them
    obtain ⟨⟨given, hgiven⟩, hmatch⟩ := And.imp_left Option.isSome_iff_exists.mp hset
    have hsecond : (secondCredentials md session i).isSome := by rw [second_isSome]; exact hlist
    obtain ⟨second, hsecond⟩ := Option.isSome_iff_exists.mp hsecond
    simp [hgiven, hmatch, hsecond]
  · -- they stay as the second loop leaves them
    have hkept : ∀ second : Option IceCredentials, (if (md.stream i).iceMismatch then second
        else ((md.stream i).iceCredentials).or second) = second := by
      intro second
      cases hgiven : (md.stream i).iceCredentials with
      | none => simp
      | some given =>
          have hmismatch : (md.stream i).iceMismatch = true := by
            by_contra hmatch
            exact hset ⟨by simp [hgiven], by simpa using hmatch⟩
          simp [hmismatch]
    simp only [hkept, hset, false_or, Option.map_id']
    unfold secondCredentials
    by_cases hfirst : FirstChanged md session i
    · obtain ⟨given, hgiven⟩ := Option.isSome_iff_exists.mp (credentialsChanged_given hfirst.2.1)
      simp [hfirst, hown, hgiven]
    · by_cases hlate : LateRestart md session
      · simp [hfirst, hlate, hown]
      · have hknown : (knownCredentials md session i).isSome := by
          unfold knownCredentials
          split
          · simp [hown]
          · exact hlist
        obtain ⟨known, hknown⟩ := Option.isSome_iff_exists.mp hknown
        simp only [hfirst, hlate, hknown, if_false, false_or, not_false_eq_true, true_and,
          Option.bind_some, Option.join_some]
        cases known with
        | none => simp
        | some known => simp

variable (lib) in
/-- What a description comes to when the credentials are found. -/
theorem updateIce_found (hfound : CredentialsFound md session) :
    ∃ u : IceUpdate,
      (updateIceFromRemoteMediaDescription lib md session =
        (if u.session.nbCheckLists = 0 then none else some u.session, u.restarts)) ∧
      u.Holds (EarlyRestart md session ∨ LateRestart md session)
        (open Classical in if LateRestart md session then none else some md.iceCredentials)
        (finalCredentials md session) := by
  have hsecond := updateFirstChanged_holds lib (updateSessionCredentials_holds lib md session)
  refine ⟨removeInactive md (updateCheckLists md (updateFirstChanged lib md
    (updateSessionCredentials lib md (restartForNullAddress lib md { session := session })))),
    ?_, hsecond.flag, hsecond.count, hsecond.remote, finalCredentials_holds hsecond.own⟩
  unfold updateIceFromRemoteMediaDescription
  rw [if_pos ((iceParamsFound_iff md session).mpr hfound)]
  split_ifs with hnone
  · exact if_pos hnone
  · exact if_neg hnone

theorem updateIce_notFound (hfound : ¬ CredentialsFound md session) :
    updateIceFromRemoteMediaDescription lib md session = (none, 0) := by
  unfold updateIceFromRemoteMediaDescription
  rw [if_neg (fun hparams => hfound ((iceParamsFound_iff md session).mp hparams))]

theorem nbCheckLists_iff {u : IceUpdate} (hown : u.session.own = finalCredentials md session) :
    u.session.nbCheckLists ≠ 0 ↔
      ∃ i, (session.own i).isSome ∧ (i < md.nbStreams → (md.stream i).active = true) := by
  rw [ne_eq, IceSession.nbCheckLists_eq_zero, not_forall]
  refine exists_congr fun i => ?_
  rw [← final_isSome md session, ← hown, IceSession.own_isSome,
    Option.isSome_iff_ne_none]

theorem early_due (hearly : EarlyRestart md session) : RestartDue md session := by
  rcases hearly with haddr | ⟨i, hi, hlist, hnull⟩ | hchanged
  · exact Or.inl (Or.inl haddr)
  · exact Or.inl (Or.inr ⟨i, hi, hlist, Or.inl hnull⟩)
  · exact Or.inr (Or.inl hchanged)

theorem late_due (hlate : LateRestart md session) : RestartDue md session := by
  obtain ⟨hearly, i, own, hfirst, hown⟩ := hlate
  have hchanged : credentialsChanged (knownCredentials md session i)
      (md.stream i).iceCredentials = true := hfirst.2.1
  rw [knownCredentials_of_not_early hearly, hown] at hchanged
  obtain ⟨given, hgiven⟩ := Option.isSome_iff_exists.mp (credentialsChanged_given hchanged)
  refine Or.inr (Or.inr ⟨i, hfirst.1, own, hown, ?_, Or.inl (by simp [hgiven])⟩)
  simpa [credentialsChanged, SalMediaDescription.credentialsFor, hgiven] using hchanged

theorem CredentialsFound.gives (hfound : CredentialsFound md session) :
    GivesCredentials md session := by
  intro i hi hlist _
  rcases hfound with hcommon | ⟨_, hall⟩
  · exact Or.inl hcommon
  · exact Or.inr (hall i hi hlist)

/-- The session after a description that is found. -/
theorem updated_of_found {u : IceUpdate}
    (hholds : u.Holds (EarlyRestart md session ∨ LateRestart md session)
      (open Classical in if LateRestart md session then none else some md.iceCredentials)
      (finalCredentials md session)) (hfound : CredentialsFound md session) :
    IceUpdated md session (if u.session.nbCheckLists = 0 then none else some u.session) u.restarts ↔
      ReadyForUpdate md session := by
  have hgives := hfound.gives
  have hremains := nbCheckLists_iff hholds.own
  have hremote : ∀ i, u.session.remoteOf i = (finalCredentials md session i).bind fun own =>
      own.or (open Classical in if LateRestart md session then none
        else some md.iceCredentials) := by
    intro i
    unfold IceSession.remoteOf
    rw [hholds.own, hholds.remote]
  have hcount : u.restarts = 1 ↔ EarlyRestart md session ∨ LateRestart md session := by
    rw [hholds.count, ← hholds.flag]
    cases u.iceRestarted <;> simp
  constructor
  · intro hupdated
    have hkept := hupdated.kept.mpr hgives
    have hsome : u.session.nbCheckLists ≠ 0 := by
      intro hnone
      simp [hnone] at hkept
    have hlists := hupdated.lists u.session (by rw [if_neg hsome])
    have hlisted : ∀ i, (session.own i).isSome → i < md.nbStreams := by
      intro i hlist
      by_contra hi
      have hfinal : (u.session.own i).isSome := by
        rw [hholds.own, final_isSome]
        exact ⟨hlist, fun hlt => absurd hlt hi⟩
      exact hi (hlists i hfinal).1
    refine ⟨hfound, hlisted, ?_, ?_, fun hdue => hcount.mp ((hupdated.restarted hkept).mpr hdue)⟩
    · obtain ⟨i, hlist, hactive⟩ := hremains.mp hsome
      exact ⟨i, hlisted i hlist, hlist, hactive (hlisted i hlist)⟩
    · intro i hi hlist hactive
      have hfinal : (u.session.own i).isSome := by
        rw [hholds.own, final_isSome]
        exact ⟨hlist, fun _ => hactive⟩
      rw [← reach_iff hi hlist hactive, ← hremote]
      exact (hlists i hfinal).2.2
  · intro hready
    obtain ⟨i, _, hlist, hactive⟩ := hready.remains
    have hsome := hremains.mpr ⟨i, hlist, fun _ => hactive⟩
    rw [if_neg hsome]
    refine ⟨⟨fun _ => hgives, fun _ => rfl⟩, ?_, ?_, ?_⟩
    · intro after hafter j hfinal
      obtain rfl : u.session = after := Option.some.inj hafter
      rw [hholds.own, final_isSome] at hfinal
      have hj := hready.listed j hfinal.1
      refine ⟨hj, hfinal.2 hj, ?_⟩
      rw [hremote]
      exact (reach_iff hj hfinal.1 (hfinal.2 hj)).mpr (hready.reach j hj hfinal.1 (hfinal.2 hj))
    · rw [hholds.count]
      split <;> simp
    · intro _
      rw [hcount]
      refine ⟨?_, hready.restarted⟩
      rintro (hearly | hlate)
      · exact early_due hearly
      · exact late_due hlate

/-- **A session is updated as it should be exactly when the description is updatable**: where
credentials are given for every check list that is not refused, they are found, every check list
has an m-line and one of them is active, the credentials reach the check lists, and a restart that
is due is made. -/
theorem updated_iff (lib : IceLibrary) (md : SalMediaDescription) (session : IceSession) :
    IceUpdated md session (updateIceFromRemoteMediaDescription lib md session).1
        (updateIceFromRemoteMediaDescription lib md session).2 ↔ IceUpdatable md session := by
  unfold IceUpdatable
  by_cases hfound : CredentialsFound md session
  · obtain ⟨u, hresult, hholds⟩ := updateIce_found lib hfound
    rw [hresult, updated_of_found hholds hfound]
    exact ⟨fun hready _ => hready, fun hready => hready hfound.gives⟩
  · rw [updateIce_notFound hfound]
    constructor
    · intro hupdated hgives
      exact absurd (hupdated.kept.mpr hgives) (by simp)
    · intro hready
      have hgives : ¬ GivesCredentials md session := fun hgives => hfound (hready hgives).found
      exact ⟨by simp [hgives], by simp, by simp, by simp⟩

end

/-! ## Sequences of descriptions -/

/-- The updates of a call: each description with the session it finds. There are no more after one
that deletes the session. -/
def iceUpdates (lib : IceLibrary) :
    Option IceSession → List SalMediaDescription → List (SalMediaDescription × IceSession)
  | none, _ => []
  | some _, [] => []
  | some session, md :: rest =>
      (md, session) :: iceUpdates lib (updateIceFromRemoteMediaDescription lib md session).1 rest

/-- **Every update of a sequence is as it should be exactly when every description is updatable
from the session it finds.** -/
theorem ice_updates_iff (lib : IceLibrary) (session : IceSession)
    (descriptions : List SalMediaDescription) :
    (∀ update ∈ iceUpdates lib (some session) descriptions,
      IceUpdated update.1 update.2
        (updateIceFromRemoteMediaDescription lib update.1 update.2).1
        (updateIceFromRemoteMediaDescription lib update.1 update.2).2) ↔
      ∀ update ∈ iceUpdates lib (some session) descriptions, IceUpdatable update.1 update.2 :=
  forall₂_congr fun update _ => updated_iff lib update.1 update.2

/-- A restart that touches nothing but the remote credentials. -/
def forgetRemote : IceLibrary where
  restart session :=
    { session with
      remoteCredentials := none
      checkLists := session.checkLists.map
        (Option.map fun cl => { cl with remoteCredentials := none }) }
  restart_remoteCredentials _ := rfl
  restart_own session i := by
    unfold IceSession.own IceSession.checkList
    rw [List.getElem?_map]
    cases session.checkLists[i]? with
    | none => rfl
    | some slot => cases slot <;> rfl

/-- A session for audio and video. -/
def audioVideoSession : IceSession where
  localCredentials := { ufrag := "a", pwd := "b" }
  checkLists := [some { localCredentials := { ufrag := "a", pwd := "b" } },
    some { localCredentials := { ufrag := "a", pwd := "b" } }]

/-- An answer with credentials for the audio stream, which refuses the video stream. -/
def videoRefused : SalMediaDescription :=
  (({ nbStreams := 2, addr := "192.0.2.1" } : SalMediaDescription).setStream 0
    { rtpPort := 7078, iceUfrag := "x", icePwd := "y" }).setStream 1 { rtpPort := 0 }

/-- The session is deleted for a refused video stream that has no credentials. -/
theorem refused_video_deletes :
    ¬ ∀ update ∈ iceUpdates forgetRemote (some audioVideoSession) [videoRefused],
      IceUpdated update.1 update.2
        (updateIceFromRemoteMediaDescription forgetRemote update.1 update.2).1
        (updateIceFromRemoteMediaDescription forgetRemote update.1 update.2).2 := by
  intro hall
  have hupdated := hall (videoRefused, audioVideoSession) (List.mem_cons_self ..)
  have hgives : GivesCredentials videoRefused audioVideoSession := by
    intro i hi _ hactive
    match i, hi with
    | 0, _ => exact Or.inr (by decide)
    | 1, _ => exact absurd hactive (by decide)
  exact absurd (hupdated.kept.mpr hgives) (by decide)

end Linphone
