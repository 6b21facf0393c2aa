import Mathlib.Data.List.TakeWhile
import Linphone.Lib.Conformance

/-!
# The tunnel manager

`TunnelManager` keeps a client of the tunnel, tells the core and the SAL of it, and in automatic
mode starts it when all tests of the UDP mirrors have failed. What the client and the mirrors report
is queued and processed by `onIterate`.

An element of the list of mirrors has a number of its own, which the iterator keeps; an iterator
without its element in the list designates nothing. A mirror is testing from `start` until it calls
back, and a callback of a mirror that is not in the list is a result of an earlier test. The
application does nothing when it is notified.

`tunnel_sound_iff`: in which runs client, factories, SAL and iterator stay in step with the state.
-/

namespace Linphone

open Conformance (Conforms Allowed)

/-! ## State -/

inductive LinphoneTunnelMode
  | disable | enable | auto
deriving DecidableEq

inductive TunnelState
  | disabled | connecting | ready | autodetecting
deriving DecidableEq

structure ServerAddr where
  addr : String
  port : Int
deriving DecidableEq

structure UdpMirrorClient where
  node : Nat
  server : ServerAddr
  delay : Nat
  testing : Bool := false
deriving DecidableEq

/-- `TunnelManager::Event` -/
inductive TunnelManagerEvent
  | tunnelEvent (connected : Bool)
  | udpMirrorClientEvent (haveUdp : Bool)
deriving DecidableEq

/-- What is done to the registration and the transports of the core. -/
inductive SipAction
  | unregistration | applyTransports | registration
deriving DecidableEq

/-- The members of the manager; what it has set in the core and the SAL; and the number of elements
the list of mirrors has had. -/
structure TunnelManager where
  mode : LinphoneTunnelMode := .disable
  state : TunnelState := .disabled
  tunnelizeSipPackets : Bool := true
  /-- the servers of `mTunnelClient`, when it is not `NULL` -/
  tunnelClient : Option (List ServerAddr) := none
  serverAddrs : List ServerAddr := []
  udpMirrorClients : List UdpMirrorClient := []
  currentUdpMirrorClient : Option Nat := none
  evq : List TunnelManagerEvent := []
  transportFactories : Bool := false
  salTunnel : Bool := false
  sipActions : List SipAction := []
  nodes : Nat := 0

namespace TunnelManager

variable (m : TunnelManager)

/-! ## Servers and the client -/

def addServer (ip : Option String) (port : Int) : TunnelManager :=
  let addr : ServerAddr := ⟨ip.getD "", port⟩
  { m with
    serverAddrs := m.serverAddrs ++ [addr]
    tunnelClient := m.tunnelClient.map (· ++ [addr]) }

def addServerWithMirror (ip : Option String) (port : Int) (udpMirrorPort delay : Nat) :
    TunnelManager :=
  let m := m.addServer ip port
  { m with
    udpMirrorClients := m.udpMirrorClients ++ [⟨m.nodes, ⟨ip.getD "", udpMirrorPort⟩, delay, false⟩]
    nodes := m.nodes + 1 }

/-- `cleanServers`, which stops and destroys the mirrors. -/
def cleanServers : TunnelManager :=
  { m with
    serverAddrs := []
    udpMirrorClients := []
    tunnelClient := m.tunnelClient.map fun _ => [] }

def startClient : TunnelManager :=
  { m with tunnelClient := some m.serverAddrs, salTunnel := true }

/-- `createRtpTransport`, which calls the client for its socket. -/
def createRtpTransport : Option TunnelManager := m.tunnelClient.map fun _ => m

/-- What is done when SIP packets pass through the tunnel. -/
def sip (actions : List SipAction) : TunnelManager :=
  { m with
    sipActions := if m.tunnelizeSipPackets then m.sipActions ++ actions else m.sipActions }

/-! ## Detection -/

/-- The iterator is set to a mirror, and its test is started. -/
def startMirror (node : Nat) : TunnelManager :=
  { m with
    currentUdpMirrorClient := some node
    udpMirrorClients := m.udpMirrorClients.map fun c =>
      if c.node = node then { c with testing := true } else c }

def startAutoDetection : Bool × TunnelManager :=
  match m.udpMirrorClients with
  | [] => (false, m)
  | first :: _ => (true, m.startMirror first.node)

/-- `networkReachableCb` -/
def networkReachable (reachable : Bool) : TunnelManager :=
  if reachable ∧ m.mode = .auto ∧ m.state ≠ .connecting ∧ m.state ≠ .autodetecting then
    { m.startAutoDetection.2 with state := .autodetecting }
  else m

/-! ## Modes -/

def setMode (mode : LinphoneTunnelMode) : TunnelManager :=
  if m.mode = mode then m
  else if mode = .disable ∧ m.state = .disabled ∨ mode = .enable ∧ m.state = .ready then m
  else
    match mode with
    | .enable =>
      if m.state = .disabled then { m.startClient with state := .connecting, mode := .enable }
      else m
    | .disable =>
      if m.state = .ready then
        let m := { m with transportFactories := false, state := .disabled, mode := .disable }
        { m.sip [.unregistration, .applyTransports] with salTunnel := false, tunnelClient := none }
      else m
    | .auto =>
      if m.state = .disabled ∨ m.state = .ready then
        if m.startAutoDetection.1 then
          { m.startAutoDetection.2 with state := .autodetecting, mode := .auto }
        else m
      else m

/-! ## Events -/

def postEvent (ev : TunnelManagerEvent) : TunnelManager := { m with evq := m.evq ++ [ev] }

/-- `sUdpMirrorClientCallback`, by the mirror of a number. -/
def udpMirrorClientCallback (node : Nat) (haveUdp : Bool) : TunnelManager :=
  { m.postEvent (.udpMirrorClientEvent haveUdp) with
    udpMirrorClients := m.udpMirrorClients.map fun c =>
      if c.node = node then { c with testing := false } else c }

def processTunnelEvent (connected : Bool) : TunnelManager :=
  if connected ∧ m.state = .connecting then
    { m with transportFactories := true, state := .ready }.sip
      [.unregistration, .applyTransports, .registration]
  else m

/-- The iterator and what follows it in the list. -/
def fromCurrent : List UdpMirrorClient :=
  m.udpMirrorClients.dropWhile fun c => m.currentUdpMirrorClient ≠ some c.node

def processUdpMirrorEvent (haveUdp : Bool) : Option TunnelManager :=
  if m.state ≠ .autodetecting then some m
  else if haveUdp then
    match m.tunnelClient with
    | some _ =>
      some { { m with tunnelClient := none }.sip [.unregistration, .registration] with
        state := .disabled }
    | none => some { m with state := .disabled }
  else
    match m.fromCurrent with
    | [] => none
    | _ :: next :: _ => some (m.startMirror next.node)
    | [_] =>
      let m := { m with currentUdpMirrorClient := none }
      match m.tunnelClient with
      | none => some { m.startClient with state := .connecting }
      | some _ => some { m with state := .ready }

/-- One round of the loop of `onIterate`, between which others get the mutex. -/
def iterate : Option TunnelManager :=
  match m.evq with
  | [] => some m
  | ev :: rest =>
    let m := { m with evq := rest }
    match ev with
    | .tunnelEvent connected => some (m.processTunnelEvent connected)
    | .udpMirrorClientEvent haveUdp => m.processUdpMirrorEvent haveUdp

end TunnelManager

/-- What can happen to a manager. -/
inductive TunnelInput
  | setMode (mode : LinphoneTunnelMode)
  | tunnelCallback (connected : Bool)
  | udpMirrorClientCallback (node : Nat) (haveUdp : Bool)
  | iterate
  | networkReachable (reachable : Bool)
  | addServer (ip : Option String) (port : Int)
  | addServerWithMirror (ip : Option String) (port : Int) (udpMirrorPort delay : Nat)
  | cleanServers
  /-- A stream of the core asks for a transport, of the factories when they are set. -/
  | rtpTransport

namespace TunnelManager

variable (m : TunnelManager)

def step : TunnelInput → Option TunnelManager
  | .setMode mode => some (m.setMode mode)
  | .tunnelCallback connected => some (m.postEvent (.tunnelEvent connected))
  | .udpMirrorClientCallback node haveUdp => some (m.udpMirrorClientCallback node haveUdp)
  | .iterate => m.iterate
  | .networkReachable reachable => some (m.networkReachable reachable)
  | .addServer ip port => some (m.addServer ip port)
  | .addServerWithMirror ip port udpMirrorPort delay =>
    some (m.addServerWithMirror ip port udpMirrorPort delay)
  | .cleanServers => some m.cleanServers
  | .rtpTransport => if m.transportFactories then m.createRtpTransport else some m

/-! ## What is to hold -/

/-- A mirror test is in progress. -/
def Testing : Prop := ∃ c ∈ m.udpMirrorClients, c.testing = true

/-- The result of a mirror test is queued. -/
def ResultQueued : Prop := ∃ haveUdp, .udpMirrorClientEvent haveUdp ∈ m.evq

/-- The iterator designates an element of the list. -/
def Designates : Prop := ∃ c ∈ m.udpMirrorClients, m.currentUdpMirrorClient = some c.node

/-- The members are in step with the state. That nothing is dereferenced that is not there is that
steps are defined. -/
structure Sound : Prop where
  client : m.state = .connecting ∨ m.state = .ready → m.tunnelClient.isSome
  noClient : m.state = .disabled → m.tunnelClient = none
  factories : m.transportFactories = true → m.tunnelClient.isSome
  salTunnel : m.salTunnel = true → m.tunnelClient.isSome
  detecting : m.state = .autodetecting → m.Testing ∨ m.ResultQueued
  refused : ∀ mode, (m.setMode mode).mode ≠ mode →
    (m.setMode mode).mode = m.mode ∧ (m.setMode mode).state = m.state

end TunnelManager

/-- A manager, and whether its last detection began at a mirror and `cleanServers` was not called
since. -/
structure WatchedTunnel where
  tunnel : TunnelManager := {}
  listed : Bool := false

namespace WatchedTunnel

variable (w : WatchedTunnel)

/-- `listed`, after a step to `t`. -/
def stillListed (t : TunnelManager) : TunnelInput → Bool
  | .cleanServers => false
  | _ =>
    if w.tunnel.state ≠ .autodetecting ∧ t.state = .autodetecting then
      !w.tunnel.udpMirrorClients.isEmpty
    else w.listed

def step (e : TunnelInput) : Option WatchedTunnel :=
  (w.tunnel.step e).map fun t => ⟨t, w.stillListed t e⟩

/-- During a detection, a success is processed only without a client, and a failure only with the
servers it began with; the servers are cleaned only when a result is queued; and a network that
comes back finds a mirror to begin with, or a result in the queue. -/
def Bearable : TunnelInput → Prop
  | .iterate => w.tunnel.state = .autodetecting →
    ∀ haveUdp, w.tunnel.evq.head? = some (.udpMirrorClientEvent haveUdp) →
      if haveUdp then w.tunnel.tunnelClient = none else w.listed = true
  | .cleanServers => w.tunnel.state = .autodetecting → w.tunnel.ResultQueued
  | .networkReachable reachable => reachable = true → w.tunnel.mode = .auto →
    w.tunnel.state = .disabled ∨ w.tunnel.state = .ready →
      w.tunnel.udpMirrorClients ≠ [] ∨ w.tunnel.ResultQueued
  | _ => True

end WatchedTunnel

/-! ## What a step keeps -/

namespace TunnelManager

variable {m m' : TunnelManager}

theorem startAutoDetection_of_nil (h : m.udpMirrorClients = []) :
    m.startAutoDetection = (false, m) := by
  rw [startAutoDetection, h]

theorem startAutoDetection_of_cons {c : UdpMirrorClient} {rest : List UdpMirrorClient}
    (h : m.udpMirrorClients = c :: rest) :
    m.startAutoDetection = (true, m.startMirror c.node) := by
  rw [startAutoDetection, h]

/-- A mode is not set, or set with the state it leads to. -/
theorem setMode_cases (m : TunnelManager) (mode : LinphoneTunnelMode) :
    m.setMode mode = m ∨
    mode = .enable ∧ m.state = .disabled ∧
      m.setMode mode = { m.startClient with state := .connecting, mode := .enable } ∨
    mode = .disable ∧
      m.setMode mode =
        { { m with transportFactories := false, state := .disabled, mode := .disable }.sip
            [.unregistration, .applyTransports] with salTunnel := false, tunnelClient := none } ∨
    mode = .auto ∧ m.state ≠ .autodetecting ∧ ∃ c rest, m.udpMirrorClients = c :: rest ∧
      m.setMode mode = { m.startMirror c.node with state := .autodetecting, mode := .auto } := by
  unfold setMode
  by_cases hsame : m.mode = mode
  · exact .inl (if_pos hsame)
  rw [if_neg hsame]
  by_cases hidle : mode = .disable ∧ m.state = .disabled ∨ mode = .enable ∧ m.state = .ready
  · exact .inl (if_pos hidle)
  rw [if_neg hidle]
  cases mode with
  | enable =>
    by_cases hst : m.state = .disabled
    · exact .inr (.inl ⟨rfl, hst, if_pos hst⟩)
    · exact .inl (if_neg hst)
  | disable =>
    by_cases hst : m.state = .ready
    · exact .inr (.inr (.inl ⟨rfl, if_pos hst⟩))
    · exact .inl (if_neg hst)
  | auto =>
    by_cases hst : m.state = .disabled ∨ m.state = .ready
    · simp only [if_pos hst]
      cases hmirrors : m.udpMirrorClients with
      | nil =>
        rw [startAutoDetection_of_nil hmirrors]
        exact .inl rfl
      | cons c rest =>
        rw [startAutoDetection_of_cons hmirrors]
        refine .inr (.inr (.inr ⟨trivial, ?_, c, rest, rfl, rfl⟩))
        intro hauto
        simp [hauto] at hst
    · exact .inl (if_neg hst)

theorem setMode_refused (m : TunnelManager) (mode : LinphoneTunnelMode)
    (h : (m.setMode mode).mode ≠ mode) :
    (m.setMode mode).mode = m.mode ∧ (m.setMode mode).state = m.state := by
  rcases setMode_cases m mode with heq | ⟨rfl, -, heq⟩ | ⟨rfl, heq⟩ | ⟨rfl, -, c, rest, -, heq⟩
  · rw [heq]
    exact ⟨rfl, rfl⟩
  all_goals
    rw [heq] at h
    exact absurd rfl h

/-- The parts of a manager that events and servers leave. -/
structure SameState (m m' : TunnelManager) : Prop where
  state : m'.state = m.state
  client : m'.tunnelClient.isSome = m.tunnelClient.isSome
  factories : m'.transportFactories = m.transportFactories
  salTunnel : m'.salTunnel = m.salTunnel

theorem Sound.of_same (h : m.Sound) (hsame : SameState m m')
    (hdetecting : m.state = .autodetecting → m'.Testing ∨ m'.ResultQueued) : m'.Sound where
  client hst := by
    rw [hsame.client]
    exact h.client (hsame.state ▸ hst)
  noClient hst := by
    have hnone := h.noClient (hsame.state ▸ hst)
    rw [← Option.not_isSome_iff_eq_none, hsame.client, hnone]
    decide
  factories hf := by
    rw [hsame.client]
    exact h.factories (hsame.factories ▸ hf)
  salTunnel ht := by
    rw [hsame.client]
    exact h.salTunnel (hsame.salTunnel ▸ ht)
  detecting hst := hdetecting (hsame.state ▸ hst)
  refused := setMode_refused m'

/-- With a client, and a state that has one. -/
theorem Sound.of_client (hc : m.tunnelClient.isSome)
    (hst : m.state = .connecting ∨ m.state = .ready) : m.Sound where
  client _ := hc
  noClient hoff := by
    rw [hoff] at hst
    simp at hst
  factories _ := hc
  salTunnel _ := hc
  detecting hauto := by
    rw [hauto] at hst
    simp at hst
  refused := setMode_refused m

theorem Sound.of_disabled (hst : m.state = .disabled) (hc : m.tunnelClient = none)
    (hf : m.transportFactories = false) (ht : m.salTunnel = false) : m.Sound where
  client h := by simp [hst] at h
  noClient _ := hc
  factories h := by simp [hf] at h
  salTunnel h := by simp [ht] at h
  detecting h := by simp [hst] at h
  refused := setMode_refused m

theorem Sound.of_detecting (hst : m.state = .autodetecting)
    (hf : m.transportFactories = true → m.tunnelClient.isSome)
    (ht : m.salTunnel = true → m.tunnelClient.isSome) (hdetecting : m.Testing ∨ m.ResultQueued) :
    m.Sound where
  client hactive := by simp [hst] at hactive
  noClient hoff := by simp [hst] at hoff
  factories := hf
  salTunnel := ht
  detecting _ := hdetecting
  refused := setMode_refused m

theorem startMirror_testing {c : UdpMirrorClient} (h : c ∈ m.udpMirrorClients) :
    (m.startMirror c.node).Testing :=
  ⟨{ c with testing := true }, List.mem_map.mpr ⟨c, h, if_pos rfl⟩, rfl⟩

theorem sound_setMode (h : m.Sound) (mode : LinphoneTunnelMode) : (m.setMode mode).Sound := by
  rcases setMode_cases m mode with heq | ⟨-, -, heq⟩ | ⟨-, heq⟩ | ⟨-, -, c, rest, hmirrors, heq⟩
  · rw [heq]
    exact h
  · rw [heq]
    exact Sound.of_client rfl (.inl rfl)
  · rw [heq]
    exact Sound.of_disabled rfl rfl rfl rfl
  · rw [heq]
    have hc : c ∈ m.udpMirrorClients := hmirrors ▸ List.mem_cons_self
    exact Sound.of_detecting rfl h.factories h.salTunnel (.inl (startMirror_testing hc))

/-- A network that comes back begins a detection, if it can. -/
theorem networkReachable_iff (h : m.Sound) (reachable : Bool) :
    (m.networkReachable reachable).Sound ↔
      (reachable = true → m.mode = .auto → m.state = .disabled ∨ m.state = .ready →
        m.udpMirrorClients ≠ [] ∨ m.ResultQueued) := by
  unfold networkReachable
  by_cases hbegins : reachable ∧ m.mode = .auto ∧ m.state ≠ .connecting ∧ m.state ≠ .autodetecting
  · rw [if_pos hbegins]
    obtain ⟨hreach, hauto, hcon, hdet⟩ := hbegins
    have hidle : m.state = .disabled ∨ m.state = .ready := by
      cases hst : m.state with
      | disabled => exact .inl rfl
      | ready => exact .inr rfl
      | connecting => exact absurd hst hcon
      | autodetecting => exact absurd hst hdet
    simp only [hreach, hauto, hidle, forall_const]
    cases hmirrors : m.udpMirrorClients with
    | nil =>
      rw [startAutoDetection_of_nil hmirrors]
      constructor
      · intro h'
        rcases h'.detecting rfl with ⟨c, hc, -⟩ | hqueued
        · rw [hmirrors] at hc
          cases hc
        · exact .inr hqueued
      · rintro (hne | hqueued)
        · exact absurd rfl hne
        · exact Sound.of_detecting rfl h.factories h.salTunnel (.inr hqueued)
    | cons c rest =>
      rw [startAutoDetection_of_cons hmirrors]
      have hc : c ∈ m.udpMirrorClients := hmirrors ▸ List.mem_cons_self
      refine iff_of_true ?_ (.inl (List.cons_ne_nil c rest))
      exact Sound.of_detecting rfl h.factories h.salTunnel (.inl (startMirror_testing hc))
  · rw [if_neg hbegins]
    refine iff_of_true h fun hreach hauto hidle => ?_
    refine absurd ⟨hreach, hauto, ?_, ?_⟩ hbegins
    · rintro hst
      simp [hst] at hidle
    · rintro hst
      simp [hst] at hidle

theorem cleanServers_iff (h : m.Sound) :
    m.cleanServers.Sound ↔ (m.state = .autodetecting → m.ResultQueued) := by
  have hsame : SameState m m.cleanServers := ⟨rfl, Option.isSome_map, rfl, rfl⟩
  constructor
  · intro h' hst
    rcases h'.detecting hst with ⟨c, hc, -⟩ | hqueued
    · cases hc
    · exact hqueued
  · exact fun hqueued => h.of_same hsame fun hst => .inr (hqueued hst)

theorem sound_addServer (h : m.Sound) (ip : Option String) (port : Int) :
    (m.addServer ip port).Sound :=
  h.of_same ⟨rfl, Option.isSome_map, rfl, rfl⟩ h.detecting

theorem sound_addServerWithMirror (h : m.Sound) (ip : Option String) (port : Int)
    (udpMirrorPort delay : Nat) : (m.addServerWithMirror ip port udpMirrorPort delay).Sound := by
  refine h.of_same ⟨rfl, Option.isSome_map, rfl, rfl⟩ fun hst => ?_
  rcases h.detecting hst with ⟨c, hc, htesting⟩ | hqueued
  · exact .inl ⟨c, List.mem_append_left _ hc, htesting⟩
  · exact .inr hqueued

theorem sound_postEvent (h : m.Sound) (ev : TunnelManagerEvent) : (m.postEvent ev).Sound := by
  refine h.of_same ⟨rfl, rfl, rfl, rfl⟩ fun hst => ?_
  rcases h.detecting hst with htesting | ⟨haveUdp, hqueued⟩
  · exact .inl htesting
  · exact .inr ⟨haveUdp, List.mem_append_left _ hqueued⟩

theorem sound_udpMirrorClientCallback (h : m.Sound) (node : Nat) (haveUdp : Bool) :
    (m.udpMirrorClientCallback node haveUdp).Sound :=
  h.of_same ⟨rfl, rfl, rfl, rfl⟩ fun _ =>
    .inr ⟨haveUdp, List.mem_append_right _ (List.mem_singleton_self _)⟩

/-! ## A round of the loop -/

theorem fromCurrent_eq_nil : m.fromCurrent = [] ↔ ¬m.Designates := by
  unfold fromCurrent Designates
  rw [List.dropWhile_eq_nil_iff]
  simp only [ne_eq, decide_eq_true_eq, not_exists, not_and]

theorem mem_of_mem_fromCurrent {c : UdpMirrorClient} (h : c ∈ m.fromCurrent) :
    c ∈ m.udpMirrorClients :=
  (List.dropWhile_sublist _).subset h

/-- A tunnel event that was queued. -/
theorem sound_tunnelEvent {connected : Bool} {rest : List TunnelManagerEvent} (h : m.Sound)
    (hevq : m.evq = .tunnelEvent connected :: rest) :
    ({ m with evq := rest }.processTunnelEvent connected).Sound := by
  unfold processTunnelEvent
  by_cases hconnects : connected ∧ m.state = .connecting
  · rw [if_pos hconnects]
    exact Sound.of_client (h.client (.inl hconnects.2)) (.inr rfl)
  · rw [if_neg hconnects]
    refine h.of_same ⟨rfl, rfl, rfl, rfl⟩ fun hst => ?_
    rcases h.detecting hst with htesting | ⟨haveUdp, hqueued⟩
    · exact .inl htesting
    · rw [hevq] at hqueued
      rcases List.mem_cons.mp hqueued with heq | hrest
      · cases heq
      · exact .inr ⟨haveUdp, hrest⟩

/-- A success ends the detection; with a client it leaves the SAL its address. -/
theorem processSuccess_iff (hf : m.transportFactories = true → m.tunnelClient.isSome)
    (ht : m.salTunnel = true ↔ m.tunnelClient.isSome) (hst : m.state = .autodetecting) :
    (∃ m', m.processUdpMirrorEvent true = some m' ∧ m'.Sound) ↔ m.tunnelClient = none := by
  rw [processUdpMirrorEvent, if_neg (not_not.mpr hst), if_pos rfl]
  cases hclient : m.tunnelClient with
  | some servers =>
    refine iff_of_false ?_ (Option.some_ne_none servers)
    rintro ⟨m', hm', h'⟩
    cases hm'
    have hserved : m.salTunnel = true := ht.mpr (by rw [hclient]; rfl)
    exact absurd (h'.salTunnel hserved) Bool.false_ne_true
  | none =>
    rw [hclient] at hf ht
    refine iff_of_true ⟨_, rfl, Sound.of_disabled rfl rfl ?_ ?_⟩ rfl
    · exact Bool.eq_false_iff.mpr fun hon => absurd (hf hon) Bool.false_ne_true
    · exact Bool.eq_false_iff.mpr fun hon => absurd (ht.mp hon) Bool.false_ne_true

/-- A failure goes on to the mirror behind the iterator. -/
theorem processFailure_iff (hf : m.transportFactories = true → m.tunnelClient.isSome)
    (ht : m.salTunnel = true → m.tunnelClient.isSome) (hst : m.state = .autodetecting) :
    (∃ m', m.processUdpMirrorEvent false = some m' ∧ m'.Sound) ↔ m.Designates := by
  rw [processUdpMirrorEvent, if_neg (not_not.mpr hst), if_neg (by decide)]
  cases hfrom : m.fromCurrent with
  | nil =>
    refine iff_of_false ?_ (fromCurrent_eq_nil.mp hfrom)
    rintro ⟨m', hm', -⟩
    cases hm'
  | cons c behind =>
    have hdesignates : m.Designates := by
      by_contra hno
      rw [fromCurrent_eq_nil.mpr hno] at hfrom
      cases hfrom
    refine iff_of_true ?_ hdesignates
    cases behind with
    | nil =>
      cases m.tunnelClient with
      | none => exact ⟨_, rfl, Sound.of_client rfl (.inl rfl)⟩
      | some servers => exact ⟨_, rfl, Sound.of_client rfl (.inr rfl)⟩
    | cons next behind =>
      have hnext : next ∈ m.udpMirrorClients := mem_of_mem_fromCurrent (by simp [hfrom])
      exact ⟨_, rfl, Sound.of_detecting hst hf ht (.inl (startMirror_testing hnext))⟩

theorem processUdpMirrorEvent_idle {haveUdp : Bool} (hst : m.state ≠ .autodetecting) :
    m.processUdpMirrorEvent haveUdp = some m :=
  if_pos hst

/-- **A round keeps everything in step** unless the detection has lost its mirror, or succeeds with
a client. -/
theorem iterate_iff (h : m.Sound) (hserved : m.tunnelClient.isSome → m.salTunnel = true)
    {listed : Bool} (hlisted : m.state = .autodetecting → (listed = true ↔ m.Designates)) :
    (∃ m', m.iterate = some m' ∧ m'.Sound) ↔
      (m.state = .autodetecting →
        ∀ haveUdp, m.evq.head? = some (.udpMirrorClientEvent haveUdp) →
          if haveUdp then m.tunnelClient = none else listed = true) := by
  unfold iterate
  cases hevq : m.evq with
  | nil => exact iff_of_true ⟨m, rfl, h⟩ fun _ _ hhead => nomatch hhead
  | cons ev rest =>
    cases ev with
    | tunnelEvent connected =>
      exact iff_of_true ⟨_, rfl, sound_tunnelEvent h hevq⟩ fun _ _ hhead => nomatch hhead
    | udpMirrorClientEvent haveUdp =>
      simp only [List.head?_cons, Option.some.injEq, TunnelManagerEvent.udpMirrorClientEvent.injEq,
        forall_eq']
      by_cases hst : m.state = .autodetecting
      · rw [forall_prop_of_true hst]
        cases haveUdp with
        | true =>
          simp only [if_true]
          exact processSuccess_iff (m := { m with evq := rest }) h.factories
            ⟨h.salTunnel, hserved⟩ hst
        | false =>
          rw [if_neg Bool.false_ne_true, hlisted hst]
          exact processFailure_iff (m := { m with evq := rest }) h.factories h.salTunnel hst
      · refine iff_of_true ?_ fun hauto => absurd hauto hst
        refine ⟨_, processUdpMirrorEvent_idle (m := { m with evq := rest }) hst, ?_⟩
        exact h.of_same ⟨rfl, rfl, rfl, rfl⟩ fun hauto => absurd hauto hst

/-! ## Where the iterator is -/

/-- The iterator and the places in the list are the same. -/
structure SamePlaces (m m' : TunnelManager) : Prop where
  places : m'.udpMirrorClients.map (·.node) = m.udpMirrorClients.map (·.node)
  current : m'.currentUdpMirrorClient = m.currentUdpMirrorClient
  nodes : m'.nodes = m.nodes

theorem designates_iff :
    m.Designates ↔ ∃ n ∈ m.udpMirrorClients.map (·.node), m.currentUdpMirrorClient = some n := by
  simp only [Designates, List.mem_map, exists_exists_and_eq_and]

theorem map_node_testing (clients : List UdpMirrorClient) (node : Nat) (testing : Bool) :
    (clients.map fun c => if c.node = node then { c with testing := testing } else c).map
      (·.node) = clients.map (·.node) := by
  rw [List.map_map]
  refine List.map_congr_left fun c _ => ?_
  show (if c.node = node then _ else _ : UdpMirrorClient).node = c.node
  split_ifs
  · rfl
  · rfl

theorem startMirror_designates {c : UdpMirrorClient} (h : c ∈ m.udpMirrorClients) :
    (m.startMirror c.node).Designates :=
  ⟨{ c with testing := true }, List.mem_map.mpr ⟨c, h, if_pos rfl⟩, rfl⟩

/-- The end of a detection, of which the iterator may be left behind the list. -/
structure Ends (m m' : TunnelManager) : Prop where
  state : m'.state ≠ .autodetecting
  places : m'.udpMirrorClients = m.udpMirrorClients
  nodes : m'.nodes = m.nodes
  current : ∀ n, m'.currentUdpMirrorClient = some n → m.currentUdpMirrorClient = some n
  served : (m.tunnelClient.isSome → m.salTunnel = true) →
    m'.tunnelClient.isSome → m'.salTunnel = true

/-- A result is passed over, ends the detection or moves it on to another mirror. -/
theorem processUdpMirrorEvent_cases {haveUdp : Bool}
    (h : m.processUdpMirrorEvent haveUdp = some m') :
    m' = m ∨ m.Ends m' ∨
      m.state = .autodetecting ∧ m.Designates ∧
        ∃ c ∈ m.udpMirrorClients, m' = m.startMirror c.node := by
  by_cases hst : m.state = .autodetecting
  · rw [processUdpMirrorEvent, if_neg (not_not.mpr hst)] at h
    cases haveUdp with
    | true =>
      rw [if_pos rfl] at h
      refine .inr (.inl ?_)
      cases hclient : m.tunnelClient with
      | some servers =>
        rw [hclient] at h
        cases h
        exact ⟨(fun h => nomatch h), rfl, rfl, fun _ => id, fun _ hsome => nomatch hsome⟩
      | none =>
        rw [hclient] at h
        cases h
        exact ⟨(fun h => nomatch h), rfl, rfl, fun _ => id, fun _ hsome => nomatch hsome⟩
    | false =>
      rw [if_neg Bool.false_ne_true] at h
      cases hfrom : m.fromCurrent with
      | nil =>
        rw [hfrom] at h
        cases h
      | cons c behind =>
        rw [hfrom] at h
        cases behind with
        | nil =>
          refine .inr (.inl ?_)
          cases hclient : m.tunnelClient with
          | none =>
            simp only [hclient] at h
            cases h
            exact ⟨(fun h => nomatch h), rfl, rfl, (fun _ h => nomatch h), fun _ _ => rfl⟩
          | some servers =>
            simp only [hclient] at h
            cases h
            exact ⟨(fun h => nomatch h), rfl, rfl, (fun _ h => nomatch h),
              fun hs _ => hs (by rw [hclient]; rfl)⟩
        | cons next behind =>
          have hnext : next ∈ m.udpMirrorClients := mem_of_mem_fromCurrent (by simp [hfrom])
          have hdesignates : m.Designates := by
            by_contra hno
            rw [fromCurrent_eq_nil.mpr hno] at hfrom
            cases hfrom
          exact .inr (.inr ⟨hst, hdesignates, next, hnext, (Option.some.inj h).symm⟩)
  · rw [processUdpMirrorEvent_idle hst] at h
    exact .inl (Option.some.inj h).symm

end TunnelManager

namespace WatchedTunnel

variable {w w' : WatchedTunnel} {m' : TunnelManager}

/-- What holds in every run that has come this far. -/
structure Placed (w : WatchedTunnel) : Prop where
  served : w.tunnel.tunnelClient.isSome → w.tunnel.salTunnel = true
  places : ∀ n ∈ w.tunnel.udpMirrorClients.map (·.node), n < w.tunnel.nodes
  current : ∀ n, w.tunnel.currentUdpMirrorClient = some n → n < w.tunnel.nodes
  listed : w.tunnel.state = .autodetecting → (w.listed = true ↔ w.tunnel.Designates)

theorem stillListed_kept {e : TunnelInput} (he : e ≠ .cleanServers)
    (hst : m'.state = .autodetecting → w.tunnel.state = .autodetecting) :
    w.stillListed m' e = w.listed := by
  have hno : ¬(w.tunnel.state ≠ .autodetecting ∧ m'.state = .autodetecting) :=
    fun h => h.1 (hst h.2)
  cases e with
  | cleanServers => exact absurd rfl he
  | _ => exact if_neg hno

theorem stillListed_begun {e : TunnelInput} (he : e ≠ .cleanServers)
    (hidle : w.tunnel.state ≠ .autodetecting) (hst : m'.state = .autodetecting) :
    w.stillListed m' e = !w.tunnel.udpMirrorClients.isEmpty := by
  cases e with
  | cleanServers => exact absurd rfl he
  | _ => exact if_pos ⟨hidle, hst⟩

/-- A step that leaves the iterator where it is, and begins no detection. -/
theorem Placed.of_same (h : w.Placed) {e : TunnelInput} (he : e ≠ .cleanServers)
    (hsame : w.tunnel.SamePlaces m')
    (hserved : m'.tunnelClient.isSome → m'.salTunnel = true)
    (hst : m'.state = .autodetecting → w.tunnel.state = .autodetecting) :
    Placed ⟨m', w.stillListed m' e⟩ where
  served := hserved
  places := by
    rw [hsame.places, hsame.nodes]
    exact h.places
  current := by
    rw [hsame.current, hsame.nodes]
    exact h.current
  listed hauto := by
    rw [stillListed_kept he hst, h.listed (hst hauto), TunnelManager.designates_iff,
      TunnelManager.designates_iff, hsame.places, hsame.current]

/-- A mirror is started, at the beginning of a detection or within one. -/
theorem Placed.of_started (h : w.Placed) {c : UdpMirrorClient} {listed : Bool}
    (hc : c ∈ w.tunnel.udpMirrorClients)
    (hsame : (w.tunnel.startMirror c.node).SamePlaces m')
    (hserved : m'.tunnelClient.isSome → m'.salTunnel = true) (hlisted : listed = true) :
    Placed ⟨m', listed⟩ where
  served := hserved
  places := by
    rw [hsame.places, hsame.nodes, TunnelManager.startMirror, TunnelManager.map_node_testing]
    exact h.places
  current n hn := by
    rw [hsame.current] at hn
    cases hn
    rw [hsame.nodes]
    exact h.places _ (List.mem_map_of_mem hc)
  listed _ := by
    rw [TunnelManager.designates_iff, hsame.places, hsame.current,
      ← TunnelManager.designates_iff]
    exact iff_of_true hlisted (TunnelManager.startMirror_designates hc)

theorem Placed.of_ends (h : w.Placed) {listed : Bool} {rest : List TunnelManagerEvent}
    (hends : TunnelManager.Ends { w.tunnel with evq := rest } m') : Placed ⟨m', listed⟩ where
  served := hends.served h.served
  places := by
    rw [hends.places, hends.nodes]
    exact h.places
  current n hn := by
    rw [hends.nodes]
    exact h.current n (hends.current n hn)
  listed hauto := absurd hauto hends.state

theorem placed_setMode (h : w.Placed) (mode : LinphoneTunnelMode) :
    Placed ⟨w.tunnel.setMode mode, w.stillListed (w.tunnel.setMode mode) (.setMode mode)⟩ := by
  have he : TunnelInput.setMode mode ≠ .cleanServers := fun h => nomatch h
  rcases w.tunnel.setMode_cases mode with heq | ⟨-, -, heq⟩ | ⟨-, heq⟩ |
    ⟨-, hidle, c, rest, hmirrors, heq⟩
  · rw [heq]
    exact h.of_same he ⟨rfl, rfl, rfl⟩ h.served id
  · rw [heq]
    exact h.of_same he ⟨rfl, rfl, rfl⟩ (fun _ => rfl) (fun hauto => nomatch hauto)
  · rw [heq]
    exact h.of_same he ⟨rfl, rfl, rfl⟩ (fun hsome => nomatch hsome) (fun hauto => nomatch hauto)
  · rw [heq, stillListed_begun he hidle rfl, hmirrors]
    have hc : c ∈ w.tunnel.udpMirrorClients := hmirrors ▸ List.mem_cons_self
    exact h.of_started hc ⟨rfl, rfl, rfl⟩ h.served rfl

theorem placed_networkReachable (h : w.Placed) (reachable : Bool) :
    Placed ⟨w.tunnel.networkReachable reachable,
      w.stillListed (w.tunnel.networkReachable reachable) (.networkReachable reachable)⟩ := by
  have he : TunnelInput.networkReachable reachable ≠ .cleanServers := fun h => nomatch h
  unfold TunnelManager.networkReachable
  by_cases hbegins : reachable ∧ w.tunnel.mode = .auto ∧ w.tunnel.state ≠ .connecting ∧
      w.tunnel.state ≠ .autodetecting
  · rw [if_pos hbegins, stillListed_begun he hbegins.2.2.2 rfl]
    cases hmirrors : w.tunnel.udpMirrorClients with
    | nil =>
      rw [TunnelManager.startAutoDetection_of_nil hmirrors]
      refine ⟨h.served, h.places, h.current, fun _ => iff_of_false Bool.false_ne_true ?_⟩
      rintro ⟨c, hc, -⟩
      rw [hmirrors] at hc
      cases hc
    | cons c rest =>
      rw [TunnelManager.startAutoDetection_of_cons hmirrors]
      have hc : c ∈ w.tunnel.udpMirrorClients := hmirrors ▸ List.mem_cons_self
      exact h.of_started hc ⟨rfl, rfl, rfl⟩ h.served rfl
  · rw [if_neg hbegins]
    exact h.of_same he ⟨rfl, rfl, rfl⟩ h.served id

theorem placed_addServer (h : w.Placed) (ip : Option String) (port : Int) :
    Placed ⟨w.tunnel.addServer ip port, w.listed⟩ :=
  ⟨fun hsome => h.served (by rwa [TunnelManager.addServer, Option.isSome_map] at hsome),
    h.places, h.current, h.listed⟩

/-- A new element is not where the iterator is. -/
theorem placed_addServerWithMirror (h : w.Placed) (ip : Option String) (port : Int)
    (udpMirrorPort delay : Nat) :
    Placed ⟨w.tunnel.addServerWithMirror ip port udpMirrorPort delay, w.listed⟩ := by
  have hmap : (w.tunnel.addServerWithMirror ip port udpMirrorPort delay).udpMirrorClients.map
      (·.node) = w.tunnel.udpMirrorClients.map (·.node) ++ [w.tunnel.nodes] :=
    List.map_append
  refine ⟨(placed_addServer h ip port).served, ?_, ?_, fun hauto => ?_⟩
  · rw [hmap]
    intro n hn
    rcases List.mem_append.mp hn with hold | hnew
    · exact (h.places n hold).trans (Nat.lt_succ_self _)
    · rw [List.mem_singleton.mp hnew]
      exact Nat.lt_succ_self _
  · exact fun n hn => (h.current n hn).trans (Nat.lt_succ_self _)
  · rw [h.listed hauto, TunnelManager.designates_iff, TunnelManager.designates_iff, hmap]
    constructor
    · rintro ⟨n, hn, hcurrent⟩
      exact ⟨n, List.mem_append_left _ hn, hcurrent⟩
    · rintro ⟨n, hn, hcurrent⟩
      rcases List.mem_append.mp hn with hold | hnew
      · exact ⟨n, hold, hcurrent⟩
      · rw [List.mem_singleton.mp hnew] at hcurrent
        exact absurd (h.current _ hcurrent) (Nat.lt_irrefl _)

theorem placed_cleanServers (h : w.Placed) : Placed ⟨w.tunnel.cleanServers, false⟩ where
  served hsome := h.served (by rwa [TunnelManager.cleanServers, Option.isSome_map] at hsome)
  places n hn := by cases hn
  current := h.current
  listed _ := iff_of_false Bool.false_ne_true fun ⟨_, hc, _⟩ => by cases hc

theorem placed_iterate (h : w.Placed) (hm' : w.tunnel.iterate = some m') :
    Placed ⟨m', w.stillListed m' .iterate⟩ := by
  have he : TunnelInput.iterate ≠ .cleanServers := fun h => nomatch h
  unfold TunnelManager.iterate at hm'
  cases hevq : w.tunnel.evq with
  | nil =>
    rw [hevq] at hm'
    cases hm'
    exact h.of_same he ⟨rfl, rfl, rfl⟩ h.served id
  | cons ev rest =>
    rw [hevq] at hm'
    cases ev with
    | tunnelEvent connected =>
      cases hm'
      unfold TunnelManager.processTunnelEvent
      split_ifs
      · exact h.of_same he ⟨rfl, rfl, rfl⟩ h.served (fun hauto => nomatch hauto)
      · exact h.of_same he ⟨rfl, rfl, rfl⟩ h.served id
    | udpMirrorClientEvent haveUdp =>
      rcases TunnelManager.processUdpMirrorEvent_cases hm' with rfl | hends |
        ⟨hst, hdesignates, c, hc, rfl⟩
      · exact h.of_same he ⟨rfl, rfl, rfl⟩ h.served id
      · exact h.of_ends hends
      · have hlisted : w.listed = true := (h.listed hst).mpr hdesignates
        rw [stillListed_kept he fun _ => hst]
        exact h.of_started hc ⟨rfl, rfl, rfl⟩ h.served hlisted

/-- What a step leaves is placed. -/
theorem placed_step {e : TunnelInput} (h : w.Placed) (hw' : w.step e = some w') : w'.Placed := by
  obtain ⟨m', hm', rfl⟩ := Option.map_eq_some_iff.mp hw'
  cases e with
  | setMode mode =>
    cases hm'
    exact placed_setMode h mode
  | tunnelCallback connected =>
    cases hm'
    exact h.of_same (fun he => nomatch he) ⟨rfl, rfl, rfl⟩ h.served id
  | udpMirrorClientCallback node haveUdp =>
    cases hm'
    have hplaces := TunnelManager.map_node_testing w.tunnel.udpMirrorClients node false
    exact h.of_same (fun he => nomatch he) ⟨hplaces, rfl, rfl⟩ h.served id
  | iterate => exact placed_iterate h hm'
  | networkReachable reachable =>
    cases hm'
    exact placed_networkReachable h reachable
  | addServer ip port =>
    cases hm'
    have hlisted : w.stillListed (w.tunnel.addServer ip port) (.addServer ip port) = w.listed :=
      stillListed_kept (fun he => nomatch he) id
    rw [hlisted]
    exact placed_addServer h ip port
  | addServerWithMirror ip port udpMirrorPort delay =>
    cases hm'
    have hlisted : w.stillListed (w.tunnel.addServerWithMirror ip port udpMirrorPort delay)
        (.addServerWithMirror ip port udpMirrorPort delay) = w.listed :=
      stillListed_kept (fun he => nomatch he) id
    rw [hlisted]
    exact placed_addServerWithMirror h ip port udpMirrorPort delay
  | cleanServers =>
    cases hm'
    exact placed_cleanServers h
  | rtpTransport =>
    have hsame : m' = w.tunnel := by
      change (if w.tunnel.transportFactories then w.tunnel.createRtpTransport
        else some w.tunnel) = some m' at hm'
      split_ifs at hm'
      · obtain ⟨servers, -, heq⟩ := Option.map_eq_some_iff.mp hm'
        exact heq.symm
      · exact (Option.some.inj hm').symm
    rw [hsame]
    exact h.of_same (fun he => nomatch he) ⟨rfl, rfl, rfl⟩ h.served id

/-- **A step keeps everything in step** exactly if it is bearable. -/
theorem sound_step_iff {e : TunnelInput} (h : w.Placed) (hsound : w.tunnel.Sound) :
    (∃ w', w.step e = some w' ∧ w'.tunnel.Sound) ↔ w.Bearable e := by
  have hproj : (∃ w', w.step e = some w' ∧ w'.tunnel.Sound) ↔
      ∃ m', w.tunnel.step e = some m' ∧ m'.Sound := by
    constructor
    · rintro ⟨w', hw', hsound'⟩
      obtain ⟨m', hm', rfl⟩ := Option.map_eq_some_iff.mp hw'
      exact ⟨m', hm', hsound'⟩
    · rintro ⟨m', hm', hsound'⟩
      exact ⟨_, Option.map_eq_some_iff.mpr ⟨m', hm', rfl⟩, hsound'⟩
  rw [hproj]
  have hsome : ∀ {t : TunnelManager} {p : Prop}, (t.Sound ↔ p) →
      ((∃ m', some t = some m' ∧ m'.Sound) ↔ p) := by
    intro t p ht
    simp only [Option.some.injEq, exists_eq_left', ht]
  cases e with
  | setMode mode =>
    exact hsome (iff_of_true (TunnelManager.sound_setMode hsound mode) trivial)
  | tunnelCallback connected =>
    exact hsome (iff_of_true (TunnelManager.sound_postEvent hsound _) trivial)
  | udpMirrorClientCallback node haveUdp =>
    exact hsome (iff_of_true (TunnelManager.sound_udpMirrorClientCallback hsound _ _) trivial)
  | iterate => exact TunnelManager.iterate_iff hsound h.served h.listed
  | networkReachable reachable =>
    exact hsome (TunnelManager.networkReachable_iff hsound reachable)
  | addServer ip port =>
    exact hsome (iff_of_true (TunnelManager.sound_addServer hsound ip port) trivial)
  | addServerWithMirror ip port udpMirrorPort delay =>
    exact hsome (iff_of_true
      (TunnelManager.sound_addServerWithMirror hsound ip port udpMirrorPort delay) trivial)
  | cleanServers => exact hsome (TunnelManager.cleanServers_iff hsound)
  | rtpTransport =>
    refine iff_of_true ⟨w.tunnel, ?_, hsound⟩ trivial
    show (if w.tunnel.transportFactories then w.tunnel.createRtpTransport
      else some w.tunnel) = some w.tunnel
    split_ifs with hf
    · obtain ⟨servers, hservers⟩ := Option.isSome_iff_exists.mp (hsound.factories hf)
      exact Option.map_eq_some_iff.mpr ⟨servers, hservers, rfl⟩
    · rfl

theorem placed_initial : Placed {} where
  served hsome := nomatch hsome
  places n hn := by cases hn
  current n hn := by cases hn
  listed hauto := nomatch hauto

end WatchedTunnel

/-! ## Runs -/

theorem TunnelManager.sound_initial : TunnelManager.Sound {} :=
  Sound.of_disabled rfl rfl rfl rfl

/-- **The runs in which the manager stays in step.** -/
theorem tunnel_sound_iff (events : List TunnelInput) :
    Conforms TunnelManager.step (fun (_ : Unit) _ => ()) (fun m _ => m.Sound) {} () events ↔
      Allowed WatchedTunnel.step WatchedTunnel.Bearable {} events := by
  have hproj : ∀ (w : WatchedTunnel) e,
      (w.step e).map WatchedTunnel.tunnel = w.tunnel.step e := by
    intro w e
    rw [WatchedTunnel.step, Option.map_map]
    exact congrFun Option.map_id _
  rw [show ({} : TunnelManager) = WatchedTunnel.tunnel {} from rfl,
    ← Conformance.conforms_proj hproj,
    ← Conformance.conforms_and_iff (fun _ _ _ => WatchedTunnel.placed_step)
      WatchedTunnel.placed_initial]
  refine Conformance.conforms_iff (fun w _ e ⟨hsound, hplaced⟩ => ?_)
    ⟨TunnelManager.sound_initial, WatchedTunnel.placed_initial⟩
  rw [← WatchedTunnel.sound_step_iff hplaced hsound]
  refine exists_congr fun w' => ⟨?_, ?_⟩
  · exact fun ⟨hw', hsound', _⟩ => ⟨hw', hsound'⟩
  · exact fun ⟨hw', hsound'⟩ => ⟨hw', hsound', WatchedTunnel.placed_step hplaced hw'⟩

/-- The tunnel is ready, in automatic mode a mirror answers, and the SAL keeps a client that was
deleted. -/
theorem mirrorAnswer_not_sound :
    ¬∀ events : List TunnelInput,
      Conforms TunnelManager.step (fun (_ : Unit) _ => ()) (fun m _ => m.Sound) {} () events := by
  intro h
  obtain ⟨m, hm, hsound⟩ := h [.addServerWithMirror (some "tunnel.example.org") 443 12345 1000,
    .setMode .enable, .tunnelCallback true, .iterate, .setMode .auto,
    .udpMirrorClientCallback 0 true, .iterate] _ (List.prefix_refl _)
  cases hm
  exact absurd (hsound.salTunnel rfl) Bool.false_ne_true

end Linphone
