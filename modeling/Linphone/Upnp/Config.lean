import Linphone.Lib.Scan
import Mathlib.Data.List.Perm.Basic

/-!
# Port mappings in the configuration

The section `uPnP` of the configuration (`coreapi/upnp.c`) lists the port mappings that were made,
one key each, so that they can be removed by a later run. Additions and removals are queued in two
lists that cancel each other, and written when the core iterates (`linphone_upnp_update_config`).

`scanEntry_key`: a key that fits into the buffer it is built in is read back.
-/

namespace Linphone

/-! ## Data -/

inductive LinphoneUpnpState
  | idle | pending | adding | removing | notAvailable | ok | ko | blacklisted
deriving DecidableEq, Inhabited

inductive UpnpIgdIpProtocol
  | udp | tcp
deriving DecidableEq, Inhabited

/-- `UPNP_UUID_LEN` -/
def upnpUuidLen : Nat := 128

/-- `linphone_upnp_port_binding_new` has these values. -/
structure UpnpPortBinding where
  state : LinphoneUpnpState := .idle
  protocol : UpnpIgdIpProtocol := .udp
  deviceId : Option (List Char) := none
  localAddr : String := ""
  localPort : Int := -1
  externalAddr : String := ""
  externalPort : Int := -1
  retry : Nat := 0
  ref : Int := 1
  toRemove : Bool := false
  toAdd : Bool := false
  lastUpdate : Int := 0
deriving DecidableEq, Inhabited

/-- `linphone_upnp_port_binding_equal`; an external port of -1 means "don't care". -/
def UpnpPortBinding.equal (port1 port2 : UpnpPortBinding) : Bool :=
  port1.protocol = port2.protocol && port1.localPort = port2.localPort &&
    (port1.externalPort = -1 || port2.externalPort = -1 || port1.externalPort = port2.externalPort)

/-! ## Device ids -/

/-- `linphone_upnp_strncmpi`, whether it is zero. -/
def upnpStrncmpi (str1 str2 : List Char) (len : Nat) : Bool :=
  (str1.take len).map Char.toUpper = (str2.take len).map Char.toUpper

/-- `linphone_upnp_format_device_id`. An id that ends within the prefix it may start with is read
past its end. -/
def formatDeviceId (deviceId : List Char) : Option (List Char) :=
  let uuid := "uuid:".toList
  if upnpStrncmpi deviceId uuid (min deviceId.length uuid.length) then
    if deviceId.length < uuid.length then none
    else some (((deviceId.drop uuid.length).filter Char.isAlphanum).take upnpUuidLen)
  else some ((deviceId.filter Char.isAlphanum).take upnpUuidLen)

/-! ## Keys -/

def protocolName : UpnpIgdIpProtocol → List Char
  | .tcp => "TCP".toList
  | .udp => "UDP".toList

/-- The key of a binding, in a buffer of 64 characters. -/
def configKey (port : UpnpPortBinding) : List Char :=
  ((port.deviceId.getD []) ++ '-' :: (protocolName port.protocol ++ '-' ::
    (Scan.decimal port.externalPort ++ '-' :: Scan.decimal port.localPort))).take 63

/-- What `sscanf` finds in an entry. -/
def scanEntry (entry : List Char) : Option (List Char × List Char × Int × Int) := do
  let (deviceId, s) ← Scan.field upnpUuidLen (· ≠ '-') entry
  let s ← Scan.literal '-' s
  let (protocol, s) ← Scan.word 3 s
  let s ← Scan.literal '-' s
  let (externalPort, s) ← Scan.integer s
  let s ← Scan.literal '-' s
  let (localPort, _) ← Scan.integer s
  pure (deviceId, protocol, externalPort, localPort)

/-- The protocol an entry names. -/
def scanProtocol (protocol : List Char) : Option UpnpIgdIpProtocol :=
  if upnpStrncmpi protocol "TCP".toList 3 then some .tcp
  else if upnpStrncmpi protocol "UDP".toList 3 then some .udp
  else none

/-- `linphone_upnp_config_list_port_bindings_cb` -/
def listPortBindingsCb (deviceId : List Char) (entry : List Char) : Option UpnpPortBinding :=
  (scanEntry entry).bind fun (id, protocol, externalPort, localPort) =>
    if id ≠ deviceId then none
    else (scanProtocol protocol).map fun protocol =>
      { deviceId := formatDeviceId id, state := .ok, protocol := protocol
        externalPort := externalPort, localPort := localPort }

/-- The bindings of a device, whose id is formatted. -/
def listedOn (keys : List (List Char)) (id : List Char) : List UpnpPortBinding :=
  keys.filterMap (listPortBindingsCb id)

/-- `linphone_upnp_config_list_port_bindings` -/
def listPortBindings (keys : List (List Char)) (deviceId : List Char) :
    Option (List UpnpPortBinding) :=
  (formatDeviceId deviceId).map (listedOn keys)

/-! ## Queues -/

/-- The two lists of the context, and the keys of the section. -/
structure UpnpConfigs where
  adding : List UpnpPortBinding := []
  removing : List UpnpPortBinding := []
  keys : List (List Char) := []

/-- `linphone_upnp_port_binding_copy`, which formats the id again. -/
def UpnpPortBinding.copy (port : UpnpPortBinding) : UpnpPortBinding :=
  { port with deviceId := port.deviceId.bind formatDeviceId, ref := 1 }

/-- A binding cancels the first equivalent one of the opposite list, or is added to its own list
unless one is there. -/
def queuePortBinding (opposite queue : List UpnpPortBinding) (port : UpnpPortBinding) :
    List UpnpPortBinding × List UpnpPortBinding :=
  if port.deviceId = none then (opposite, queue)
  else match opposite.find? (·.equal port) with
    | some p => (opposite.erase p, queue)
    | none =>
        if queue.any (·.equal port) then (opposite, queue)
        else (opposite, queue ++ [port.copy])

namespace UpnpConfigs

variable (c : UpnpConfigs) (port : UpnpPortBinding)

/-- `linphone_upnp_config_add_port_binding` -/
def addPortBinding : UpnpConfigs :=
  let (removing, adding) := queuePortBinding c.removing c.adding port
  { c with adding := adding, removing := removing }

/-- `linphone_upnp_config_remove_port_binding` -/
def removePortBinding : UpnpConfigs :=
  let (adding, removing) := queuePortBinding c.adding c.removing port
  { c with adding := adding, removing := removing }

/-- `lp_config_set_string` with a value. -/
def setKey (keys : List (List Char)) (key : List Char) : List (List Char) :=
  if key ∈ keys then keys else keys ++ [key]

/-- `linphone_upnp_update_config` -/
def updateConfig : UpnpConfigs where
  keys := (c.removing.map configKey).foldl List.erase ((c.adding.map configKey).foldl setKey c.keys)

end UpnpConfigs

/-! ## Mappings and their keys -/

/-- A port mapping on a device. -/
structure PortMapping where
  device : List Char
  protocol : UpnpIgdIpProtocol
  externalPort : Int
  localPort : Int
deriving DecidableEq

/-- The mapping of a binding, on the device that it was requested from. -/
def UpnpPortBinding.mapping (port : UpnpPortBinding) : Option PortMapping :=
  port.deviceId.map fun id => ⟨id, port.protocol, port.externalPort, port.localPort⟩

/-- The whole key. -/
def PortMapping.key (m : PortMapping) : List Char :=
  m.device ++ '-' :: (protocolName m.protocol ++ '-' ::
    (Scan.decimal m.externalPort ++ '-' :: Scan.decimal m.localPort))

/-- What `linphone_upnp_format_device_id` allows. -/
def AllowedId (id : List Char) : Prop := ∃ raw, formatDeviceId raw = some id

/-- A mapping whose key fits into the buffer, with an id that is not empty and that is itself
formatted without reading past its end. -/
structure PortMapping.Fits (m : PortMapping) : Prop where
  allowed : AllowedId m.device
  ne_nil : m.device ≠ []
  formatted : formatDeviceId m.device = some m.device
  short : m.key.length < 64

section keys

variable {m : PortMapping} {port : UpnpPortBinding}

theorem alphanum_of_allowed {id : List Char} (h : AllowedId id) :
    (∀ c ∈ id, c.isAlphanum = true) ∧ id.length ≤ upnpUuidLen := by
  obtain ⟨raw, hraw⟩ := h
  have hkind : ∀ l : List Char, (∀ c ∈ ((l.filter Char.isAlphanum).take upnpUuidLen),
      c.isAlphanum = true) ∧ ((l.filter Char.isAlphanum).take upnpUuidLen).length ≤
        upnpUuidLen := by
    intro l
    refine ⟨fun c hc => ?_, List.length_take_le _ _⟩
    exact (List.mem_filter.mp (List.mem_of_mem_take hc)).2
  unfold formatDeviceId at hraw
  dsimp only at hraw
  split at hraw
  · split at hraw
    · exact absurd hraw (by simp)
    · obtain rfl := Option.some.inj hraw
      exact hkind _
  · obtain rfl := Option.some.inj hraw
    exact hkind _

theorem configKey_eq (hport : port.mapping = some m) (hfits : m.Fits) : configKey port = m.key := by
  unfold UpnpPortBinding.mapping at hport
  obtain ⟨id, hid, rfl⟩ := Option.map_eq_some_iff.mp hport
  have hshort := hfits.short
  unfold configKey
  rw [hid]
  refine List.take_of_length_le ?_
  unfold PortMapping.key at hshort
  simpa using Nat.le_of_lt_succ hshort

theorem field_append {width : Nat} {p : Char → Bool} {l s : List Char} (hl : ∀ c ∈ l, p c = true)
    (hs : l.length = width ∨ ∀ c ∈ s.head?, p c = false) (hne : l ≠ [])
    (hwidth : l.length ≤ width) : Scan.field width p (l ++ s) = some (l, s) := by
  have htake : ((l ++ s).takeWhile p).take width = l := by
    rcases hs with hfull | hends
    · rw [List.takeWhile_append_of_pos hl, ← hfull, List.take_left]
    · rw [Scan.takeWhile_append_of_ends hl hends, List.take_of_length_le hwidth]
  unfold Scan.field
  rw [htake, if_neg hne, List.drop_left]

theorem word_protocol (protocol : UpnpIgdIpProtocol) (s : List Char) :
    Scan.word 3 (protocolName protocol ++ s) = some (protocolName protocol, s) := by
  have hskip : (protocolName protocol ++ s).dropWhile Scan.isSpace =
    protocolName protocol ++ s := by
    cases protocol <;> rfl
  unfold Scan.word
  rw [hskip]
  refine field_append (List.all_eq_true.mp ?_) (.inl ?_) ?_ ?_
  · cases protocol <;> rfl
  · cases protocol <;> rfl
  · cases protocol <;> exact List.cons_ne_nil _ _
  · cases protocol <;> decide

theorem ends_dash (s : List Char) : Scan.Ends ('-' :: s) := by
  intro c hc
  obtain rfl : '-' = c := Option.some.inj hc
  decide

/-- **A key is read back.** -/
theorem scanEntry_key (h : m.Fits) : scanEntry m.key =
    some (m.device, protocolName m.protocol, m.externalPort, m.localPort) := by
  obtain ⟨halpha, hlength⟩ := alphanum_of_allowed h.allowed
  have hid : ∀ c ∈ m.device, decide (c ≠ '-') = true := by
    intro c hc
    have hdash : c ≠ '-' := by
      intro heq
      have := halpha c hc
      rw [heq] at this
      exact absurd this (by decide)
    simpa using hdash
  have hfield : ∀ rest, Scan.field upnpUuidLen (fun c => decide (c ≠ '-'))
      (m.device ++ '-' :: rest) = some (m.device, '-' :: rest) :=
    fun rest => field_append hid (.inr (by simp)) h.ne_nil hlength
  have hlocal := Scan.integer_decimal m.localPort Scan.ends_nil
  rw [List.append_nil] at hlocal
  unfold scanEntry PortMapping.key
  simp only [hfield, Scan.literal, word_protocol, Scan.integer_decimal _ (ends_dash _), hlocal,
    if_true, Option.bind_eq_bind, Option.bind_some]
  rfl

theorem scanProtocol_protocolName (protocol : UpnpIgdIpProtocol) :
    scanProtocol (protocolName protocol) = some protocol := by
  cases protocol <;> decide

theorem protocolName_injective : Function.Injective protocolName := by
  intro p₁ p₂ h
  have := congrArg scanProtocol h
  rw [scanProtocol_protocolName, scanProtocol_protocolName] at this
  exact Option.some.inj this

theorem eq_of_key_eq {m' : PortMapping} (h : m.Fits) (h' : m'.Fits) (heq : m.key = m'.key) :
    m = m' := by
  have hscan := scanEntry_key h
  rw [heq, scanEntry_key h'] at hscan
  obtain ⟨hdevice, hprotocol, hexternal, hlocal⟩ := by simpa using hscan
  cases m
  cases m'
  simp only [PortMapping.mk.injEq] at *
  exact ⟨hdevice.symm, (protocolName_injective hprotocol).symm, hexternal.symm, hlocal.symm⟩

/-- A device reads the keys of its own mappings. -/
theorem listPortBindingsCb_key (h : m.Fits) (id : List Char) :
    (listPortBindingsCb id m.key).map UpnpPortBinding.mapping =
      if m.device = id then some (some m) else none := by
  unfold listPortBindingsCb
  rw [scanEntry_key h]
  simp only [Option.bind_some, scanProtocol_protocolName, Option.map_some]
  by_cases hid : m.device = id
  · subst hid
    rw [if_neg (not_not_intro rfl), if_pos rfl]
    simp only [Option.map_some, UpnpPortBinding.mapping, h.formatted]
  · rw [if_pos hid, if_neg hid]
    rfl

end keys

end Linphone
