import Linphone.Lib.Scan
import Mathlib.Data.List.Dedup

/-!
# Chat rooms

The rooms of `coreapi/chat.c`, with the addresses of `coreapi/address.c`: a room is found by a weak
comparison, of user, domain and port. `initChatRooms` makes the rooms of a restart from the texts of
the peers in the database, each of which `linphone_core_interpret_url` turns into an address.

`initChatRooms_eq`: each peer has its room when each text is interpreted and no two of the addresses
are weakly equal.
-/

namespace Linphone

/-! ## Addresses -/

/-- `belle_sip_uri_t` -/
structure SipUri where
  secure : Bool := false
  user : Option String := none
  password : Option String := none
  host : Option String := none
  port : Int := 0
  params : List (String × Option String) := []
  headers : List (String × String) := []
deriving DecidableEq

inductive AddressUri
  | sip (uri : SipUri)
  /-- `belle_generic_uri_t` -/
  | absolute (uri : String)
deriving DecidableEq

structure LinphoneAddress where
  displayName : Option String := none
  uri : AddressUri
deriving DecidableEq

/-- What is taken from belle-sip: an URI after its scheme, as a text, and the address in a text. -/
structure BelleSip where
  marshalUri : SipUri → String
  addressParse : String → Option LinphoneAddress

namespace LinphoneAddress

variable (addr : LinphoneAddress)

def isSip : Bool :=
  match addr.uri with
  | .sip _ => true
  | .absolute _ => false

def username : Option String :=
  match addr.uri with
  | .sip uri => uri.user
  | .absolute _ => none

def domain : Option String :=
  match addr.uri with
  | .sip uri => uri.host
  | .absolute _ => none

def port : Int :=
  match addr.uri with
  | .sip uri => uri.port
  | .absolute _ => -1

/-- `linphone_address_weak_equal` -/
def WeakEqual (addr addr' : LinphoneAddress) : Prop :=
  addr.username = addr'.username ∧ addr.domain = addr'.domain ∧ addr.port = addr'.port

instance (addr addr' : LinphoneAddress) : Decidable (addr.WeakEqual addr') :=
  inferInstanceAs (Decidable (_ ∧ _))

theorem WeakEqual.symm {addr addr' : LinphoneAddress} (h : addr.WeakEqual addr') :
    addr'.WeakEqual addr :=
  ⟨h.1.symm, h.2.1.symm, h.2.2.symm⟩

theorem WeakEqual.trans {a b c : LinphoneAddress} (h : a.WeakEqual b) (h' : b.WeakEqual c) :
    a.WeakEqual c :=
  ⟨h.1.trans h'.1, h.2.1.trans h'.2.1, h.2.2.trans h'.2.2⟩

/-- `linphone_address_clean` -/
def clean : LinphoneAddress :=
  match addr.uri with
  | .sip uri => { addr with uri := .sip { uri with params := [], headers := [] } }
  | .absolute _ => addr

theorem weakEqual_clean : addr.WeakEqual addr.clean := by
  obtain ⟨displayName, uri⟩ := addr
  cases uri with
  | sip uri => exact ⟨rfl, rfl, rfl⟩
  | absolute uri => exact ⟨rfl, rfl, rfl⟩

end LinphoneAddress

section belleSip

variable (lib : BelleSip)

/-- The text of an URI. -/
def BelleSip.marshal : AddressUri → String
  | .sip uri => (if uri.secure then "sips:" else "sip:") ++ lib.marshalUri uri
  | .absolute uri => uri

/-- An address is read from the text of an URI. -/
def BelleSip.ReadsBack (uri : AddressUri) : Prop :=
  lib.addressParse (lib.marshal uri) = some { uri := uri }

instance (uri : AddressUri) : Decidable (lib.ReadsBack uri) := inferInstanceAs (Decidable (_ = _))

/-- `linphone_address_as_string_uri_only`: the text is written into 1024 bytes. -/
def asStringUriOnly (addr : LinphoneAddress) : String :=
  String.ofList ((lib.marshal addr.uri).toList.take 1023)

/-! ## Interpretation of a text -/

/-- What a restart finds: the answers of ENUM, the default proxy, and the order in which the
database groups texts. -/
structure Restart where
  /-- `enum_lookup`, its first address. -/
  enumLookup : String → Option String
  /-- The address of a number in the domain of the default proxy, when there is one. -/
  proxyAddress : String → Option LinphoneAddress
  groupBy : List String → List String
  mem_groupBy : ∀ contacts contact, contact ∈ groupBy contacts ↔ contact ∈ contacts
  nodup_groupBy : ∀ contacts, (groupBy contacts).Nodup

/-- Nothing is known outside: no ENUM, and no default proxy. -/
def Restart.bare : Restart where
  enumLookup := fun _ => none
  proxyAddress := fun _ => none
  groupBy := List.dedup
  mem_groupBy := fun _ _ => List.mem_dedup
  nodup_groupBy := List.nodup_dedup

/-- `is_a_number`, with the flags of its loop. -/
def isANumber (res spaceFound : Bool) : List Char → Bool
  | [] => res
  | c :: s =>
      if c.isDigit then (if spaceFound then false else isANumber true spaceFound s)
      else if c = ' ' then isANumber res true s
      else false

/-- `is_enum` -/
def isEnum (sipaddress : String) : Bool :=
  match Scan.strstr "sip:".toList sipaddress.toList with
  | some p => isANumber false false (p.drop 4)
  | none => false

/-- There is a "sip:" or a "sips:" in a text. -/
def hasScheme (url : String) : Bool :=
  (Scan.strstr "sip:".toList url.toList).isSome || (Scan.strstr "sips:".toList url.toList).isSome

/-- `_linphone_core_destroy_addr_if_not_sip` -/
def ifSip (uri : LinphoneAddress) : Option LinphoneAddress := if uri.isSip then some uri else none

variable (restart : Restart)

/-- `linphone_core_interpret_url` -/
def interpretUrl (url : String) : Option LinphoneAddress :=
  if url = "" then none
  else if isEnum url then
    match restart.enumLookup url with
    | none => none
    | some tmpurl => (lib.addressParse tmpurl).bind ifSip
  else if hasScheme url = false then
    match if '@' ∈ url.toList then lib.addressParse ("sip:" ++ url) else none with
    | some uri => ifSip uri
    | none => (restart.proxyAddress url).bind ifSip
  else (lib.addressParse url).bind ifSip

/-! ## Rooms -/

structure ChatRoom where
  peerUrl : LinphoneAddress
deriving DecidableEq

/-- `_linphone_core_get_chat_room` -/
def getChatRoom (chatrooms : List ChatRoom) (addr : LinphoneAddress) : Option ChatRoom :=
  chatrooms.find? fun cr => cr.peerUrl.WeakEqual addr

/-- `_linphone_core_get_or_create_chat_room`: the rooms afterwards. -/
def getOrCreateChatRoom (chatrooms : List ChatRoom) (url : String) : List ChatRoom :=
  match interpretUrl lib restart url with
  | none => chatrooms
  | some addr =>
      match getChatRoom chatrooms addr with
      | some _ => chatrooms
      | none => chatrooms ++ [{ peerUrl := addr }]

/-- `linphone_message_storage_init_chat_rooms`, with the remote contacts of the rows. -/
def initChatRooms (contacts : List String) : List ChatRoom :=
  (restart.groupBy contacts).foldl (getOrCreateChatRoom lib restart) []

end belleSip

section rooms

variable {lib : BelleSip} {restart : Restart} {chatrooms : List ChatRoom} {room : ChatRoom}
  {addr addr' : LinphoneAddress} {contacts : List String} {contact : String}

theorem getChatRoom_congr (h : addr.WeakEqual addr') :
    getChatRoom chatrooms addr = getChatRoom chatrooms addr' := by
  unfold getChatRoom
  congr 1
  funext cr
  exact decide_eq_decide.mpr ⟨fun hcr => hcr.trans h, fun hcr => hcr.trans h.symm⟩

theorem mem_getOrCreateChatRoom (h : room ∈ getOrCreateChatRoom lib restart chatrooms contact) :
    room ∈ chatrooms ∨ interpretUrl lib restart contact = some room.peerUrl := by
  unfold getOrCreateChatRoom at h
  split at h
  · exact .inl h
  · rename_i addr haddr
    split at h
    · exact .inl h
    · rcases List.mem_append.mp h with hmem | hnew
      · exact .inl hmem
      · rw [List.mem_singleton.mp hnew]
        exact .inr haddr

theorem mem_foldl_getOrCreate
    (h : room ∈ contacts.foldl (getOrCreateChatRoom lib restart) chatrooms) :
    room ∈ chatrooms ∨ ∃ contact ∈ contacts, interpretUrl lib restart contact =
      some room.peerUrl := by
  induction contacts generalizing chatrooms with
  | nil => exact .inl h
  | cons contact contacts ih =>
      rcases ih h with hmem | ⟨q, hq, heq⟩
      · rcases mem_getOrCreateChatRoom hmem with hmem | heq
        · exact .inl hmem
        · exact .inr ⟨contact, by simp, heq⟩
      · exact .inr ⟨q, List.mem_cons_of_mem contact hq, heq⟩

theorem mem_initChatRooms (h : room ∈ initChatRooms lib restart contacts) :
    ∃ contact ∈ contacts, interpretUrl lib restart contact = some room.peerUrl := by
  rcases mem_foldl_getOrCreate h with hmem | ⟨q, hq, heq⟩
  · exact absurd hmem (by simp)
  · exact ⟨q, (restart.mem_groupBy contacts q).mp hq, heq⟩

/-- The contacts are interpreted as different peers. -/
structure Separate (lib : BelleSip) (restart : Restart) (f : String → LinphoneAddress)
    (contacts : List String) : Prop where
  interpreted : ∀ q ∈ contacts, interpretUrl lib restart q = some (f q)
  distinct : ∀ q ∈ contacts, ∀ q' ∈ contacts, (f q).WeakEqual (f q') → q = q'

theorem foldl_getOrCreate {f : String → LinphoneAddress} {before : List String}
    (h : Separate lib restart f (before ++ contacts)) (hnodup : (before ++ contacts).Nodup) :
    contacts.foldl (getOrCreateChatRoom lib restart) (before.map fun q => { peerUrl := f q }) =
      (before ++ contacts).map fun q => { peerUrl := f q } := by
  induction contacts generalizing before with
  | nil => simp
  | cons q contacts ih =>
      have hnone : getChatRoom (before.map fun q => { peerUrl := f q }) (f q) = none := by
        unfold getChatRoom
        simp only [List.find?_eq_none, List.mem_map, decide_eq_true_eq]
        rintro room ⟨q', hq', rfl⟩ hweak
        have heq := h.distinct q' (by simp [hq']) q (by simp) hweak
        rw [heq] at hq'
        exact (List.nodup_append.mp hnodup).2.2 q hq' q (by simp) rfl
      have hone : getOrCreateChatRoom lib restart (before.map fun q => { peerUrl := f q }) q =
          (before ++ [q]).map fun q => { peerUrl := f q } := by
        unfold getOrCreateChatRoom
        simp only [h.interpreted q (by simp), hnone]
        simp
      rw [List.foldl_cons, hone]
      have hassoc : before ++ q :: contacts = (before ++ [q]) ++ contacts := by simp
      rw [hassoc] at h hnodup ⊢
      exact ih h hnodup

/-- **Each contact has a room.** -/
theorem initChatRooms_eq {f : String → LinphoneAddress} (h : Separate lib restart f contacts) :
    initChatRooms lib restart contacts =
      (restart.groupBy contacts).map fun q => { peerUrl := f q } := by
  have hgroups : Separate lib restart f ([] ++ restart.groupBy contacts) := by
    refine ⟨fun q hq => h.interpreted q ?_, fun q hq q' hq' => h.distinct q ?_ q' ?_⟩
    · exact (restart.mem_groupBy contacts q).mp hq
    · exact (restart.mem_groupBy contacts q).mp hq
    · exact (restart.mem_groupBy contacts q').mp hq'
  exact foldl_getOrCreate hgroups (restart.nodup_groupBy contacts)

/-- The room of a contact is found by any address that is weakly equal to its own. -/
theorem getChatRoom_initChatRooms {f : String → LinphoneAddress}
    (h : Separate lib restart f contacts) (hmem : contact ∈ contacts)
    (hweak : (f contact).WeakEqual addr) :
    getChatRoom (initChatRooms lib restart contacts) addr = some { peerUrl := f contact } := by
  rw [← getChatRoom_congr hweak, initChatRooms_eq h]
  have hin : contact ∈ restart.groupBy contacts := (restart.mem_groupBy contacts contact).mpr hmem
  cases hfind : getChatRoom ((restart.groupBy contacts).map fun q => { peerUrl := f q })
      (f contact) with
  | none =>
      unfold getChatRoom at hfind
      simp only [List.find?_eq_none, List.mem_map, decide_eq_true_eq] at hfind
      exact absurd ⟨rfl, rfl, rfl⟩ (hfind _ ⟨contact, hin, rfl⟩)
  | some room =>
      unfold getChatRoom at hfind
      have hroom := List.mem_of_find?_eq_some hfind
      have hequal := List.find?_some hfind
      simp only [List.mem_map, decide_eq_true_eq] at hroom hequal
      obtain ⟨q, hq, rfl⟩ := hroom
      rw [h.distinct q ((restart.mem_groupBy contacts q).mp hq) contact hmem hequal]

theorem interpretUrl_of_sip (hne : contact ≠ "") (hnumber : isEnum contact = false)
    (hscheme : hasScheme contact = true) (hparse : lib.addressParse contact = some addr)
    (hsip : addr.isSip = true) : interpretUrl lib restart contact = some addr := by
  unfold interpretUrl
  rw [if_neg hne, if_neg (by simp [hnumber]), if_neg (by simp [hscheme]), hparse]
  simp [ifSip, hsip]

/-- Without answers from outside, only a SIP address is interpreted, and a text with its scheme as
what it is read as. -/
theorem interpretUrl_cases (hlookup : restart.enumLookup contact = none)
    (hproxy : restart.proxyAddress contact = none)
    (h : interpretUrl lib restart contact = some addr) :
    isEnum contact = false ∧ addr.isSip = true ∧
      (hasScheme contact = true → lib.addressParse contact = some addr) := by
  have hifSip {uri : LinphoneAddress} (huri : ifSip uri = some addr) :
      uri = addr ∧ addr.isSip = true := by
    unfold ifSip at huri
    split at huri
    · rename_i hsip
      obtain rfl := Option.some.inj huri
      exact ⟨rfl, hsip⟩
    · exact absurd huri (by simp)
  unfold interpretUrl at h
  by_cases hempty : contact = ""
  · rw [if_pos hempty] at h
    exact absurd h (by simp)
  by_cases hnumber : isEnum contact = true
  · rw [if_neg hempty, if_pos hnumber, hlookup] at h
    exact absurd h (by simp)
  rw [if_neg hempty, if_neg hnumber] at h
  have hnot : isEnum contact = false := by
    simpa using hnumber
  by_cases hscheme : hasScheme contact = false
  · rw [if_pos hscheme, hproxy] at h
    refine ⟨hnot, ?_, fun htrue => absurd (htrue.symm.trans hscheme) (by decide)⟩
    split at h
    · exact (hifSip h).2
    · exact absurd h (by simp)
  · rw [if_neg hscheme] at h
    obtain ⟨uri, hparse, huri⟩ := Option.bind_eq_some_iff.mp h
    obtain ⟨rfl, hsip⟩ := hifSip huri
    exact ⟨hnot, hsip, fun _ => hparse⟩

variable (lib) in
theorem hasScheme_marshal (hsip : addr.isSip = true) : hasScheme (lib.marshal addr.uri) = true := by
  obtain ⟨displayName, uri⟩ := addr
  cases uri with
  | absolute uri => exact absurd hsip (by simp [LinphoneAddress.isSip])
  | sip uri =>
      change hasScheme ((if uri.secure then "sips:" else "sip:") ++ lib.marshalUri uri) = true
      unfold hasScheme
      by_cases hsecure : uri.secure = true
      · have hsips := Scan.strstr_append "sips:".toList (lib.marshalUri uri).toList
        rw [if_pos hsecure, String.toList_append, hsips]
        exact Bool.or_true _
      · have hplain := Scan.strstr_append "sip:".toList (lib.marshalUri uri).toList
        rw [if_neg hsecure, String.toList_append, hplain]
        exact Bool.true_or _

end rooms

end Linphone
