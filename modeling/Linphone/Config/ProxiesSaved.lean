import Linphone.Config.FriendsSaved

/-!
# Proxies in the configuration

`linphone_proxy_config_write_to_config_file` and `linphone_proxy_config_new_from_config_file`
(`coreapi/proxy.c`). The section of a proxy is cleaned before it is written. A proxy that is read
starts with the default values, and its setters get what is in the section or else what it has.

`proxies_keep` says when a proxy is read back as it was.
-/

namespace Linphone

/-- What the configuration holds of a proxy. An enumerator is its number, and the mask of the
privacy is the `int` it is written as. -/
structure ProxyEntry where
  type : Option String := none
  regProxy : Option String := none
  regRoute : Option String := none
  regIdentity : Option String := none
  realm : Option String := none
  contactParams : Option String := none
  contactUriParams : Option String := none
  qualityReportingCollector : Option String := none
  qualityReportingEnabled : Bool := false
  qualityReportingInterval : UInt8 := 0
  expires : Int := 3600
  regSendregister : Bool := true
  publish : Bool := false
  avpfMode : Int := -1
  avpfRrInterval : UInt8 := 5
  dialEscapePlus : Bool := false
  dialPrefix : Option String := none
  privacy : Int := 0x8000

/-- A number as an `uint8_t`. -/
def asByte (n : Int) : UInt8 := UInt8.ofNat (n % 256).toNat

@[simp] theorem asByte_toNat (b : UInt8) : asByte (b.toNat : Int) = b := by
  have hlt : b.toNat < 256 := b.toNat_lt
  rw [asByte, Int.emod_eq_of_lt (by omega) (by omega), Int.toNat_natCast, UInt8.ofNat_toNat]

/-- belle-sip, which reads the placeholder of a server as it writes it. -/
structure ProxyText extends AddressText where
  placeholder : LinphoneAddress
  parse_placeholder : addressParse "sip:undefined" = some placeholder
  parse_asString : addressParse (toAddressText.asString placeholder) = some placeholder
  hasScheme_asString : hasScheme (toAddressText.asString placeholder) = true

section proxies

variable (lib : ProxyText)

/-! ## Setters -/

/-- A setter that makes something of a text, or nothing. -/
def setMade (make : String → Option String) (value : Option String) : Option String :=
  match value with
  | none => none
  | some value => if value = "" then none else make value

/-- A setter that leaves the old text when the new one is not right. -/
def setChecked (right : String → Bool) (old value : Option String) : Option String :=
  match value with
  | none => old
  | some value => if value ≠ "" ∧ right value = true then some value else old

/-- `linphone_proxy_config_set_server_addr` -/
def setServerAddr : Option String → Option String :=
  setMade fun serverAddr =>
    let addr := if hasScheme serverAddr then none else lib.addressParse ("sip:" ++ serverAddr)
    (addr.or (lib.addressParse serverAddr)).map lib.asString

/-- `linphone_proxy_config_set_route` -/
def setRoute : Option String → Option String :=
  setMade fun route =>
    let tmp := if hasScheme route then route else "sip:" ++ route
    if (lib.addressParse tmp).isSome then some tmp else none

/-- An identity is the address of a user. -/
def isIdentity (identity : String) : Bool :=
  ((lib.addressParse identity).bind LinphoneAddress.username).isSome

/-- `linphone_proxy_config_set_identity` -/
def setIdentity : Option String → Option String → Option String := setChecked (isIdentity lib)

/-- `linphone_proxy_config_set_quality_reporting_collector` -/
def setCollector : Option String → Option String → Option String :=
  setChecked fun collector => (lib.addressParse collector).isSome

/-- `linphone_proxy_config_set_expires` -/
def setExpires (val : Int) : Int := if val < 0 then 600 else val

/-- `linphone_proxy_config_set_avpf_rr_interval` -/
def setAvpfRrInterval (interval : UInt8) : UInt8 := if 5 < interval then 5 else interval

/-! ## Writing and reading -/

/-- `linphone_proxy_config_write_to_config_file` -/
def writeProxy (config : LpConfig) (obj : ProxyEntry) (index : Nat) : LpConfig :=
  let key := numbered "proxy_" index
  let config := config.cleanSection key
  let config := writeField key "type" obj.type config
  let config := writeField key "reg_proxy" obj.regProxy config
  let config := writeField key "reg_route" obj.regRoute config
  let config := writeField key "reg_identity" obj.regIdentity config
  let config := writeField key "realm" obj.realm config
  let config := writeField key "contact_parameters" obj.contactParams config
  let config := writeField key "contact_uri_parameters" obj.contactUriParams config
  let config := writeField key "quality_reporting_collector" obj.qualityReportingCollector config
  let config := config.setInt key "quality_reporting_enabled" (ofBool obj.qualityReportingEnabled)
  let config := config.setInt key "quality_reporting_interval" obj.qualityReportingInterval.toNat
  let config := config.setInt key "reg_expires" obj.expires
  let config := config.setInt key "reg_sendregister" (ofBool obj.regSendregister)
  let config := config.setInt key "publish" (ofBool obj.publish)
  let config := config.setInt key "avpf" obj.avpfMode
  let config := config.setInt key "avpf_rr_interval" obj.avpfRrInterval.toNat
  let config := config.setInt key "dial_escape_plus" (ofBool obj.dialEscapePlus)
  let config := config.setString key "dial_prefix" obj.dialPrefix
  config.setInt key "privacy" obj.privacy

def proxyDefaults : String := "proxy_default_values"

/-- `linphone_core_create_proxy_config` -/
def createProxy (config : LpConfig) : ProxyEntry where
  expires := config.getInt proxyDefaults "reg_expires" 3600
  regSendregister := asBool (config.getInt proxyDefaults "reg_sendregister" 1)
  dialPrefix := config.getString proxyDefaults "dial_prefix"
  dialEscapePlus := asBool (config.getInt proxyDefaults "dial_escape_plus" 0)
  privacy := config.getInt proxyDefaults "privacy" 0x8000
  regIdentity := config.getString proxyDefaults "reg_identity"
  regProxy := config.getString proxyDefaults "reg_proxy"
  regRoute := config.getString proxyDefaults "reg_route"
  realm := config.getString proxyDefaults "realm"
  qualityReportingEnabled := asBool (config.getInt proxyDefaults "quality_reporting_enabled" 0)
  qualityReportingCollector := config.getString proxyDefaults "quality_reporting_collector"
  qualityReportingInterval :=
    asByte (config.getInt proxyDefaults "quality_reporting_interval" 0)
  contactParams := config.getString proxyDefaults "contact_parameters"
  contactUriParams := config.getString proxyDefaults "contact_uri_parameters"
  avpfMode := config.getInt proxyDefaults "avpf" (-1)
  avpfRrInterval := asByte (config.getInt proxyDefaults "avpf_rr_interval" 5)

/-- `linphone_proxy_config_set_sip_setup`, when there is a type. -/
def setSipSetup (cfg : ProxyEntry) (type : Option String) : ProxyEntry :=
  match type with
  | none => cfg
  | some type =>
      { cfg with
        type := some type
        regProxy :=
          if cfg.regProxy = none then setServerAddr lib (some "sip:undefined") else cfg.regProxy }

/-- `linphone_proxy_config_new_from_config_file` -/
def readProxy (config : LpConfig) (index : Nat) : Option ProxyEntry :=
  let key := numbered "proxy_" index
  if config.hasSection key then
    let cfg := createProxy config
    let string := fun field current => (config.getString key field).or current
    let bool := fun field current => asBool (config.getInt key field (ofBool current))
    let byte := fun field (current : UInt8) => asByte (config.getInt key field current.toNat)
    let cfg :=
      { cfg with
        regIdentity := setIdentity lib cfg.regIdentity (string "reg_identity" cfg.regIdentity)
        regProxy := setServerAddr lib (string "reg_proxy" cfg.regProxy)
        regRoute := setRoute lib (string "reg_route" cfg.regRoute)
        realm := string "realm" cfg.realm
        qualityReportingEnabled := bool "quality_reporting_enabled" cfg.qualityReportingEnabled
        qualityReportingCollector := setCollector lib cfg.qualityReportingCollector
          (string "quality_reporting_collector" cfg.qualityReportingCollector)
        qualityReportingInterval := byte "quality_reporting_interval" cfg.qualityReportingInterval
        contactParams := string "contact_parameters" cfg.contactParams
        contactUriParams := string "contact_uri_parameters" cfg.contactUriParams
        expires := setExpires (config.getInt key "reg_expires" cfg.expires)
        regSendregister := bool "reg_sendregister" cfg.regSendregister
        publish := bool "publish" cfg.publish
        avpfMode := config.getInt key "avpf" cfg.avpfMode
        avpfRrInterval := setAvpfRrInterval (byte "avpf_rr_interval" cfg.avpfRrInterval)
        dialEscapePlus := bool "dial_escape_plus" cfg.dialEscapePlus
        dialPrefix := string "dial_prefix" cfg.dialPrefix }
    let cfg := setSipSetup lib cfg (config.getString key "type")
    some { cfg with privacy := config.getInt key "privacy" cfg.privacy }
  else none

theorem lookup_writeProxy (config : LpConfig) (obj : ProxyEntry) (i : Nat) (sec : String)
    (h : sec ≠ numbered "proxy_" i) : (writeProxy config obj i).lookup sec = config.lookup sec := by
  have hclean : (config.cleanSection (numbered "proxy_" i)).lookup sec = config.lookup sec :=
    AList.lookup_erase_ne h
  unfold writeProxy LpConfig.setInt
  simp only [LpConfig.lookup_writeField_ne h, LpConfig.lookup_setString_ne _ h, hclean]

/-- The list of proxies; the section behind the last one marks the end. -/
def proxyList : NumberedList ProxyEntry where
  name := "proxy_"
  write := writeProxy
  cleaned n := [n]
  read := readProxy lib
  stops config i := (readProxy lib config i).isNone
  lookup_write := lookup_writeProxy
  le_cleaned := le_of_mem_cleaned
  stops_of_missing config i h := by
    rw [readProxy, LpConfig.hasSection, decide_eq_false h]
    rfl
  read_of_stops config i h := Option.isNone_iff_eq_none.mp h

theorem proxyList_name : (proxyList lib).name = "proxy_" := rfl

theorem proxyList_write : (proxyList lib).write = writeProxy := by
  simp only [proxyList]

/-! ## What is kept -/

/-- A proxy is kept with these default values: its texts are not empty, those that a setter checks
pass it, and a text it does not have has no default that passes; with a type it has a server. -/
structure ProxyEntry.Kept (obj defaults : ProxyEntry) : Prop where
  type : obj.type ≠ some ""
  regProxy : setServerAddr lib obj.regProxy = obj.regProxy ∧
    (obj.regProxy = none → obj.type = none ∧ setServerAddr lib defaults.regProxy = none)
  regRoute : setRoute lib obj.regRoute = obj.regRoute ∧
    (obj.regRoute = none → setRoute lib defaults.regRoute = none)
  regIdentity : obj.regIdentity ≠ some "" ∧
    (obj.regIdentity = none → defaults.regIdentity = none) ∧
    ∀ s, obj.regIdentity = some s → isIdentity lib s = true ∨ defaults.regIdentity = some s
  realm : obj.realm ≠ some "" ∧ (obj.realm = none → defaults.realm = none)
  contactParams : obj.contactParams ≠ some "" ∧
    (obj.contactParams = none → defaults.contactParams = none)
  contactUriParams : obj.contactUriParams ≠ some "" ∧
    (obj.contactUriParams = none → defaults.contactUriParams = none)
  qualityReportingCollector : obj.qualityReportingCollector ≠ some "" ∧
    (obj.qualityReportingCollector = none → defaults.qualityReportingCollector = none) ∧
    ∀ s, obj.qualityReportingCollector = some s →
      (lib.addressParse s).isSome = true ∨ defaults.qualityReportingCollector = some s
  dialPrefix : obj.dialPrefix ≠ some "" ∧ (obj.dialPrefix = none → defaults.dialPrefix = none)
  expires : 0 ≤ obj.expires
  avpfRrInterval : obj.avpfRrInterval ≤ 5

theorem setMade_eq_iff {make : String → Option String} (hmake : ∀ s, make s ≠ some "")
    {value other : Option String} :
    setMade make ((heldText value).or other) = value ↔
      setMade make value = value ∧ (value = none → setMade make other = none) := by
  have hne : ∀ x, setMade make x ≠ some "" := by
    intro x
    cases x with
    | none => simp [setMade]
    | some s =>
      rw [setMade]
      split
      · simp
      · exact hmake s
  cases value with
  | none => simp [heldText, setMade]
  | some s =>
    by_cases h : s = ""
    · subst h
      have hempty : setMade make (some "") = none := by rw [setMade, if_pos rfl]
      simp [hne, hempty]
    · simp [heldText_some h]

theorem setChecked_eq_iff {right : String → Bool} {value other : Option String}
    (hother : other ≠ some "") :
    setChecked right other ((heldText value).or other) = value ↔
      value ≠ some "" ∧ (value = none → other = none) ∧
        ∀ s, value = some s → right s = true ∨ other = some s := by
  have hself : setChecked right other other = other := by
    cases other with
    | none => rfl
    | some s =>
      rw [setChecked]
      split
      · rfl
      · rfl
  cases value with
  | none => simp [heldText, hself]
  | some s =>
    by_cases h : s = ""
    · subst h
      simp [hself, hother]
    · rw [heldText_some h, Option.some_or]
      by_cases hright : right s = true
      · simp [setChecked, h, hright]
      · simp [setChecked, h, hright]

/-! ## What is read of a proxy that was written -/

/-- What is in the section of a proxy. -/
structure ProxyEntry.Written (obj : ProxyEntry) (get : String → Option String) : Prop where
  type : get "type" = heldText obj.type
  regProxy : get "reg_proxy" = heldText obj.regProxy
  regRoute : get "reg_route" = heldText obj.regRoute
  regIdentity : get "reg_identity" = heldText obj.regIdentity
  realm : get "realm" = heldText obj.realm
  contactParams : get "contact_parameters" = heldText obj.contactParams
  contactUriParams : get "contact_uri_parameters" = heldText obj.contactUriParams
  qualityReportingCollector :
    get "quality_reporting_collector" = heldText obj.qualityReportingCollector
  qualityReportingEnabled : get "quality_reporting_enabled" =
    some (String.ofList (Scan.decimal (ofBool obj.qualityReportingEnabled)))
  qualityReportingInterval : get "quality_reporting_interval" =
    some (String.ofList (Scan.decimal obj.qualityReportingInterval.toNat))
  expires : get "reg_expires" = some (String.ofList (Scan.decimal obj.expires))
  regSendregister : get "reg_sendregister" =
    some (String.ofList (Scan.decimal (ofBool obj.regSendregister)))
  publish : get "publish" = some (String.ofList (Scan.decimal (ofBool obj.publish)))
  avpfMode : get "avpf" = some (String.ofList (Scan.decimal obj.avpfMode))
  avpfRrInterval : get "avpf_rr_interval" =
    some (String.ofList (Scan.decimal obj.avpfRrInterval.toNat))
  dialEscapePlus : get "dial_escape_plus" =
    some (String.ofList (Scan.decimal (ofBool obj.dialEscapePlus)))
  dialPrefix : get "dial_prefix" = heldText obj.dialPrefix
  privacy : get "privacy" = some (String.ofList (Scan.decimal obj.privacy))

theorem writeProxy_written (config : LpConfig) (obj : ProxyEntry) (i : Nat) :
    obj.Written ((writeProxy config obj i).getString (numbered "proxy_" i)) := by
  constructor <;> simp [writeProxy, ite_heldText, LpConfig.getString_field,
    LpConfig.getString_setInt, LpConfig.getString_set, LpConfig.getString_cleanSection]

/-- The proxy that is read, with these default values. -/
def ProxyEntry.readBack (obj defaults : ProxyEntry) : ProxyEntry :=
  setSipSetup lib
    { obj with
      type := none
      regProxy := setServerAddr lib ((heldText obj.regProxy).or defaults.regProxy)
      regRoute := setRoute lib ((heldText obj.regRoute).or defaults.regRoute)
      regIdentity := setIdentity lib defaults.regIdentity
        ((heldText obj.regIdentity).or defaults.regIdentity)
      realm := (heldText obj.realm).or defaults.realm
      contactParams := (heldText obj.contactParams).or defaults.contactParams
      contactUriParams := (heldText obj.contactUriParams).or defaults.contactUriParams
      qualityReportingCollector := setCollector lib defaults.qualityReportingCollector
        ((heldText obj.qualityReportingCollector).or defaults.qualityReportingCollector)
      dialPrefix := (heldText obj.dialPrefix).or defaults.dialPrefix
      expires := setExpires obj.expires
      avpfRrInterval := setAvpfRrInterval obj.avpfRrInterval }
    (heldText obj.type)

theorem readProxy_written {config : LpConfig} {obj : ProxyEntry} {i : Nat}
    (h : obj.Written (config.getString (numbered "proxy_" i))) :
    readProxy lib config i = some (obj.readBack lib (createProxy config)) := by
  have hint {key : String} {n : Int}
      (hkey : config.getString (numbered "proxy_" i) key = some (String.ofList (Scan.decimal n))) :
      ∀ d, config.getInt (numbered "proxy_" i) key d = n := LpConfig.getInt_of_getString hkey
  simp only [readProxy, ProxyEntry.readBack, LpConfig.hasSection_of_getString h.privacy, if_true,
    hint h.qualityReportingEnabled, hint h.qualityReportingInterval, hint h.expires,
    hint h.regSendregister, hint h.publish, hint h.avpfMode, hint h.avpfRrInterval,
    hint h.dialEscapePlus, hint h.privacy, h.type, h.regProxy, h.regRoute, h.regIdentity, h.realm,
    h.contactParams, h.contactUriParams, h.qualityReportingCollector, h.dialPrefix,
    asBool_ofBool, asByte_toNat]
  cases heldText obj.type with
  | none => rfl
  | some type => rfl

theorem setExpires_eq_iff {val : Int} : setExpires val = val ↔ 0 ≤ val := by
  rw [setExpires]
  split
  · omega
  · omega

theorem setAvpfRrInterval_eq_iff {interval : UInt8} :
    setAvpfRrInterval interval = interval ↔ interval ≤ 5 := by
  rw [setAvpfRrInterval]
  by_cases h : 5 < interval
  · rw [if_pos h]
    exact iff_of_false (fun heq => absurd (heq ▸ h) (UInt8.lt_irrefl _)) (UInt8.not_le.mpr h)
  · rw [if_neg h]
    exact iff_of_true rfl (UInt8.not_lt.mp h)

theorem setServerAddr_eq_iff {value other : Option String} :
    setServerAddr lib ((heldText value).or other) = value ↔
      setServerAddr lib value = value ∧ (value = none → setServerAddr lib other = none) := by
  refine setMade_eq_iff fun s => ?_
  rw [ne_eq, Option.map_eq_some_iff]
  rintro ⟨addr, -, haddr⟩
  exact lib.asString_ne addr haddr

theorem setRoute_eq_iff {value other : Option String} :
    setRoute lib ((heldText value).or other) = value ↔
      setRoute lib value = value ∧ (value = none → setRoute lib other = none) := by
  refine setMade_eq_iff fun s hs => ?_
  by_cases hscheme : hasScheme s = true
  · simp only [hscheme, if_true, Option.ite_none_right_eq_some, Option.some.injEq] at hs
    rw [hs.2] at hscheme
    exact absurd hscheme (by decide)
  · simp only [hscheme, Bool.false_eq_true, if_false, Option.ite_none_right_eq_some,
      Option.some.injEq] at hs
    have hlist := congrArg String.toList hs.2
    rw [String.toList_append] at hlist
    exact absurd (List.append_eq_nil_iff.mp hlist).1 (by decide)

theorem setServerAddr_placeholder : setServerAddr lib (some "sip:undefined") =
    some (lib.asString lib.placeholder) := by
  have hscheme : hasScheme "sip:undefined" = true := by decide
  rw [setServerAddr, setMade, if_neg (by decide)]
  simp only [hscheme, if_true, Option.none_or, lib.parse_placeholder, Option.map_some]

theorem setServerAddr_asString_placeholder :
    setServerAddr lib (some (lib.asString lib.placeholder)) =
      some (lib.asString lib.placeholder) := by
  rw [setServerAddr, setMade, if_neg (lib.asString_ne lib.placeholder)]
  simp only [lib.hasScheme_asString, if_true, Option.none_or, lib.parse_asString, Option.map_some]

/-- The server that is read of a proxy with a type. -/
theorem placeholder_or_eq_iff {value other : Option String} :
    (if setServerAddr lib ((heldText value).or other) = none then
        setServerAddr lib (some "sip:undefined")
      else setServerAddr lib ((heldText value).or other)) = value ↔
      setServerAddr lib value = value ∧ value ≠ none := by
  by_cases hnone : setServerAddr lib ((heldText value).or other) = none
  · rw [if_pos hnone, setServerAddr_placeholder]
    constructor
    · rintro rfl
      rw [heldText_some (lib.asString_ne lib.placeholder), Option.some_or,
        setServerAddr_asString_placeholder] at hnone
      exact absurd hnone (by simp)
    · rintro ⟨hvalue, hsome⟩
      have heq : setServerAddr lib ((heldText value).or other) = value :=
        (setServerAddr_eq_iff lib).mpr ⟨hvalue, fun h => absurd h hsome⟩
      exact absurd (heq.symm.trans hnone) hsome
  · rw [if_neg hnone, setServerAddr_eq_iff]
    refine and_congr_right fun hvalue => ?_
    constructor
    · rintro hother rfl
      exact hnone (hother rfl)
    · exact fun hsome h => absurd h hsome

/-- **A proxy is read back exactly if it is kept.** -/
theorem readBack_eq_iff (config : LpConfig) (obj : ProxyEntry) :
    obj.readBack lib (createProxy config) = obj ↔ obj.Kept lib (createProxy config) := by
  have hne : ∀ key, config.getString proxyDefaults key ≠ some "" :=
    fun key => LpConfig.getString_ne_empty key
  obtain ⟨type, regProxy, regRoute, regIdentity, realm, contactParams, contactUriParams,
    collector, enabled, interval, expires, sendregister, publish, avpfMode, rrInterval, escapePlus,
    dialPrefix, privacy⟩ := obj
  have hidentity : setIdentity lib (createProxy config).regIdentity
      ((heldText regIdentity).or (createProxy config).regIdentity) = regIdentity ↔ _ :=
    setChecked_eq_iff (hne "reg_identity")
  have hcollector : setCollector lib (createProxy config).qualityReportingCollector
      ((heldText collector).or (createProxy config).qualityReportingCollector) = collector ↔ _ :=
    setChecked_eq_iff (hne "quality_reporting_collector")
  have htext : ∀ (value : Option String) (key : String),
      (heldText value).or (config.getString proxyDefaults key) = value ↔ value ≠ some "" ∧
        (value = none → config.getString proxyDefaults key = none) :=
    fun value key => heldText_or_eq_iff (hne key)
  simp only [createProxy] at hidentity hcollector
  cases type with
  | none =>
    show setSipSetup lib _ none = _ ↔ _
    rw [setSipSetup, ProxyEntry.mk.injEq]
    simp only [setServerAddr_eq_iff, setRoute_eq_iff, createProxy, hidentity, hcollector, htext,
      setExpires_eq_iff, setAvpfRrInterval_eq_iff, true_and, and_true]
    constructor
    · rintro ⟨hserver, hroute, hid, hrealm, hparams, huri, hcoll, hexpires, hinterval, hdial⟩
      exact ⟨by simp, ⟨hserver.1, fun h => ⟨rfl, hserver.2 h⟩⟩, hroute, hid, hrealm, hparams, huri,
        hcoll, hdial, hexpires, hinterval⟩
    · intro h
      exact ⟨⟨h.regProxy.1, fun hnone => (h.regProxy.2 hnone).2⟩, h.regRoute, h.regIdentity,
        h.realm, h.contactParams, h.contactUriParams, h.qualityReportingCollector, h.expires,
        h.avpfRrInterval, h.dialPrefix⟩
  | some t =>
    by_cases hempty : t = ""
    · subst hempty
      refine iff_of_false (fun h => ?_) fun h => h.type rfl
      exact absurd (congrArg ProxyEntry.type h) (by simp [ProxyEntry.readBack, setSipSetup])
    · show setSipSetup lib _ (heldText (some t)) = _ ↔ _
      rw [heldText_some hempty, setSipSetup, ProxyEntry.mk.injEq]
      simp only [setRoute_eq_iff, createProxy, hidentity, hcollector, htext, setExpires_eq_iff,
        setAvpfRrInterval_eq_iff, true_and, and_true]
      constructor
      · rintro ⟨hserver, hroute, hid, hrealm, hparams, huri, hcoll, hexpires, hinterval, hdial⟩
        have hserver := (placeholder_or_eq_iff lib).mp hserver
        exact ⟨by simpa using hempty, ⟨hserver.1, fun h => absurd h hserver.2⟩, hroute, hid, hrealm,
          hparams, huri, hcoll, hdial, hexpires, hinterval⟩
      · intro h
        have hserver : regProxy ≠ none := fun hnone => absurd (h.regProxy.2 hnone).1 (by simp)
        exact ⟨(placeholder_or_eq_iff lib).mpr ⟨h.regProxy.1, hserver⟩, h.regRoute, h.regIdentity,
          h.realm, h.contactParams, h.contactUriParams, h.qualityReportingCollector, h.expires,
          h.avpfRrInterval, h.dialPrefix⟩

theorem proxyDefaults_ne (i : Nat) : proxyDefaults ≠ numbered "proxy_" i := by
  intro h
  have hlist := congrArg String.toList h
  have hdefaults : proxyDefaults.toList = "proxy_".toList ++ "default_values".toList := by decide
  rw [hdefaults, toList_numbered, List.append_cancel_left_eq] at hlist
  have hmem : 'd' ∈ Scan.decimal (i : Int) := hlist ▸ (by decide)
  rcases Scan.mem_decimal hmem with hdigit | hminus
  · exact absurd hdigit (by decide)
  · exact absurd hminus (by decide)

theorem createProxy_congr {config config' : LpConfig}
    (h : ∀ key, config'.getString proxyDefaults key = config.getString proxyDefaults key) :
    createProxy config' = createProxy config := by
  have hint := fun key d => LpConfig.getInt_congr (h key) d
  simp only [createProxy, h, hint]

/-- **Proxies are read back exactly if they are kept** with the default values. -/
theorem proxies_keep : (proxyList lib).Keeps (fun sec _ => sec = proxyDefaults)
    fun config obj _ => obj.Kept lib (createProxy config) where
  settings_ne := by
    rintro sec key rfl i
    exact proxyDefaults_ne i
  read_iff config config' obj i h hsettings := by
    rw [proxyList_name, proxyList_write] at h
    have hread : config'.getString (numbered "proxy_" i) =
        (writeProxy config obj i).getString (numbered "proxy_" i) :=
      funext fun key => LpConfig.getString_of_lookup_eq h key
    have hw : obj.Written (config'.getString (numbered "proxy_" i)) := by
      rw [hread]
      exact writeProxy_written config obj i
    have hdefaults : createProxy config' = createProxy config :=
      createProxy_congr fun key => hsettings proxyDefaults key rfl
    show readProxy lib config' i = some obj ↔ _
    rw [readProxy_written lib hw, Option.some.injEq, hdefaults]
    exact readBack_eq_iff lib config obj
  congr config config' obj i _ hsettings := by
    have hdefaults : createProxy config' = createProxy config :=
      createProxy_congr fun key => hsettings proxyDefaults key rfl
    show obj.Kept lib (createProxy config') ↔ _
    rw [hdefaults]

end proxies

end Linphone
