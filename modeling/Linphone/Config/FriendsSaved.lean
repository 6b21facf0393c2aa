import Linphone.Config.Accessors
import Linphone.Config.NumberedLists
import Linphone.Core.AuthSaved
import Linphone.Event.Requests

/-!
# Friends and call logs in the configuration

`linphone_core_write_friends_config` and `linphone_friend_new_from_config_file`
(`coreapi/friend.c`), `call_logs_write_to_config_file` and `call_logs_read_from_config_file`
(`coreapi/call_log.c`). The section of a friend is written over what it holds; that of a call log is
cleaned first.

`friends_keep` and `callLogs_keep` say when an entry is read back as it was.
-/

namespace Linphone

/-- belle-sip, with the text of an address and its display name. -/
structure AddressText extends BelleSip where
  marshalAddress : LinphoneAddress → String
  marshalAddress_ne : ∀ addr, marshalAddress addr ≠ ""

/-- `linphone_address_as_string`: the text is written into 1024 bytes. -/
def AddressText.asString (lib : AddressText) (addr : LinphoneAddress) : String :=
  String.ofList ((lib.marshalAddress addr).toList.take 1023)

theorem AddressText.asString_ne (lib : AddressText) (addr : LinphoneAddress) :
    lib.asString addr ≠ "" := by
  intro h
  have hlist := congrArg String.toList h
  rw [asString, String.toList_ofList] at hlist
  rcases List.take_eq_nil_iff.mp hlist with hzero | hnil
  · exact absurd hzero (by decide)
  · exact lib.marshalAddress_ne addr (String.toList_inj.mp hnil)

/-- A number as a `bool_t`. -/
def asBool (n : Int) : Bool := n % 256 ≠ 0

/-- A `bool_t` as a number. -/
def ofBool (b : Bool) : Int := if b then 1 else 0

@[simp] theorem asBool_ofBool (b : Bool) : asBool (ofBool b) = b := by cases b <;> rfl

/-- What is held of a value: the empty text stands for none. -/
def heldText (value : Option String) : Option String := value.filter (· ≠ "")

@[simp] theorem heldText_none : heldText none = none := rfl

@[simp] theorem heldText_empty : heldText (some "") = none := rfl

theorem heldText_some {s : String} (h : s ≠ "") : heldText (some s) = some s := by
  rw [heldText, Option.filter_some, if_pos (by simpa using h)]

theorem heldText_eq_self {value : Option String} : heldText value = value ↔ value ≠ some "" := by
  cases value with
  | none => exact iff_of_true rfl (by simp)
  | some s =>
    by_cases h : s = ""
    · subst h
      exact iff_of_false (by simp) (by simp)
    · exact iff_of_true (heldText_some h) (by simpa using h)

@[simp] theorem heldText_heldText (value : Option String) :
    heldText (heldText value) = heldText value := by
  rw [heldText, heldText, Option.filter_filter]
  simp only [Bool.and_self]

theorem ite_heldText (value : Option String) :
    (if value = none then none else heldText value) = heldText value := by
  cases value with
  | none => rfl
  | some value => rfl

theorem heldOr_eq_iff {value other : Option String} :
    (if value ≠ none then heldText value else other) = value ↔
      value ≠ some "" ∧ (value = none → other = none) := by
  cases value with
  | none => simp
  | some s => simp [heldText_eq_self]

theorem heldText_or_eq_iff {value other : Option String} (hother : other ≠ some "") :
    (heldText value).or other = value ↔ value ≠ some "" ∧ (value = none → other = none) := by
  cases value with
  | none => simp [heldText]
  | some s =>
    by_cases h : s = ""
    · subst h
      simpa using hother
    · simp [heldText_some h, h]

namespace LpConfig

variable {config : LpConfig} {sec : String}

theorem getString_ne_empty (key : String) : config.getString sec key ≠ some "" := by
  unfold getString
  cases config.lookup sec with
  | none => simp
  | some s =>
    intro h
    obtain ⟨value, -, hvalue⟩ := Option.map_eq_some_iff.mp h
    exact value.2 hvalue

theorem getString_of_not_mem (h : sec ∉ config) (key : String) :
    config.getString sec key = none := by
  rw [getString, AList.lookup_eq_none.mpr h]

theorem hasSection_of_getString {key value : String}
    (h : config.getString sec key = some value) : config.hasSection sec = true := by
  refine decide_eq_true (by_contra fun hsec => ?_)
  rw [getString_of_not_mem hsec] at h
  exact absurd h (by simp)

theorem map_ofOption (value : Option String) :
    (LpValue.ofOption value).map Subtype.val = heldText value := by
  cases value with
  | none => rfl
  | some value =>
    rw [map_ofOption_some, heldText]
    by_cases h : value = ""
    · rw [if_neg (not_not.mpr h), h]
      rfl
    · rw [if_pos h, Option.filter_some, if_pos (by simpa using h)]

theorem getString_set (field sec' key : String) (value : Option String) :
    (config.setString sec field value).getString sec' key =
      if sec' = sec ∧ key = field then heldText value else config.getString sec' key := by
  rw [getString_setString, map_ofOption]

theorem getString_field (field sec' key : String) (value : Option String) :
    (writeField sec field value config).getString sec' key =
      if sec' = sec ∧ key = field ∧ value ≠ none then heldText value
      else config.getString sec' key := by
  cases value with
  | none => simp [writeField]
  | some value => simp [writeField, getString_set]

theorem getInt_of_getString {key : String} {n : Int}
    (h : config.getString sec key = some (String.ofList (Scan.decimal n))) (defaultValue : Int) :
    config.getInt sec key defaultValue = n := by
  have hset := getInt_setInt config sec key n sec key defaultValue
  have htext := getString_setInt config sec key n sec key
  rw [if_pos ⟨rfl, rfl⟩] at hset htext
  rw [← hset]
  exact getInt_congr (h.trans htext.symm) defaultValue

theorem lookup_writeField_ne {sec' : String} (h : sec' ≠ sec) (field : String)
    (value : Option String) : (writeField sec field value config).lookup sec' =
      config.lookup sec' := by
  cases value with
  | none => rfl
  | some value => exact lookup_setString_ne config h field (some value)

end LpConfig

/-! ## Friends -/

/-- What the configuration holds of a friend in the list; such a friend has an address. -/
structure FriendEntry where
  uri : LinphoneAddress
  pol : LinphoneSubscribePolicy
  subscribe : Bool
  refkey : Option String
deriving DecidableEq

/-- `__policy_str_to_enum` -/
def policyStrToEnum (pol : String) : LinphoneSubscribePolicy :=
  if pol = "accept" then .accept else if pol = "deny" then .deny else .wait

/-- `__policy_enum_to_str` -/
def policyEnumToStr : LinphoneSubscribePolicy → String
  | .accept => "accept"
  | .deny => "deny"
  | .wait => "wait"

section friends

variable (lib : AddressText)

/-- `linphone_friend_write_to_config_file`. The section is not cleaned. -/
def writeFriend (config : LpConfig) (lf : FriendEntry) (index : Nat) : LpConfig :=
  let key := numbered "friend_" index
  let config := config.setString key "url" (some (lib.asString lf.uri))
  let config := config.setString key "pol" (some (policyEnumToStr lf.pol))
  let config := config.setInt key "subscribe" (ofBool lf.subscribe)
  writeField key "refkey" lf.refkey config

/-- `linphone_friend_new_from_config_file` -/
def readFriend (config : LpConfig) (index : Nat) : Option FriendEntry :=
  let item := numbered "friend_" index
  if config.hasSection item then
    ((config.getString item "url").bind lib.addressParse).map fun addr =>
      { uri := addr.clean
        pol := (config.getString item "pol").elim .wait policyStrToEnum
        subscribe := asBool (config.getInt item "subscribe" 0)
        refkey := config.getString item "refkey" }
  else none

theorem lookup_writeFriend (config : LpConfig) (lf : FriendEntry) (i : Nat) (sec : String)
    (h : sec ≠ numbered "friend_" i) : (writeFriend lib config lf i).lookup sec =
      config.lookup sec := by
  unfold writeFriend LpConfig.setInt
  simp only [LpConfig.lookup_writeField_ne h, LpConfig.lookup_setString_ne _ h]

/-- The list of friends; the section behind the last one marks the end. -/
def friendList : NumberedList FriendEntry where
  name := "friend_"
  write := writeFriend lib
  cleaned n := [n]
  read := readFriend lib
  stops config i := (readFriend lib config i).isNone
  lookup_write := lookup_writeFriend lib
  le_cleaned := le_of_mem_cleaned
  stops_of_missing config i h := by
    rw [readFriend, LpConfig.hasSection, decide_eq_false h]
    rfl
  read_of_stops config i h := Option.isNone_iff_eq_none.mp h

/-- The address is read from its text, and the reference key is not empty; without one, none is
left in the section. -/
structure FriendEntry.Kept (config : LpConfig) (lf : FriendEntry) (i : Nat) : Prop where
  url : (lib.addressParse (lib.asString lf.uri)).map LinphoneAddress.clean = some lf.uri
  refkey : lf.refkey ≠ some "" ∧
    (lf.refkey = none → config.getString (numbered "friend_" i) "refkey" = none)

theorem policyStrToEnum_policyEnumToStr (pol : LinphoneSubscribePolicy) :
    policyStrToEnum (policyEnumToStr pol) = pol := by
  cases pol <;> rfl

/-- What is read of a friend that was written. -/
theorem readFriend_written {config config' : LpConfig} {lf : FriendEntry} {i : Nat}
    (h : config'.lookup (numbered "friend_" i) =
      (writeFriend lib config lf i).lookup (numbered "friend_" i)) :
    readFriend lib config' i =
      (lib.addressParse (lib.asString lf.uri)).map fun addr =>
        { uri := addr.clean, pol := lf.pol, subscribe := lf.subscribe
          refkey := if lf.refkey ≠ none then heldText lf.refkey
            else config.getString (numbered "friend_" i) "refkey" } := by
  have hread : ∀ key, config'.getString (numbered "friend_" i) key =
      (writeFriend lib config lf i).getString (numbered "friend_" i) key :=
    LpConfig.getString_of_lookup_eq h
  have hpol : config'.getString (numbered "friend_" i) "pol" =
      some (policyEnumToStr lf.pol) := by
    have hne : policyEnumToStr lf.pol ≠ "" := by cases lf.pol <;> decide
    rw [hread]
    simp [writeFriend, LpConfig.getString_field, LpConfig.getString_setInt,
      LpConfig.getString_set, heldText_some hne]
  have hsubscribe : config'.getInt (numbered "friend_" i) "subscribe" 0 =
      ofBool lf.subscribe := by
    refine LpConfig.getInt_of_getString ?_ 0
    rw [hread]
    simp [writeFriend, LpConfig.getString_field, LpConfig.getString_setInt]
  have hrefkey : config'.getString (numbered "friend_" i) "refkey" =
      if lf.refkey ≠ none then heldText lf.refkey
      else config.getString (numbered "friend_" i) "refkey" := by
    rw [hread]
    simp [writeFriend, LpConfig.getString_field, LpConfig.getString_setInt,
      LpConfig.getString_set]
  have hurl : config'.getString (numbered "friend_" i) "url" =
      some (lib.asString lf.uri) := by
    rw [hread]
    simp [writeFriend, LpConfig.getString_field, LpConfig.getString_setInt,
      LpConfig.getString_set, heldText_some (lib.asString_ne lf.uri)]
  simp only [readFriend, LpConfig.hasSection_of_getString hpol, if_true, hurl, hpol, hsubscribe,
    hrefkey, asBool_ofBool, Option.elim_some, Option.bind_some, policyStrToEnum_policyEnumToStr]

/-- **A friend is read back exactly if it is kept.** -/
theorem friends_keep :
    (friendList lib).Keeps (fun _ _ => False) fun config lf i => lf.Kept lib config i where
  settings_ne _ _ h := h.elim
  read_iff config config' lf i h _ := by
    rw [show (friendList lib).read config' i = _ from readFriend_written lib h]
    obtain ⟨uri, pol, subscribe, refkey⟩ := lf
    rw [Option.map_eq_some_iff]
    simp only [FriendEntry.mk.injEq, heldOr_eq_iff, true_and]
    constructor
    · rintro ⟨addr, hparse, hclean, hrefkey⟩
      exact ⟨by rw [hparse, Option.map_some, hclean], hrefkey⟩
    · rintro ⟨hparse, hrefkey⟩
      obtain ⟨addr, hparse, hclean⟩ := Option.map_eq_some_iff.mp hparse
      exact ⟨addr, hparse, hclean, hrefkey⟩
  congr config config' lf i h _ := by
    have hread : config'.getString (numbered "friend_" i) "refkey" =
        config.getString (numbered "friend_" i) "refkey" := LpConfig.getString_of_lookup_eq h _
    constructor
    · exact fun hkept => ⟨hkept.url, hkept.refkey.1, fun hnone => hread ▸ hkept.refkey.2 hnone⟩
    · exact fun hkept => ⟨hkept.url, hkept.refkey.1, fun hnone => hread ▸ hkept.refkey.2 hnone⟩

end friends

/-! ## Call logs -/

/-- A call log. An enumerator is its number; `quality` is a `float`. -/
structure CallLogEntry (F : Type) where
  dir : Int
  status : Int
  fromAddress : LinphoneAddress
  toAddress : LinphoneAddress
  startDateTime : Int
  startDate : String
  duration : Int
  refkey : Option String
  quality : F
  videoEnabled : Bool
  callId : Option String

/-- What call logs take from the C library: `%f`, the date of a time in the local format and the
time of a date, and the time of the reading. -/
structure CallLogText (F : Type) extends AddressText where
  printFloat : F → String
  printFloat_ne : ∀ x, printFloat x ≠ ""
  scanFloat : String → Option F
  /-- -1 -/
  noQuality : F
  dateOf : Int → String
  stringToTime : String → Int
  now : Int
  now_ne : now ≠ 0

namespace LpConfig

variable {config : LpConfig}

theorem getString_setInt64 (sec key : String) (value : Int) (sec' key' : String) :
    (config.setInt64 sec key value).getString sec' key' =
      if sec' = sec ∧ key' = key then some (String.ofList (Scan.decimal value))
      else config.getString sec' key' :=
  getString_setInt config sec key value sec' key'

theorem getInt64_of_getString {sec key : String} {n : Int}
    (h : config.getString sec key = some (String.ofList (Scan.decimal n))) (defaultValue : Int) :
    config.getInt64 sec key defaultValue = n := by
  have hread := atoi_decimal n Scan.ends_nil
  rw [List.append_nil] at hread
  rw [getInt64, h]
  dsimp only
  rw [String.toList_ofList, hread]

end LpConfig

section callLogs

variable {F : Type} (lib : CallLogText F)

/-- An entry of `call_logs_write_to_config_file` -/
def writeCallLog (config : LpConfig) (cl : CallLogEntry F) (i : Nat) : LpConfig :=
  let logsection := numbered "call_log_" i
  let cfg := config.cleanSection logsection
  let cfg := cfg.setInt logsection "dir" cl.dir
  let cfg := cfg.setInt logsection "status" cl.status
  let cfg := cfg.setString logsection "from" (some (lib.asString cl.fromAddress))
  let cfg := cfg.setString logsection "to" (some (lib.asString cl.toAddress))
  let cfg :=
    if cl.startDateTime ≠ 0 then cfg.setInt64 logsection "start_date_time" cl.startDateTime
    else cfg.setString logsection "start_date" (some cl.startDate)
  let cfg := cfg.setInt logsection "duration" cl.duration
  let cfg := writeField logsection "refkey" cl.refkey cfg
  let cfg := cfg.setString logsection "quality" (some (lib.printFloat cl.quality))
  let cfg := cfg.setInt logsection "video_enabled" (ofBool cl.videoEnabled)
  cfg.setString logsection "call_id" cl.callId

/-- The time and the date of an entry that is read. -/
def readDate (config : LpConfig) (logsection : String) : Int × String :=
  let sec := config.getInt64 logsection "start_date_time" 0
  if sec ≠ 0 then (sec, lib.dateOf sec)
  else
    match config.getString logsection "start_date" with
    | some tmp => (lib.stringToTime tmp, tmp)
    | none => (lib.now, lib.dateOf lib.now)

/-- An entry of `call_logs_read_from_config_file`, which is passed over without its addresses. -/
def readCallLog (config : LpConfig) (i : Nat) : Option (CallLogEntry F) := do
  let logsection := numbered "call_log_" i
  let fromAddress ← (config.getString logsection "from").bind lib.addressParse
  let toAddress ← (config.getString logsection "to").bind lib.addressParse
  let date := readDate lib config logsection
  some
    { dir := config.getInt logsection "dir" 0
      status := config.getInt logsection "status" 0
      fromAddress := fromAddress
      toAddress := toAddress
      startDateTime := date.1
      startDate := date.2
      duration := config.getInt logsection "duration" 0
      refkey := config.getString logsection "refkey"
      quality := ((config.getString logsection "quality").bind lib.scanFloat).getD lib.noQuality
      videoEnabled := asBool (config.getInt logsection "video_enabled" 0)
      callId := config.getString logsection "call_id" }

theorem lookup_writeCallLog (config : LpConfig) (cl : CallLogEntry F) (i : Nat) (sec : String)
    (h : sec ≠ numbered "call_log_" i) : (writeCallLog lib config cl i).lookup sec =
      config.lookup sec := by
  have hclean : (config.cleanSection (numbered "call_log_" i)).lookup sec = config.lookup sec :=
    AList.lookup_erase_ne h
  unfold writeCallLog LpConfig.setInt64 LpConfig.setInt
  by_cases hdate : cl.startDateTime ≠ 0
  · simp only [hdate, if_true, LpConfig.lookup_writeField_ne h, LpConfig.lookup_setString_ne _ h,
      hclean, ne_eq, not_false_eq_true]
  · simp only [hdate, if_false, LpConfig.lookup_writeField_ne h, LpConfig.lookup_setString_ne _ h,
      hclean]

/-- The list of call logs; the sections behind it are cleaned up to the number of logs that are
kept. -/
def callLogList (maxCallLogs : Int) : NumberedList (CallLogEntry F) where
  name := "call_log_"
  write := writeCallLog lib
  cleaned n := List.range' n (maxCallLogs.toNat - n)
  read := readCallLog lib
  stops config i := !config.hasSection (numbered "call_log_" i)
  lookup_write := lookup_writeCallLog lib
  le_cleaned n m hm := (List.mem_range'_1.mp hm).1
  stops_of_missing config i h := by
    rw [LpConfig.hasSection, decide_eq_false h]
    rfl
  read_of_stops config i h := by
    have hmem : numbered "call_log_" i ∉ config := by simpa [LpConfig.hasSection] using h
    rw [readCallLog, LpConfig.getString_of_not_mem hmem]
    rfl

/-- The addresses are read from their texts, the date is the one of the time or stands alone, the
quality is read from its digits, and no text is empty. -/
structure CallLogEntry.Kept (cl : CallLogEntry F) : Prop where
  fromAddress : lib.addressParse (lib.asString cl.fromAddress) = some cl.fromAddress
  toAddress : lib.addressParse (lib.asString cl.toAddress) = some cl.toAddress
  date : if cl.startDateTime ≠ 0 then lib.dateOf cl.startDateTime = cl.startDate
    else cl.startDate ≠ "" ∧ lib.stringToTime cl.startDate = 0
  quality : (lib.scanFloat (lib.printFloat cl.quality)).getD lib.noQuality = cl.quality
  refkey : cl.refkey ≠ some ""
  callId : cl.callId ≠ some ""

/-- What is in the section of a call log. -/
structure CallLogEntry.Written (cl : CallLogEntry F) (get : String → Option String) : Prop where
  dir : get "dir" = some (String.ofList (Scan.decimal cl.dir))
  status : get "status" = some (String.ofList (Scan.decimal cl.status))
  fromAddress : get "from" = some (lib.asString cl.fromAddress)
  toAddress : get "to" = some (lib.asString cl.toAddress)
  startDateTime : get "start_date_time" =
    if cl.startDateTime ≠ 0 then some (String.ofList (Scan.decimal cl.startDateTime)) else none
  startDate : get "start_date" =
    if cl.startDateTime ≠ 0 then none else heldText (some cl.startDate)
  duration : get "duration" = some (String.ofList (Scan.decimal cl.duration))
  refkey : get "refkey" = heldText cl.refkey
  quality : get "quality" = some (lib.printFloat cl.quality)
  videoEnabled : get "video_enabled" =
    some (String.ofList (Scan.decimal (ofBool cl.videoEnabled)))
  callId : get "call_id" = heldText cl.callId

theorem writeCallLog_written (config : LpConfig) (cl : CallLogEntry F) (i : Nat) :
    cl.Written lib ((writeCallLog lib config cl i).getString (numbered "call_log_" i)) := by
  have hquality := heldText_some (lib.printFloat_ne cl.quality)
  have hfrom := heldText_some (lib.asString_ne cl.fromAddress)
  have hto := heldText_some (lib.asString_ne cl.toAddress)
  have hrefkey := ite_heldText cl.refkey
  by_cases hdate : cl.startDateTime = 0
  · constructor <;> simp [writeCallLog, hdate, hquality, hfrom, hto, hrefkey,
      LpConfig.getString_field, LpConfig.getString_setInt, LpConfig.getString_set,
      LpConfig.getString_cleanSection]
  · constructor <;> simp [writeCallLog, hdate, hquality, hfrom, hto, hrefkey,
      LpConfig.getString_field, LpConfig.getString_setInt, LpConfig.getString_setInt64,
      LpConfig.getString_set, LpConfig.getString_cleanSection]

theorem readDate_written {config : LpConfig} {cl : CallLogEntry F} {sec : String}
    (h : cl.Written lib (config.getString sec)) :
    readDate lib config sec = (cl.startDateTime, cl.startDate) ↔
      if cl.startDateTime ≠ 0 then lib.dateOf cl.startDateTime = cl.startDate
      else cl.startDate ≠ "" ∧ lib.stringToTime cl.startDate = 0 := by
  by_cases hdate : cl.startDateTime = 0
  · have htime : config.getInt64 sec "start_date_time" 0 = 0 := by
      rw [LpConfig.getInt64, h.startDateTime, if_neg (not_not.mpr hdate)]
    have hnow := lib.now_ne
    rw [readDate, htime, h.startDate, if_neg (not_not.mpr rfl), if_neg (not_not.mpr hdate),
      if_neg (not_not.mpr hdate), hdate]
    by_cases hempty : cl.startDate = ""
    · simp [hempty, hnow]
    · simp [heldText_some hempty, hempty]
  · have htime : config.getInt64 sec "start_date_time" 0 = cl.startDateTime := by
      refine LpConfig.getInt64_of_getString ?_ 0
      rw [h.startDateTime, if_pos hdate]
    rw [readDate, htime, if_pos hdate, if_pos hdate]
    simp

/-- **A call log is read back exactly if it is kept.** -/
theorem callLogs_keep (maxCallLogs : Int) :
    (callLogList lib maxCallLogs).Keeps (fun _ _ => False) fun _ cl _ => cl.Kept lib where
  settings_ne _ _ h := h.elim
  read_iff config config' cl i h _ := by
    have hread : config'.getString (numbered "call_log_" i) =
        (writeCallLog lib config cl i).getString (numbered "call_log_" i) :=
      funext (LpConfig.getString_of_lookup_eq h)
    have hw : cl.Written lib (config'.getString (numbered "call_log_" i)) := by
      rw [hread]
      exact writeCallLog_written lib config cl i
    have hdir := LpConfig.getInt_of_getString hw.dir 0
    have hstatus := LpConfig.getInt_of_getString hw.status 0
    have hduration := LpConfig.getInt_of_getString hw.duration 0
    have hvideo := LpConfig.getInt_of_getString hw.videoEnabled 0
    have hdate := readDate_written lib hw
    show readCallLog lib config' i = some cl ↔ _
    constructor
    · intro hcl
      obtain ⟨fromAddress, hfrom, hcl⟩ := Option.bind_eq_some_iff.mp hcl
      obtain ⟨toAddress, hto, hcl⟩ := Option.bind_eq_some_iff.mp hcl
      have heq := Option.some.inj hcl
      obtain rfl : fromAddress = cl.fromAddress := congrArg CallLogEntry.fromAddress heq
      obtain rfl : toAddress = cl.toAddress := congrArg CallLogEntry.toAddress heq
      rw [hw.fromAddress, Option.bind_some] at hfrom
      rw [hw.toAddress, Option.bind_some] at hto
      have hquality := congrArg CallLogEntry.quality heq
      rw [hw.quality] at hquality
      have hrefkey := hw.refkey.symm.trans (congrArg CallLogEntry.refkey heq)
      have hcallId := hw.callId.symm.trans (congrArg CallLogEntry.callId heq)
      have hboth := hdate.mp (Prod.ext (congrArg CallLogEntry.startDateTime heq)
        (congrArg CallLogEntry.startDate heq))
      exact ⟨hfrom, hto, hboth, hquality, heldText_eq_self.mp hrefkey,
        heldText_eq_self.mp hcallId⟩
    · intro hkept
      have hquality := hkept.quality
      simp only [readCallLog, hw.fromAddress, hw.toAddress, hkept.fromAddress, hkept.toAddress,
        hdate.mpr hkept.date, hdir, hstatus, hduration, hvideo, hw.quality, hw.refkey, hw.callId,
        asBool_ofBool, heldText_eq_self.mpr hkept.refkey, heldText_eq_self.mpr hkept.callId,
        Option.bind_some, Option.bind_eq_bind, hquality]
  congr _ _ _ _ _ _ := Iff.rfl

end callLogs

end Linphone
