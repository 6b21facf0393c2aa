import Linphone.Config.ProxiesSaved

/-!
# The lists of a core in the configuration

`linphone_auth_info_write_config` and `linphone_auth_info_new_from_config_file`
(`coreapi/authentication.c`), and the lists of proxies, credentials, friends and call logs together:
each is written to its sections, and leaves those of the others as they are.

`lists_saved_iff` says when all of them are read back as they were, over whatever was in the
configuration.
-/

namespace Linphone

/-! ## Credentials -/

/-- `linphone_auth_info_new` -/
def linphoneAuthInfoNew (username userid passwd ha1 realm domain : Option String) :
    LinphoneAuthInfo where
  username := heldText username
  userid := heldText userid
  passwd := heldText passwd
  ha1 := heldText ha1
  realm := heldText realm
  domain := heldText domain

section authInfos

variable (computeHa1 : String → String → String → String)

/-- `linphone_auth_info_write_config`, and what becomes of the configuration. -/
def writeAuthInfo (config : LpConfig) (obj : LinphoneAuthInfo) (pos : Nat) : LpConfig :=
  (linphoneAuthInfoWriteConfig computeHa1 config obj pos).1

/-- `linphone_auth_info_new_from_config_file` -/
def readAuthInfo (config : LpConfig) (pos : Nat) : Option LinphoneAuthInfo :=
  let key := authInfoKey pos
  if config.hasSection key then
    some (linphoneAuthInfoNew (config.getString key "username") (config.getString key "userid")
      (config.getString key "passwd") (config.getString key "ha1") (config.getString key "realm")
      (config.getString key "domain"))
  else none

theorem lookup_writeAuthInfo (config : LpConfig) (obj : LinphoneAuthInfo) (i : Nat) (sec : String)
    (h : sec ≠ authInfoKey i) :
    (writeAuthInfo computeHa1 config obj i).lookup sec = config.lookup sec := by
  have hclean : (config.cleanSection (authInfoKey i)).lookup sec = config.lookup sec :=
    AList.lookup_erase_ne h
  unfold writeAuthInfo linphoneAuthInfoWriteConfig
  dsimp only
  split
  · exact hclean
  · split
    · simp only [LpConfig.lookup_writeField_ne h, hclean]
    · simp only [LpConfig.lookup_writeField_ne h, hclean]

/-- The list of credentials; the section behind the last one marks the end. -/
def authInfoList : NumberedList LinphoneAuthInfo where
  name := "auth_info_"
  write := writeAuthInfo computeHa1
  cleaned n := [n]
  read := readAuthInfo
  stops config i := (readAuthInfo config i).isNone
  lookup_write := lookup_writeAuthInfo computeHa1
  le_cleaned := le_of_mem_cleaned
  stops_of_missing config i h := by
    have hmem : authInfoKey i ∉ config := h
    rw [readAuthInfo, LpConfig.hasSection, decide_eq_false hmem]
    rfl
  read_of_stops config i h := Option.isNone_iff_eq_none.mp h

/-- Credentials are kept if they are stored, no hash is computed for them, there is no password
beside a hash, and there is some field and none that is empty. -/
structure LinphoneAuthInfo.Kept (config : LpConfig) (obj : LinphoneAuthInfo) : Prop where
  stored : config.getInt "sip" "store_auth_info" 1 ≠ 0
  hash : ¬Hashed config obj
  passwd : obj.ha1 ≠ none → obj.passwd = none
  some_field : obj ≠ {}
  fields : linphoneAuthInfoNew obj.username obj.userid obj.passwd obj.ha1 obj.realm obj.domain = obj

/-- The settings that are read when credentials are written. -/
def AuthSetting (sec key : String) : Prop :=
  sec = "sip" ∧ (key = "store_auth_info" ∨ key = "store_ha1_passwd")

variable {computeHa1} {config config' : LpConfig} {obj : LinphoneAuthInfo} {i : Nat}

/-- What is in the section of credentials that are stored. -/
structure LinphoneAuthInfo.Written (obj : LinphoneAuthInfo) (get : String → Option String) :
    Prop where
  username : get "username" = heldText obj.username
  userid : get "userid" = heldText obj.userid
  passwd : get "passwd" = if obj.ha1 = none then heldText obj.passwd else none
  ha1 : get "ha1" = heldText obj.ha1
  realm : get "realm" = heldText obj.realm
  domain : get "domain" = heldText obj.domain

theorem hashed_cleaned :
    hashed computeHa1 (config.cleanSection (authInfoKey i)) obj = hashed computeHa1 config obj :=
  hashed_congr (getString_cleaned i)

theorem getInt_cleaned (key : String) (d : Int) :
    (config.cleanSection (authInfoKey i)).getInt "sip" key d = config.getInt "sip" key d :=
  LpConfig.getInt_congr (getString_cleaned i key) d

theorem writeAuthInfo_written (h : config.getInt "sip" "store_auth_info" 1 ≠ 0) :
    (hashed computeHa1 config obj).Written
      ((writeAuthInfo computeHa1 config obj i).getString (authInfoKey i)) := by
  unfold writeAuthInfo linphoneAuthInfoWriteConfig
  simp only [getInt_cleaned, h, if_false, hashed_cleaned]
  generalize hashed computeHa1 config obj = obj
  cases hha1 : obj.ha1 with
  | none =>
    constructor <;> simp [hha1, ite_heldText, LpConfig.getString_field,
      LpConfig.getString_cleanSection]
  | some ha1 =>
    constructor <;> simp [hha1, ite_heldText, LpConfig.getString_field,
      LpConfig.getString_cleanSection]

theorem writeAuthInfo_not_stored (h : config.getInt "sip" "store_auth_info" 1 = 0) :
    writeAuthInfo computeHa1 config obj i = config.cleanSection (authInfoKey i) := by
  unfold writeAuthInfo linphoneAuthInfoWriteConfig
  simp only [getInt_cleaned, h, if_true]

theorem writeAuthInfo_default :
    writeAuthInfo computeHa1 config {} i = config.cleanSection (authInfoKey i) := by
  have hnot : hashed computeHa1 config ({} : LinphoneAuthInfo) = {} :=
    if_neg fun h => absurd h.2.2.1 (by simp)
  unfold writeAuthInfo linphoneAuthInfoWriteConfig
  simp only [hashed_cleaned, hnot]
  split
  · rfl
  · rfl

theorem readAuthInfo_cleaned
    (h : config'.lookup (authInfoKey i) =
      (config.cleanSection (authInfoKey i)).lookup (authInfoKey i)) :
    readAuthInfo config' i = none := by
  have hmem : authInfoKey i ∉ config' := by
    rw [← AList.lookup_eq_none, h]
    exact AList.lookup_erase _ _
  rw [readAuthInfo, LpConfig.hasSection, decide_eq_false hmem]
  rfl

/-- What is read of credentials that were stored. -/
theorem readAuthInfo_eq_some_iff (hw : obj.Written (config.getString (authInfoKey i)))
    {ai : LinphoneAuthInfo} :
    readAuthInfo config i = some ai ↔ authInfoKey i ∈ config ∧
      linphoneAuthInfoNew obj.username obj.userid (if obj.ha1 = none then obj.passwd else none)
        obj.ha1 obj.realm obj.domain = ai := by
  have hpasswd : heldText (if obj.ha1 = none then heldText obj.passwd else none) =
      heldText (if obj.ha1 = none then obj.passwd else none) := by
    split
    · exact heldText_heldText _
    · rfl
  simp only [readAuthInfo, LpConfig.hasSection, decide_eq_true_eq, linphoneAuthInfoNew,
    hw.username, hw.userid, hw.passwd, hw.ha1, hw.realm, hw.domain, heldText_heldText, hpasswd,
    Option.ite_none_right_eq_some, Option.some.injEq]

/-- **Credentials are read back exactly if they are kept.** -/
theorem authInfos_keep : (authInfoList computeHa1).Keeps AuthSetting
    fun config obj _ => obj.Kept config where
  settings_ne := by
    rintro sec key ⟨rfl, -⟩ i
    exact sip_ne_authInfoKey i
  read_iff config config' obj i h _ := by
    have hlookup : config'.lookup (authInfoKey i) =
        (writeAuthInfo computeHa1 config obj i).lookup (authInfoKey i) := h
    show readAuthInfo config' i = some obj ↔ _
    by_cases hstored : config.getInt "sip" "store_auth_info" 1 = 0
    · rw [writeAuthInfo_not_stored hstored] at hlookup
      rw [readAuthInfo_cleaned hlookup]
      exact iff_of_false (by simp) fun hkept => hkept.stored hstored
    · have hw : (hashed computeHa1 config obj).Written (config'.getString (authInfoKey i)) := by
        rw [funext (LpConfig.getString_of_lookup_eq hlookup)]
        exact writeAuthInfo_written hstored
      constructor
      · intro hread
        have hne : obj ≠ {} := by
          rintro rfl
          rw [writeAuthInfo_default] at hlookup
          rw [readAuthInfo_cleaned hlookup] at hread
          exact absurd hread (by simp)
        obtain ⟨-, heq⟩ := (readAuthInfo_eq_some_iff hw).mp hread
        have hhash : ¬Hashed config obj := by
          intro hhash
          have hpasswd := congrArg LinphoneAuthInfo.passwd heq
          rw [hashed, if_pos hhash] at hpasswd
          have hsome := hhash.2.2.2.1
          rw [← hpasswd] at hsome
          exact absurd hsome (by simp [linphoneAuthInfoNew])
        rw [hashed, if_neg hhash] at heq
        have hpasswd : obj.ha1 ≠ none → obj.passwd = none := by
          intro hha1
          rw [if_neg hha1] at heq
          exact (congrArg LinphoneAuthInfo.passwd heq).symm
        refine ⟨hstored, hhash, hpasswd, hne, ?_⟩
        split at heq
        · exact heq
        · next hha1 => rwa [hpasswd hha1]
      · intro hkept
        rw [hashed, if_neg hkept.hash] at hw
        have hpasswd : (if obj.ha1 = none then obj.passwd else none) = obj.passwd := by
          split
          · rfl
          · next hha1 => exact (hkept.passwd hha1).symm
        refine (readAuthInfo_eq_some_iff hw).mpr ⟨?_, by rw [hpasswd, hkept.fields]⟩
        by_contra hmem
        have hnone := LpConfig.getString_of_not_mem hmem
        refine hkept.some_field (hkept.fields.symm.trans ?_)
        have hheld : heldText obj.passwd = none := by
          rw [← hpasswd]
          have hget := hw.passwd
          rw [hnone] at hget
          split at hget
          · next hha1 => rw [if_pos hha1, ← hget]
          · next hha1 => rw [if_neg hha1, heldText_none]
        simp only [linphoneAuthInfoNew, hheld, ← hw.username, ← hw.userid, ← hw.ha1, ← hw.realm,
          ← hw.domain, hnone]
  congr config config' obj i _ hsettings := by
    have hstore := LpConfig.getInt_congr (hsettings "sip" "store_auth_info" ⟨rfl, .inl rfl⟩) 1
    have hha1 := LpConfig.getInt_congr (hsettings "sip" "store_ha1_passwd" ⟨rfl, .inr rfl⟩) 1
    have hhash : Hashed config' obj ↔ Hashed config obj := by simp only [Hashed, hstore, hha1]
    constructor
    · exact fun h => ⟨hstore ▸ h.stored, fun hh => h.hash (hhash.mpr hh), h.passwd, h.some_field,
        h.fields⟩
    · exact fun h => ⟨hstore ▸ h.stored, fun hh => h.hash (hhash.mp hh), h.passwd, h.some_field,
        h.fields⟩

end authInfos

/-! ## All lists -/

/-- What the lists take from the libraries. -/
structure CoreText (F : Type) extends ProxyText, CallLogText F

/-- The lists of a core, and the index of its default proxy. -/
structure CoreLists (F : Type) where
  proxies : List ProxyEntry
  defaultProxy : Int
  authInfos : List LinphoneAuthInfo
  friends : List FriendEntry
  callLogs : List (CallLogEntry F)

section lists

variable {F : Type} (lib : CoreText F) (computeHa1 : String → String → String → String)
  (maxCallLogs : Int)

/-- `linphone_proxy_config_write_all_to_config_file`, `write_auth_infos`,
`linphone_core_write_friends_config` and `call_logs_write_to_config_file` -/
def writeLists (config : LpConfig) (lists : CoreLists F) : LpConfig :=
  let config := (proxyList lib.toProxyText).writeAll config lists.proxies
  let config := config.setInt "sip" "default_proxy" lists.defaultProxy
  let config := (authInfoList computeHa1).writeAll config lists.authInfos
  let config := (friendList lib.toAddressText).writeAll config lists.friends
  (callLogList lib.toCallLogText maxCallLogs).writeAll config lists.callLogs

/-- The lists are read, and nothing is left behind them. -/
structure CoreLists.Saved (config : LpConfig) (lists : CoreLists F) : Prop where
  proxies : (proxyList lib.toProxyText).Saved config lists.proxies
  authInfos : (authInfoList computeHa1).Saved config lists.authInfos
  friends : (friendList lib.toAddressText).Saved config lists.friends
  callLogs : (callLogList lib.toCallLogText maxCallLogs).Saved config lists.callLogs

/-- Each entry is kept, and behind the lists there was no section but those that are cleaned: one
of a proxy, of credentials and of a friend, and as many of call logs as are kept. -/
structure CoreLists.Kept (config : LpConfig) (lists : CoreLists F) : Prop where
  proxies : ∀ obj ∈ lists.proxies, obj.Kept lib.toProxyText (createProxy config)
  authInfos : ∀ obj ∈ lists.authInfos, obj.Kept config
  friends : ∀ lf ∈ lists.friends,
    (lib.addressParse (lib.asString lf.uri)).map LinphoneAddress.clean = some lf.uri ∧
      lf.refkey ≠ some ""
  callLogs : ∀ cl ∈ lists.callLogs, cl.Kept lib.toCallLogText
  behind_proxies : ∀ m, lists.proxies.length < m → numbered "proxy_" m ∉ config
  behind_authInfos : ∀ m, lists.authInfos.length < m → authInfoKey m ∉ config
  behind_friends : ∀ m, lists.friends.length < m → numbered "friend_" m ∉ config
  behind_callLogs : ∀ m : Nat, lists.callLogs.length ≤ m → maxCallLogs ≤ m →
    numbered "call_log_" m ∉ config

variable {lib computeHa1 maxCallLogs} {config : LpConfig} {lists : CoreLists F}

theorem marked_iff {name : String} {n : Nat} :
    (∀ m, n ≤ m → numbered name m ∈ config → m ∈ [n]) ↔
      ∀ m, n < m → numbered name m ∉ config := by
  constructor
  · intro h m hm hmem
    exact absurd (List.mem_singleton.mp (h m (Nat.le_of_lt hm) hmem)) (Nat.ne_of_gt hm)
  · intro h m hm hmem
    rcases Nat.lt_or_eq_of_le hm with hlt | rfl
    · exact absurd hmem (h m hlt)
    · exact List.mem_singleton_self _

theorem lookup_default_ne {sec : String} (h : sec.toList.head? ≠ some 's') (value : Int) :
    (config.setInt "sip" "default_proxy" value).lookup sec = config.lookup sec := by
  refine LpConfig.lookup_setString_ne config ?_ _ _
  rintro rfl
  exact h (by decide)

theorem head?_proxyList : (proxyList lib.toProxyText).name.toList.head? = some 'p' := by
  rw [proxyList_name]
  decide

theorem head?_authInfoList : (authInfoList computeHa1).name.toList.head? = some 'a' := by
  show "auth_info_".toList.head? = some 'a'
  decide

theorem head?_friendList : (friendList lib.toAddressText).name.toList.head? = some 'f' := by
  show "friend_".toList.head? = some 'f'
  decide

theorem head?_callLogList :
    (callLogList lib.toCallLogText maxCallLogs).name.toList.head? = some 'c' := by
  show "call_log_".toList.head? = some 'c'
  decide

theorem proxies_saved_iff :
    (proxyList lib.toProxyText).Saved (writeLists lib computeHa1 maxCallLogs config lists)
        lists.proxies ↔
      (∀ obj ∈ lists.proxies, obj.Kept lib.toProxyText (createProxy config)) ∧
        ∀ m, lists.proxies.length < m → numbered "proxy_" m ∉ config := by
  have hafter : ∀ sec, sec.toList.head? = some 'p' →
      (writeLists lib computeHa1 maxCallLogs config lists).lookup sec =
        ((proxyList lib.toProxyText).writeAll config lists.proxies).lookup sec := by
    intro sec hsec
    have hne {c : Char} (hc : c ≠ 'p') : sec.toList.head? ≠ some c :=
      fun h => hc (Option.some.inj (h.symm.trans hsec))
    dsimp only [writeLists]
    rw [NumberedList.lookup_writeAll_of_head head?_callLogList (hne (by decide)),
      NumberedList.lookup_writeAll_of_head head?_friendList (hne (by decide)),
      NumberedList.lookup_writeAll_of_head head?_authInfoList (hne (by decide)),
      lookup_default_ne (hne (by decide))]
  have hdefaults : ∀ sec key, sec = proxyDefaults →
      (writeLists lib computeHa1 maxCallLogs config lists).getString sec key =
        config.getString sec key := by
    rintro sec key rfl
    refine LpConfig.getString_of_lookup_eq ?_ key
    rw [hafter _ (by decide)]
    exact NumberedList.lookup_writeFrom_of_ne fun j _ => proxyDefaults_ne j
  rw [(proxies_keep lib.toProxyText).saved_iff
    (fun m => hafter _ (head?_numbered head?_proxyList m)) hdefaults,
    List.forall_mem_iff_forall_getElem, ← marked_iff, proxyList_name]
  rfl

theorem authInfos_saved_iff :
    (authInfoList computeHa1).Saved (writeLists lib computeHa1 maxCallLogs config lists)
        lists.authInfos ↔
      (∀ obj ∈ lists.authInfos, obj.Kept config) ∧
        ∀ m, lists.authInfos.length < m → authInfoKey m ∉ config := by
  let before := ((proxyList lib.toProxyText).writeAll config lists.proxies).setInt "sip"
    "default_proxy" lists.defaultProxy
  have hafter : ∀ sec, sec.toList.head? ≠ some 'c' → sec.toList.head? ≠ some 'f' →
      (writeLists lib computeHa1 maxCallLogs config lists).lookup sec =
        ((authInfoList computeHa1).writeAll before lists.authInfos).lookup sec := by
    intro sec hc hf
    dsimp only [writeLists]
    rw [NumberedList.lookup_writeAll_of_head head?_callLogList hc,
      NumberedList.lookup_writeAll_of_head head?_friendList hf]
  have hbefore : ∀ sec, sec.toList.head? = some 'a' → before.lookup sec = config.lookup sec := by
    intro sec ha
    rw [lookup_default_ne (by rw [ha]; decide),
      NumberedList.lookup_writeAll_of_head head?_proxyList (by rw [ha]; decide)]
  have hsame : ∀ sec key, AuthSetting sec key →
      before.getString sec key = config.getString sec key := by
    rintro sec key ⟨rfl, hkey⟩
    rw [LpConfig.getString_setInt, if_neg]
    · exact LpConfig.getString_of_lookup_eq
        (NumberedList.lookup_writeAll_of_head head?_proxyList (by decide)) key
    · rintro ⟨-, rfl⟩
      exact absurd hkey (by decide)
  have hsettings : ∀ sec key, AuthSetting sec key →
      (writeLists lib computeHa1 maxCallLogs config lists).getString sec key =
        before.getString sec key := by
    rintro sec key ⟨rfl, -⟩
    refine LpConfig.getString_of_lookup_eq ?_ key
    rw [hafter _ (by decide) (by decide),
      NumberedList.lookup_writeAll_of_head head?_authInfoList (by decide)]
  have hhead : ∀ m, (numbered (authInfoList computeHa1).name m).toList.head? = some 'a' :=
    head?_numbered head?_authInfoList
  rw [authInfos_keep.saved_over_iff (fun m => hbefore _ (hhead m)) hsame
    (fun m => hafter _ (by rw [hhead]; decide) (by rw [hhead]; decide)) hsettings,
    List.forall_mem_iff_forall_getElem]
  exact and_congr_right fun _ => marked_iff

theorem friends_saved_iff
    (hrefkeys : ∀ k (hk : k < lists.friends.length), lists.friends[k].refkey = none →
      config.getString (numbered "friend_" k) "refkey" = none) :
    (friendList lib.toAddressText).Saved (writeLists lib computeHa1 maxCallLogs config lists)
        lists.friends ↔
      (∀ lf ∈ lists.friends,
        (lib.addressParse (lib.asString lf.uri)).map LinphoneAddress.clean = some lf.uri ∧
          lf.refkey ≠ some "") ∧
        ∀ m, lists.friends.length < m → numbered "friend_" m ∉ config := by
  have hhead : ∀ m, (numbered (friendList lib.toAddressText).name m).toList.head? = some 'f' :=
    head?_numbered head?_friendList
  let before := (authInfoList computeHa1).writeAll
    (((proxyList lib.toProxyText).writeAll config lists.proxies).setInt "sip" "default_proxy"
      lists.defaultProxy) lists.authInfos
  have hafter : ∀ m, (writeLists lib computeHa1 maxCallLogs config lists).lookup
      (numbered (friendList lib.toAddressText).name m) =
        ((friendList lib.toAddressText).writeAll before lists.friends).lookup
          (numbered (friendList lib.toAddressText).name m) := fun m =>
    NumberedList.lookup_writeAll_of_head head?_callLogList (by rw [hhead]; decide)
  have hbefore : ∀ m, before.lookup (numbered (friendList lib.toAddressText).name m) =
      config.lookup (numbered (friendList lib.toAddressText).name m) := by
    intro m
    rw [NumberedList.lookup_writeAll_of_head head?_authInfoList (by rw [hhead]; decide),
      lookup_default_ne (by rw [hhead]; decide),
      NumberedList.lookup_writeAll_of_head head?_proxyList (by rw [hhead]; decide)]
  rw [(friends_keep lib.toAddressText).saved_over_iff hbefore (fun _ _ h => h.elim) hafter
    (fun _ _ h => h.elim), List.forall_mem_iff_forall_getElem]
  refine and_congr (forall₂_congr fun k hk => ?_) marked_iff
  exact ⟨fun h => ⟨h.url, h.refkey.1⟩, fun h => ⟨h.1, h.2, hrefkeys k hk⟩⟩

theorem callLogs_saved_iff :
    (callLogList lib.toCallLogText maxCallLogs).Saved
        (writeLists lib computeHa1 maxCallLogs config lists) lists.callLogs ↔
      (∀ cl ∈ lists.callLogs, cl.Kept lib.toCallLogText) ∧
        ∀ m : Nat, lists.callLogs.length ≤ m → maxCallLogs ≤ m →
          numbered "call_log_" m ∉ config := by
  have hhead : ∀ m, (numbered (callLogList lib.toCallLogText maxCallLogs).name m).toList.head? =
      some 'c' := head?_numbered head?_callLogList
  let before := (friendList lib.toAddressText).writeAll ((authInfoList computeHa1).writeAll
    (((proxyList lib.toProxyText).writeAll config lists.proxies).setInt "sip" "default_proxy"
      lists.defaultProxy) lists.authInfos) lists.friends
  have hbefore : ∀ m, before.lookup (numbered (callLogList lib.toCallLogText maxCallLogs).name m) =
      config.lookup (numbered (callLogList lib.toCallLogText maxCallLogs).name m) := by
    intro m
    rw [NumberedList.lookup_writeAll_of_head head?_friendList (by rw [hhead]; decide),
      NumberedList.lookup_writeAll_of_head head?_authInfoList (by rw [hhead]; decide),
      lookup_default_ne (by rw [hhead]; decide),
      NumberedList.lookup_writeAll_of_head head?_proxyList (by rw [hhead]; decide)]
  show (callLogList lib.toCallLogText maxCallLogs).Saved
    ((callLogList lib.toCallLogText maxCallLogs).writeAll before lists.callLogs) _ ↔ _
  rw [(callLogs_keep lib.toCallLogText maxCallLogs).saved_over_iff hbefore (fun _ _ h => h.elim)
    (fun _ => rfl) (fun _ _ h => h.elim), List.forall_mem_iff_forall_getElem]
  refine and_congr_right fun _ => forall₂_congr fun m hm => ?_
  have hcleaned : m ∈ (callLogList lib.toCallLogText maxCallLogs).cleaned lists.callLogs.length ↔
      ¬maxCallLogs ≤ m := by
    show m ∈ List.range' _ _ ↔ _
    rw [List.mem_range'_1]
    omega
  rw [hcleaned]
  exact imp_not_comm

/-- **All lists are saved exactly if they are kept**, where no friend without a reference key is
written to a section that holds one. -/
theorem lists_saved_iff (lib : CoreText F) (computeHa1 : String → String → String → String)
    (maxCallLogs : Int) (config : LpConfig) (lists : CoreLists F)
    (hrefkeys : ∀ k (hk : k < lists.friends.length), lists.friends[k].refkey = none →
      config.getString (numbered "friend_" k) "refkey" = none) :
    lists.Saved lib computeHa1 maxCallLogs (writeLists lib computeHa1 maxCallLogs config lists) ↔
      lists.Kept lib maxCallLogs config := by
  constructor
  · intro h
    obtain ⟨hproxies, hbehind_proxies⟩ := proxies_saved_iff.mp h.proxies
    obtain ⟨hauthInfos, hbehind_authInfos⟩ := authInfos_saved_iff.mp h.authInfos
    obtain ⟨hfriends, hbehind_friends⟩ := (friends_saved_iff hrefkeys).mp h.friends
    obtain ⟨hcallLogs, hbehind_callLogs⟩ := callLogs_saved_iff.mp h.callLogs
    exact ⟨hproxies, hauthInfos, hfriends, hcallLogs, hbehind_proxies, hbehind_authInfos,
      hbehind_friends, hbehind_callLogs⟩
  · intro h
    exact ⟨proxies_saved_iff.mpr ⟨h.proxies, h.behind_proxies⟩,
      authInfos_saved_iff.mpr ⟨h.authInfos, h.behind_authInfos⟩,
      (friends_saved_iff hrefkeys).mpr ⟨h.friends, h.behind_friends⟩,
      callLogs_saved_iff.mpr ⟨h.callLogs, h.behind_callLogs⟩⟩

end lists

/-! ## The lists of one user -/

/-- The URI of an address, as a text. -/
def uriText (addr : LinphoneAddress) : String :=
  match addr.uri with
  | .sip uri => "sip:" ++ (uri.user.elim "" (· ++ "@") ++ uri.host.getD "")
  | .absolute uri => "<" ++ (uri ++ ">")

theorem uriText_ne (addr : LinphoneAddress) : uriText addr ≠ "" := by
  intro h
  have hlist := congrArg String.toList h
  unfold uriText at hlist
  split at hlist
  · rw [String.toList_append] at hlist
    exact absurd (List.append_eq_nil_iff.mp hlist).1 (by decide)
  · rw [String.toList_append] at hlist
    exact absurd (List.append_eq_nil_iff.mp hlist).1 (by decide)

def marieContact : LinphoneAddress where
  uri := .sip { user := some "marie", host := some "sip.example.org" }

def undefinedContact : LinphoneAddress where
  uri := .sip { host := some "undefined" }

/-- What the libraries do with two addresses, a time and a quality that was not measured. -/
def marieText : CoreText Unit where
  marshalUri uri := uri.user.elim "" (· ++ "@") ++ uri.host.getD ""
  addressParse text := [marieContact, undefinedContact].find? fun addr => uriText addr = text
  marshalAddress := uriText
  marshalAddress_ne := uriText_ne
  placeholder := undefinedContact
  parse_placeholder := by decide +kernel
  parse_asString := by decide +kernel
  hasScheme_asString := by decide +kernel
  printFloat _ := "-1.000000"
  printFloat_ne _ := by decide
  scanFloat text := if text = "-1.000000" then some () else none
  noQuality := ()
  dateOf _ := "Sat Jul  4 08:53:20 2015"
  stringToTime _ := 1436000000
  now := 1436000000
  now_ne := by decide

/-- What two friends left, the first one with a reference key if there is one. -/
def friendsLeft (refkey : Option String) : LpConfig :=
  writeField (numbered "friend_" 0) "refkey" refkey
    (LpConfig.setString ∅ (numbered "friend_" 1) "url" (some "sip:pauline@sip.example.org"))

def marieLists (authInfo : LinphoneAuthInfo) : CoreLists Unit where
  proxies := [{ regProxy := some "sip:undefined", regIdentity := some (uriText marieContact) }]
  defaultProxy := 0
  authInfos := [authInfo]
  friends := [{ uri := marieContact, pol := .accept, subscribe := true, refkey := none }]
  callLogs :=
    [{ dir := 1
       status := 0
       fromAddress := marieContact
       toAddress := marieContact
       startDateTime := 1436000000
       startDate := "Sat Jul  4 08:53:20 2015"
       duration := 12
       refkey := none
       quality := ()
       videoEnabled := false
       callId := some "f81d4fae" }]

theorem not_mem_friendsLeft {refkey : Option String} {sec : String}
    (h : sec ≠ numbered "friend_" 0) (h' : sec ≠ numbered "friend_" 1) :
    sec ∉ friendsLeft refkey := by
  rw [friendsLeft, ← AList.lookup_eq_none, LpConfig.lookup_writeField_ne h,
    LpConfig.lookup_setString_ne ∅ h']
  rfl

theorem not_mem_friendsLeft_of_head {name : String} {c : Char}
    (hname : name.toList.head? = some c) (hc : c ≠ 'f') (refkey : Option String) (m : Nat) :
    numbered name m ∉ friendsLeft refkey := by
  have hsec : (numbered name m).toList.head? ≠ some 'f' := by
    rw [head?_numbered hname]
    exact fun h => hc (Option.some.inj h)
  exact not_mem_friendsLeft (numbered_ne (by decide) hsec 0) (numbered_ne (by decide) hsec 1)

/-- Over two friends, one user is saved. -/
theorem marie_saved :
    (marieLists { username := some "marie", ha1 := some "5f4d" }).Saved marieText
      (fun _ _ _ => "5f4d") 20 (writeLists marieText (fun _ _ _ => "5f4d") 20 (friendsLeft none)
        (marieLists { username := some "marie", ha1 := some "5f4d" })) := by
  refine (lists_saved_iff marieText (fun _ _ _ => "5f4d") 20 (friendsLeft none)
    (marieLists { username := some "marie", ha1 := some "5f4d" }) ?_).mpr ?_
  · intro k _ _
    rw [friendsLeft, writeField, LpConfig.getString_set]
    split
    · next h => exact absurd h.2 (by decide)
    · rfl
  · have hproxy : "proxy_".toList.head? = some 'p' := by decide
    have hauthInfo : "auth_info_".toList.head? = some 'a' := by decide
    have hcallLog : "call_log_".toList.head? = some 'c' := by decide
    have hone {α : Type} {P : α → Prop} {a : α} (h : P a) : ∀ x ∈ [a], P x := by
      intro x hx
      rwa [List.mem_singleton.mp hx]
    refine ⟨hone ?_, hone ?_, hone ?_, hone ?_, ?_, ?_, ?_, ?_⟩
    · constructor
      all_goals decide +kernel
    · constructor
      all_goals decide +kernel
    · decide +kernel
    · constructor
      all_goals decide +kernel
    · exact fun m _ => not_mem_friendsLeft_of_head hproxy (by decide) none m
    · exact fun m _ => not_mem_friendsLeft_of_head hauthInfo (by decide) none m
    · intro m hm
      refine not_mem_friendsLeft (fun h => ?_) fun h => ?_
      · exact absurd (numbered_inj h ▸ hm) (by decide)
      · exact absurd (numbered_inj h ▸ hm) (by decide)
    · exact fun m _ _ => not_mem_friendsLeft_of_head hcallLog (by decide) none m

/-- A password is stored as a hash, and a friend gets the reference key that was left. -/
theorem marie_not_saved :
    let lists := marieLists { username := some "marie", realm := some "org", passwd := some "1234" }
    let config := writeLists marieText (fun _ _ _ => "5f4d") 20 (friendsLeft (some "42")) lists
    readAuthInfo config 0 =
        some { username := some "marie", realm := some "org", ha1 := some "5f4d" } ∧
      readFriend marieText.toAddressText config 0 =
        some { uri := marieContact, pol := .accept, subscribe := true, refkey := some "42" } ∧
      ¬lists.Saved marieText (fun _ _ _ => "5f4d") 20 config := by
  intro lists config
  have hauthInfo : readAuthInfo config 0 =
      some { username := some "marie", realm := some "org", ha1 := some "5f4d" } := by
    decide +kernel
  have hfriend : readFriend marieText.toAddressText config 0 =
      some { uri := marieContact, pol := .accept, subscribe := true, refkey := some "42" } := by
    decide +kernel
  clear_value config
  refine ⟨hauthInfo, hfriend, fun h => ?_⟩
  have hread := (NumberedList.readAll_eq_iff h.authInfos.behind).mp h.authInfos.read 0 Nat.one_pos
  have hpasswd := congrArg LinphoneAuthInfo.passwd (Option.some.inj (hauthInfo.symm.trans hread))
  exact absurd hpasswd (by decide)

end Linphone
