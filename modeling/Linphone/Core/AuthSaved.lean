import Linphone.Config.LpConfig
import Linphone.Core.AuthInfos
import Mathlib.Data.List.Find

/-!
# Credentials written to the configuration

`write_auth_infos` of `coreapi/authentication.c` writes each entry of the list to a section. So that
no password is stored, `linphone_auth_info_write_config` computes the hash of user, realm and
password, and it keeps the hash in the entry too. The last two searches of
`linphone_core_find_auth_info` pass over entries with a hash.

**Entries.** Here an entry is a pointer, and the credentials are what it points to: the same entry
is found before and after, or another one.

`saving_neutral_iff`: the answers stay the same exactly if in front of each entry that gets a hash
there is one that gets none and is searched for by the same user name, and the same domain.
-/

namespace Linphone

variable {α : Type} (behind : BehindBuffers)

/-! ## Searching entries -/

/-- The loop of `find_auth_info`, which answers an entry. -/
def findEntryLoop (info : α → LinphoneAuthInfo) (username realm domain : Option String) :
    List α → Option α → Option α
  | [], ret => ret
  | pinfo :: elem, ret =>
      if username.isSome ∧ (info pinfo).username = username then
        match realm, domain with
        | some realm, some domain =>
            if (info pinfo).realm.isSome ∧ realmMatch behind realm (info pinfo).realm ∧
                (info pinfo).domain = domain then
              some pinfo
            else findEntryLoop info username (some realm) (some domain) elem ret
        | some realm, none =>
            if (info pinfo).realm.isSome ∧ realmMatch behind realm (info pinfo).realm then
              if ret.isSome then none
              else findEntryLoop info username (some realm) none elem (some pinfo)
            else findEntryLoop info username (some realm) none elem ret
        | none, some domain =>
            if (info pinfo).domain = domain ∧ (info pinfo).ha1 = none then some pinfo
            else findEntryLoop info username none (some domain) elem ret
        | none, none =>
            if (info pinfo).ha1 = none then some pinfo
            else findEntryLoop info username none none elem ret
      else findEntryLoop info username realm domain elem ret

/-- `find_auth_info` -/
def findEntry (info : α → LinphoneAuthInfo) (authInfo : List α)
    (username realm domain : Option String) : Option α :=
  findEntryLoop behind info username realm domain authInfo none

/-- `linphone_core_find_auth_info` -/
def linphoneCoreFindEntry (info : α → LinphoneAuthInfo) (authInfo : List α)
    (realm username domain : Option String) : Option α :=
  let ai :=
    if realm.isSome then
      (findEntry behind info authInfo username realm none).or
        (if domain.isSome then findEntry behind info authInfo username realm domain else none)
    else none
  let ai :=
    ai.or (if domain.isSome then findEntry behind info authInfo username none domain else none)
  ai.or (findEntry behind info authInfo username none none)

/-! ## Writing -/

/-- The section of an entry. -/
def authInfoKey (pos : Nat) : String := "auth_info_" ++ String.ofList (Scan.decimal (pos : Int))

/-- An entry whose hash is computed when it is written. -/
def Hashed (config : LpConfig) (obj : LinphoneAuthInfo) : Prop :=
  config.getInt "sip" "store_auth_info" 1 ≠ 0 ∧ obj.ha1 = none ∧ obj.realm.isSome ∧
    obj.passwd.isSome ∧ (obj.username.isSome ∨ obj.userid.isSome) ∧
    config.getInt "sip" "store_ha1_passwd" 1 = 1

instance (config : LpConfig) (obj : LinphoneAuthInfo) : Decidable (Hashed config obj) := by
  unfold Hashed
  infer_instance

/-- An item of the section, for a field that is there. -/
def writeField (key field : String) (value : Option String) (config : LpConfig) : LpConfig :=
  match value with
  | some value => config.setString key field (some value)
  | none => config

variable (computeHa1 : String → String → String → String)

/-- The hash of `sal_auth_compute_ha1`, for the user id or else the user name. -/
def ha1Of (obj : LinphoneAuthInfo) : String :=
  computeHa1 ((obj.userid.or obj.username).getD "") (obj.realm.getD "") (obj.passwd.getD "")

/-- An entry with its hash. -/
def hashed (config : LpConfig) (obj : LinphoneAuthInfo) : LinphoneAuthInfo :=
  if Hashed config obj then { obj with ha1 := some (ha1Of computeHa1 obj) } else obj

/-- `linphone_auth_info_write_config` of an entry: the configuration, and what the entry is then. -/
def linphoneAuthInfoWriteConfig (config : LpConfig) (obj : LinphoneAuthInfo) (pos : Nat) :
    LpConfig × LinphoneAuthInfo :=
  let key := authInfoKey pos
  let config := config.cleanSection key
  if config.getInt "sip" "store_auth_info" 1 = 0 then (config, obj)
  else
    let obj := hashed computeHa1 config obj
    let config := writeField key "username" obj.username config
    let config := writeField key "userid" obj.userid config
    let config :=
      if obj.ha1.isSome then writeField key "ha1" obj.ha1 config
      else writeField key "passwd" obj.passwd config
    let config := writeField key "realm" obj.realm config
    (writeField key "domain" obj.domain config, obj)

variable [DecidableEq α]

/-- The loop of `write_auth_infos`. The call without an entry after the last one removes the section
that marks the end. -/
def writeAuthInfos :
    LpConfig → (α → LinphoneAuthInfo) → Nat → List α → LpConfig × (α → LinphoneAuthInfo)
  | config, info, i, [] => (config.cleanSection (authInfoKey i), info)
  | config, info, i, ai :: elem =>
      let written := linphoneAuthInfoWriteConfig computeHa1 config (info ai) i
      writeAuthInfos written.1 (Function.update info ai written.2) (i + 1) elem

/-! ## The entries afterwards -/

section

variable {behind computeHa1} {config config' : LpConfig} {obj : LinphoneAuthInfo}
  {info info' : α → LinphoneAuthInfo} {authInfo : List α} {username realm domain : Option String}
  {i : Nat} {a : α}

theorem hashed_hashed : hashed computeHa1 config (hashed computeHa1 config obj) =
    hashed computeHa1 config obj := by
  by_cases h : Hashed config obj
  · have hha1 : (hashed computeHa1 config obj).ha1 ≠ none := by
      rw [hashed, if_pos h]
      exact Option.some_ne_none _
    exact if_neg fun hagain => hha1 hagain.2.1
  · have hsame : hashed computeHa1 config obj = obj := if_neg h
    rw [hsame, hsame]

theorem hashed_fields :
    (hashed computeHa1 config obj).username = obj.username ∧
      (hashed computeHa1 config obj).realm = obj.realm ∧
      (hashed computeHa1 config obj).domain = obj.domain := by
  unfold hashed
  split
  · exact ⟨rfl, rfl, rfl⟩
  · exact ⟨rfl, rfl, rfl⟩

theorem hashed_ha1 :
    (hashed computeHa1 config obj).ha1 = none ↔ obj.ha1 = none ∧ ¬Hashed config obj := by
  unfold hashed
  split
  · next h =>
    exact ⟨(fun hnone => absurd hnone (Option.some_ne_none _)), fun hboth => absurd h hboth.2⟩
  · next h => exact ⟨fun hnone => ⟨hnone, h⟩, And.left⟩

theorem hashed_congr (h : ∀ key, config'.getString "sip" key = config.getString "sip" key) :
    hashed computeHa1 config' obj = hashed computeHa1 config obj := by
  have hint := fun key d => LpConfig.getInt_congr (h key) d
  have hiff : Hashed config' obj ↔ Hashed config obj := by simp only [Hashed, hint]
  simp only [hashed, hiff]

theorem sip_ne_authInfoKey (pos : Nat) : "sip" ≠ authInfoKey pos := by
  intro hsame
  have hhead := congrArg (fun s => (String.toList s).head?) hsame
  simp only [authInfoKey, String.toList_append, List.head?_append] at hhead
  have hkey : ∀ rest, "auth_info_".toList.head?.or rest = some 'a' := fun _ => rfl
  rw [hkey] at hhead
  exact absurd hhead (by decide)

theorem getString_writeField (pos : Nat) (field key : String) (value : Option String) :
    (writeField (authInfoKey pos) field value config).getString "sip" key =
      config.getString "sip" key := by
  cases value with
  | none => rfl
  | some value =>
    rw [writeField, LpConfig.getString_setString,
      if_neg fun hsame => sip_ne_authInfoKey pos hsame.1]

theorem getString_cleaned (pos : Nat) (key : String) :
    (config.cleanSection (authInfoKey pos)).getString "sip" key = config.getString "sip" key := by
  rw [LpConfig.getString_cleanSection, if_neg (sip_ne_authInfoKey pos)]

/-- The settings that are read do not change. -/
theorem getString_written (pos : Nat) (key : String) :
    (linphoneAuthInfoWriteConfig computeHa1 config obj pos).1.getString "sip" key =
      config.getString "sip" key := by
  unfold linphoneAuthInfoWriteConfig
  dsimp only
  split
  · exact getString_cleaned pos key
  · rw [getString_writeField, getString_writeField]
    split
    · rw [getString_writeField, getString_writeField, getString_writeField, getString_cleaned]
    · rw [getString_writeField, getString_writeField, getString_writeField, getString_cleaned]

theorem written_obj (pos : Nat) :
    (linphoneAuthInfoWriteConfig computeHa1 config obj pos).2 = hashed computeHa1 config obj := by
  have hcleaned : ∀ key, (config.cleanSection (authInfoKey pos)).getString "sip" key =
      config.getString "sip" key := getString_cleaned pos
  unfold linphoneAuthInfoWriteConfig
  dsimp only
  split
  · next h =>
    rw [LpConfig.getInt_congr (hcleaned _)] at h
    exact (if_neg fun hash => hash.1 h).symm
  · exact hashed_congr hcleaned

/-- **All entries** are as writing leaves them, and what is not in the list does not change. -/
theorem writeAuthInfos_info :
    (writeAuthInfos computeHa1 config info i authInfo).2 a =
      if a ∈ authInfo then hashed computeHa1 config (info a) else info a := by
  induction authInfo generalizing config info i with
  | nil => rw [writeAuthInfos, if_neg List.not_mem_nil]
  | cons ai authInfo ih =>
    rw [writeAuthInfos, ih, hashed_congr (getString_written i), written_obj]
    by_cases ha : a = ai
    · rw [ha, Function.update_self, hashed_hashed, ite_self, if_pos List.mem_cons_self]
    · rw [Function.update_of_ne ha]
      simp only [List.mem_cons, ha, false_or]

/-! ## What is found -/

omit [DecidableEq α] in
theorem map_findEntryLoop (ret : Option α) :
    (findEntryLoop behind info username realm domain authInfo ret).map info =
      findAuthInfoLoop behind username realm domain (authInfo.map info) (ret.map info) := by
  induction authInfo generalizing ret with
  | nil => rfl
  | cons ai authInfo ih =>
    rw [List.map_cons]
    cases realm with
    | none =>
      cases domain with
      | none =>
        rw [findEntryLoop, findAuthInfoLoop]
        simp only [apply_ite (Option.map info), ih, Option.map_some]
      | some domain =>
        rw [findEntryLoop, findAuthInfoLoop]
        simp only [apply_ite (Option.map info), ih, Option.map_some]
    | some realm =>
      cases domain with
      | none =>
        rw [findEntryLoop, findAuthInfoLoop]
        simp only [apply_ite (Option.map info), ih, Option.map_some, Option.map_none,
          Option.isSome_map]
      | some domain =>
        rw [findEntryLoop, findAuthInfoLoop]
        simp only [apply_ite (Option.map info), ih, Option.map_some]

omit [DecidableEq α] in
/-- The entry that is found holds the credentials that are found in the list of credentials. -/
theorem map_linphoneCoreFindEntry :
    (linphoneCoreFindEntry behind info authInfo realm username domain).map info =
      linphoneCoreFindAuthInfo behind (authInfo.map info) realm username domain := by
  have hfind : ∀ realm domain, (findEntry behind info authInfo username realm domain).map info =
      findAuthInfo behind (authInfo.map info) username realm domain :=
    fun realm domain => map_findEntryLoop none
  unfold linphoneCoreFindEntry linphoneCoreFindAuthInfo
  simp only [Option.map_or, apply_ite (Option.map info), hfind, Option.map_none]

omit [DecidableEq α] in
/-- The searches with a realm do not read the hash. -/
theorem findEntryLoop_congr {r : String} (ret : Option α)
    (h : ∀ a, (info' a).username = (info a).username ∧ (info' a).realm = (info a).realm ∧
      (info' a).domain = (info a).domain) :
    findEntryLoop behind info' username (some r) domain authInfo ret =
      findEntryLoop behind info username (some r) domain authInfo ret := by
  induction authInfo generalizing ret with
  | nil => rfl
  | cons ai authInfo ih =>
    obtain ⟨huser, hrealm, hdomain⟩ := h ai
    cases domain with
    | none =>
      rw [findEntryLoop, findEntryLoop, huser]
      simp only [hrealm, ih]
    | some domain =>
      rw [findEntryLoop, findEntryLoop, huser]
      simp only [hrealm, hdomain, ih]

/-- What the searches without a realm look for. -/
def Answers (obj : LinphoneAuthInfo) (username domain : Option String) : Prop :=
  username.isSome ∧ obj.username = username ∧ (domain.isSome → obj.domain = domain) ∧
    obj.ha1 = none

instance (obj : LinphoneAuthInfo) (username domain : Option String) :
    Decidable (Answers obj username domain) := by
  unfold Answers
  infer_instance

omit [DecidableEq α] in
theorem findEntry_withoutRealm :
    findEntry behind info authInfo username none domain =
      authInfo.find? fun a => decide (Answers (info a) username domain) := by
  unfold findEntry
  induction authInfo with
  | nil => rfl
  | cons ai authInfo ih =>
    rw [List.find?_cons, ← ih]
    cases domain with
    | none =>
      rw [findEntryLoop]
      by_cases hfound : Answers (info ai) username none
      · rw [decide_eq_true hfound, if_pos ⟨hfound.1, hfound.2.1⟩, if_pos hfound.2.2.2]
      · rw [decide_eq_false hfound]
        split
        · next huser =>
          rw [if_neg fun hha1 => hfound ⟨huser.1, huser.2, (fun h => absurd h (by decide)), hha1⟩]
        · rfl
    | some d =>
      rw [findEntryLoop]
      by_cases hfound : Answers (info ai) username (some d)
      · rw [decide_eq_true hfound, if_pos ⟨hfound.1, hfound.2.1⟩,
          if_pos ⟨hfound.2.2.1 rfl, hfound.2.2.2⟩]
      · rw [decide_eq_false hfound]
        split
        · next huser =>
          rw [if_neg fun hboth => hfound ⟨huser.1, huser.2, fun _ => hboth.1, hboth.2⟩]
        · rfl

theorem answers_hashed :
    Answers (hashed computeHa1 config obj) username domain ↔
      Answers obj username domain ∧ ¬Hashed config obj := by
  obtain ⟨huser, -, hdomain⟩ := @hashed_fields computeHa1 config obj
  rw [Answers, Answers, huser, hdomain, hashed_ha1]
  tauto

omit [DecidableEq α] in
/-- Some of what is searched for does not count any more: the first that is found stays the same if
it still counts, which is so if in front of each that does not there is one that does. -/
theorem find?_restrict_iff {p q : α → Bool} (hqp : ∀ a ∈ authInfo, q a → p a) :
    authInfo.find? q = authInfo.find? p ↔
      ∀ before a after, before ++ a :: after = authInfo → p a → ¬q a → ∃ e ∈ before, q e := by
  constructor
  · rintro h before a after rfl hp hq
    by_contra hnone
    have hbefore : before.find? q = none :=
      List.find?_eq_none.mpr fun e he hqe => hnone ⟨e, he, hqe⟩
    rw [List.find?_append, List.find?_append, hbefore, Option.none_or,
      List.find?_cons_of_pos hp, List.find?_cons_of_neg hq] at h
    cases hfirst : before.find? p with
    | none =>
      rw [hfirst, Option.none_or] at h
      exact hq (List.find?_some h)
    | some e =>
      rw [hfirst, Option.some_or] at h
      exact hnone ⟨e, List.mem_of_find?_eq_some hfirst, List.find?_some h⟩
  · intro h
    cases hfirst : authInfo.find? p with
    | none =>
      have hno := List.find?_eq_none.mp hfirst
      exact List.find?_eq_none.mpr fun a ha hq => hno a ha (hqp a ha hq)
    | some a =>
      obtain ⟨hp, before, after, hsplit, hbefore⟩ := List.find?_eq_some_iff_append.mp hfirst
      have hin : ∀ e ∈ before, q e → p e := fun e he =>
        hqp e (hsplit ▸ List.mem_append_left _ he)
      have hnot : ∀ e ∈ before, ¬q e := by
        intro e he hqe
        have hpe := hbefore e he
        rw [hin e he hqe] at hpe
        cases hpe
      have hq : q a := by
        by_contra hq
        obtain ⟨e, he, hqe⟩ := h before a after hsplit.symm hp hq
        exact hnot e he hqe
      refine List.find?_eq_some_iff_append.mpr ⟨hq, before, after, hsplit, fun e he => ?_⟩
      exact Bool.not_eq_true' _ ▸ Bool.eq_false_iff.mpr (hnot e he)

/-- In front of an entry that gets a hash, under its user name, there is one that gets none and that
is found instead of it: it has no hash, the same user name, and the domain if there is one. -/
def FoundBefore (config : LpConfig) (info : α → LinphoneAuthInfo) (authInfo : List α) : Prop :=
  ∀ before ai after, before ++ ai :: after = authInfo →
    Hashed config (info ai) → (info ai).username.isSome →
    ∃ e ∈ before, (info e).ha1 = none ∧ ¬Hashed config (info e) ∧
      (info e).username = (info ai).username ∧
      ((info ai).domain.isSome → (info e).domain = (info ai).domain)

/-- The searches without a realm, before and after. -/
def SameWithoutRealm (config : LpConfig) (info : α → LinphoneAuthInfo) (authInfo : List α)
    (username domain : Option String) : Prop :=
  (authInfo.find? fun a =>
      decide (Answers (info a) username domain ∧ ¬Hashed config (info a))) =
    authInfo.find? fun a => decide (Answers (info a) username domain)

omit [DecidableEq α] in
theorem sameWithoutRealm_iff : SameWithoutRealm config info authInfo username domain ↔
    ∀ before a after, before ++ a :: after = authInfo →
      Answers (info a) username domain → Hashed config (info a) →
      ∃ e ∈ before, Answers (info e) username domain ∧ ¬Hashed config (info e) := by
  rw [SameWithoutRealm, find?_restrict_iff fun a _ hq => decide_eq_true (of_decide_eq_true hq).1]
  simp only [decide_eq_true_eq, not_and, not_not]
  refine forall₃_congr fun before a after => forall_congr' fun _ => forall_congr' fun hp => ?_
  simp only [hp, true_implies]

omit [DecidableEq α] in
theorem foundBefore_iff : FoundBefore config info authInfo ↔
    ∀ username domain, SameWithoutRealm config info authInfo username domain := by
  simp only [sameWithoutRealm_iff]
  constructor
  · intro h username domain before a after hsplit hfound hhash
    obtain ⟨huser, hname, hdomain, -⟩ := hfound
    obtain ⟨e, he, hha1, hnot, hsame, hdom⟩ := h before a after hsplit hhash (hname ▸ huser)
    refine ⟨e, he, ⟨huser, hsame.trans hname, fun hd => ?_, hha1⟩, hnot⟩
    exact (hdom ((hdomain hd).symm ▸ hd)).trans (hdomain hd)
  · intro h before a after hsplit hhash huser
    obtain ⟨e, he, ⟨-, hname, hdomain, hha1⟩, hnot⟩ :=
      h (info a).username (info a).domain before a after hsplit
        ⟨huser, rfl, fun _ => rfl, hhash.2.1⟩ hhash
    exact ⟨e, he, hha1, hnot, hname, hdomain⟩

omit [DecidableEq α] in
/-- What is searched with a domain first, and then without. -/
theorem sameWithoutRealm_of_or
    (huser : SameWithoutRealm config info authInfo username none)
    (h : (authInfo.find? fun a =>
          decide (Answers (info a) username domain ∧ ¬Hashed config (info a))).or
        (authInfo.find? fun a => decide (Answers (info a) username none)) =
      (authInfo.find? fun a => decide (Answers (info a) username domain)).or
        (authInfo.find? fun a => decide (Answers (info a) username none))) :
    SameWithoutRealm config info authInfo username domain := by
  unfold SameWithoutRealm at huser ⊢
  cases hafter : authInfo.find? fun a =>
      decide (Answers (info a) username domain ∧ ¬Hashed config (info a)) with
  | some e =>
    rw [hafter, Option.some_or] at h
    cases hbefore : authInfo.find? fun a => decide (Answers (info a) username domain) with
    | some a =>
      rw [hbefore, Option.some_or] at h
      exact h
    | none =>
      have hno := List.find?_eq_none.mp hbefore e (List.mem_of_find?_eq_some hafter)
      have hfound := List.find?_some hafter
      rw [decide_eq_true_eq] at hfound
      exact absurd (decide_eq_true hfound.1) hno
  | none =>
    cases hbefore : authInfo.find? fun a => decide (Answers (info a) username domain) with
    | none => rfl
    | some a =>
      rw [hafter, hbefore, Option.none_or, Option.some_or, ← huser] at h
      have hfound := List.find?_some hbefore
      have hleft := List.find?_some h
      rw [decide_eq_true_eq] at hfound hleft
      have hno := List.find?_eq_none.mp hafter a (List.mem_of_find?_eq_some hbefore)
      exact absurd (decide_eq_true ⟨hfound, hleft.2⟩) hno

theorem findEntry_written :
    findEntry behind (writeAuthInfos computeHa1 config info i authInfo).2 authInfo username none
        domain =
      authInfo.find? fun a =>
        decide (Answers (info a) username domain ∧ ¬Hashed config (info a)) := by
  rw [findEntry_withoutRealm]
  refine List.find?_congr fun a ha => ?_
  rw [writeAuthInfos_info, if_pos ha]
  simp only [answers_hashed]

theorem findEntry_written_realm {r : String} :
    findEntry behind (writeAuthInfos computeHa1 config info i authInfo).2 authInfo username
        (some r) domain =
      findEntry behind info authInfo username (some r) domain := by
  refine findEntryLoop_congr none fun a => ?_
  rw [writeAuthInfos_info]
  split
  · exact hashed_fields
  · exact ⟨rfl, rfl, rfl⟩

/-- **Saving is neutral** for every lookup exactly if in front of each entry that gets a hash there
is one that is found instead. -/
theorem saving_neutral_iff (behind : BehindBuffers)
    (computeHa1 : String → String → String → String) (config : LpConfig)
    (info : α → LinphoneAuthInfo) (authInfo : List α) :
    (∀ realm username domain,
        linphoneCoreFindEntry behind (writeAuthInfos computeHa1 config info 0 authInfo).2 authInfo
            realm username domain =
          linphoneCoreFindEntry behind info authInfo realm username domain) ↔
      FoundBefore config info authInfo := by
  rw [foundBefore_iff]
  constructor
  · intro h username domain
    have huser : SameWithoutRealm config info authInfo username none := by
      have hquery := h none username none
      simp only [linphoneCoreFindEntry, Option.isSome_none, Bool.false_eq_true, if_false,
        Option.none_or, findEntry_written] at hquery
      exact hquery.trans findEntry_withoutRealm
    cases domain with
    | none => exact huser
    | some d =>
      have hquery := h none username (some d)
      simp only [linphoneCoreFindEntry, Option.isSome_none, Option.isSome_some, Bool.false_eq_true,
        if_false, if_true, Option.none_or, findEntry_written] at hquery
      rw [findEntry_withoutRealm, findEntry_withoutRealm, huser] at hquery
      exact sameWithoutRealm_of_or huser hquery
  · intro h realm username domain
    have hlast : ∀ domain, findEntry behind (writeAuthInfos computeHa1 config info 0 authInfo).2
        authInfo username none domain = findEntry behind info authInfo username none domain := by
      intro domain
      rw [findEntry_written, findEntry_withoutRealm]
      exact h username domain
    unfold linphoneCoreFindEntry
    cases realm with
    | none => simp only [hlast]
    | some r => simp only [hlast, findEntry_written_realm]

/-- The only entry of a user gets a hash, and is not found by the user name any more. -/
theorem saved_entry_lost :
    let info : Unit → LinphoneAuthInfo := fun _ => aliceAt "a.org" "pa"
    let after := (writeAuthInfos (fun _ _ _ => "5f4dcc3b5aa765d61d8327deb882cf99") ∅ info 0 [()]).2
    linphoneCoreFindEntry (fun _ _ => ([], [])) info [()] none (some "alice") none = some () ∧
      linphoneCoreFindEntry (fun _ _ => ([], [])) after [()] none (some "alice") none = none := by
  decide

end

end Linphone
