import Mathlib.Data.List.Basic
import Mathlib.Data.String.Basic

/-!
# Stored credentials

The list `auth_info` of the core in `coreapi/authentication.c`. `linphone_core_find_auth_info`
searches it four times, each time with less: by realm, by realm and domain, by domain, and by the
user name alone. `linphone_core_add_auth_info` uses the same search to find the entry it replaces.

`own_lookup_iff`: when new credentials take effect for the query they are made for.
`add_auth_info_effect`: what becomes of other queries, when the entry that is replaced is of the
same realm.
-/

namespace Linphone

/-! ## Data -/

structure LinphoneAuthInfo where
  username : Option String := none
  userid : Option String := none
  passwd : Option String := none
  ha1 : Option String := none
  realm : Option String := none
  domain : Option String := none
deriving DecidableEq

/-- `remove_quotes` -/
def removeQuotes : List Char → List Char
  | '"' :: input => input.takeWhile (· ≠ '"')
  | input => input.takeWhile (· ≠ '"')

/-- A realm in a buffer of 128 characters. The copy of a long one has no end, and goes on with what
the memory holds. -/
def realmBuffer (behind : List Char) (realm : String) : List Char :=
  if realm.toList.length < 127 then realm.toList else realm.toList.take 127 ++ behind

/-- What the two buffers go on with when two realms are compared. -/
abbrev BehindBuffers := String → String → List Char × List Char

variable (behind : BehindBuffers)

/-- `realm_match` -/
def realmMatch : Option String → Option String → Bool
  | none, none => true
  | some realm1, some realm2 =>
      realm1 = realm2 ||
        removeQuotes (realmBuffer (behind realm1 realm2).1 realm1) =
          removeQuotes (realmBuffer (behind realm1 realm2).2 realm2)
  | _, _ => false

/-! ## Lookup -/

/-- The loop of `find_auth_info`. -/
def findAuthInfoLoop (username realm domain : Option String) :
    List LinphoneAuthInfo → Option LinphoneAuthInfo → Option LinphoneAuthInfo
  | [], ret => ret
  | pinfo :: elem, ret =>
      if username.isSome ∧ pinfo.username = username then
        match realm, domain with
        | some realm, some domain =>
            if pinfo.realm.isSome ∧ realmMatch behind realm pinfo.realm ∧ pinfo.domain = domain then
              some pinfo
            else findAuthInfoLoop username (some realm) (some domain) elem ret
        | some realm, none =>
            if pinfo.realm.isSome ∧ realmMatch behind realm pinfo.realm then
              if ret.isSome then none
              else findAuthInfoLoop username (some realm) none elem (some pinfo)
            else findAuthInfoLoop username (some realm) none elem ret
        | none, some domain =>
            if pinfo.domain = domain ∧ pinfo.ha1 = none then some pinfo
            else findAuthInfoLoop username none (some domain) elem ret
        | none, none =>
            if pinfo.ha1 = none then some pinfo
            else findAuthInfoLoop username none none elem ret
      else findAuthInfoLoop username realm domain elem ret

/-- `find_auth_info` -/
def findAuthInfo (authInfo : List LinphoneAuthInfo) (username realm domain : Option String) :
    Option LinphoneAuthInfo :=
  findAuthInfoLoop behind username realm domain authInfo none

/-- `linphone_core_find_auth_info` -/
def linphoneCoreFindAuthInfo (authInfo : List LinphoneAuthInfo)
    (realm username domain : Option String) : Option LinphoneAuthInfo :=
  let ai :=
    if realm.isSome then
      (findAuthInfo behind authInfo username realm none).or
        (if domain.isSome then findAuthInfo behind authInfo username realm domain else none)
    else none
  let ai := ai.or
    (if domain.isSome then findAuthInfo behind authInfo username none domain else none)
  ai.or (findAuthInfo behind authInfo username none none)

/-- The list of `linphone_core_add_auth_info`. The entry it finds is the first of its value. -/
def linphoneCoreAddAuthInfo (authInfo : List LinphoneAuthInfo) (info : LinphoneAuthInfo) :
    List LinphoneAuthInfo :=
  if info.ha1 = none ∧ info.passwd = none then authInfo
  else
    match linphoneCoreFindAuthInfo behind authInfo info.realm info.username info.domain with
    | some ai =>
        if ai.domain.isSome ∧ info.domain.isSome ∧ ai.domain = info.domain then
          authInfo.erase ai ++ [info]
        else authInfo ++ [info]
    | none => authInfo ++ [info]

/-! ## The four searches -/

/-- The entries of a user with a realm. -/
def ofRealm (username realm : String) (authInfo : List LinphoneAuthInfo) : List LinphoneAuthInfo :=
  authInfo.filter fun e => e.username = some username ∧ realmMatch behind (some realm) e.realm

/-- The entries of a user with a realm and a domain. -/
def ofRealmDomain (username realm domain : String) (authInfo : List LinphoneAuthInfo) :
    List LinphoneAuthInfo :=
  authInfo.filter fun e => e.username = some username ∧ realmMatch behind (some realm) e.realm ∧
    e.domain = some domain

/-- The entries of a user with a domain and a password. -/
def ofDomain (username domain : String) (authInfo : List LinphoneAuthInfo) :
    List LinphoneAuthInfo :=
  authInfo.filter fun e => e.username = some username ∧ e.domain = some domain ∧ e.ha1 = none

/-- The entries of a user with a password. -/
def ofUser (username : String) (authInfo : List LinphoneAuthInfo) : List LinphoneAuthInfo :=
  authInfo.filter fun e => e.username = some username ∧ e.ha1 = none

/-- The entry of a list that has only one. -/
def unique {α : Type} : List α → Option α
  | [x] => some x
  | _ => none

/-- The first two searches. -/
def byRealm (authInfo : List LinphoneAuthInfo) (username : String) (realm domain : Option String) :
    Option LinphoneAuthInfo :=
  realm.bind fun realm => (unique (ofRealm behind username realm authInfo)).or
    (domain.bind fun domain => (ofRealmDomain behind username realm domain authInfo).head?)

/-- The last two. -/
def withoutRealm (authInfo : List LinphoneAuthInfo) (username : String) (domain : Option String) :
    Option LinphoneAuthInfo :=
  (domain.bind fun domain => (ofDomain username domain authInfo).head?).or
    (ofUser username authInfo).head?

section

variable {behind} {username realm domain : String} {authInfo : List LinphoneAuthInfo}

theorem unique_cons {α : Type} (x : α) (l : List α) :
    unique (x :: l) = if l = [] then some x else none := by
  cases l <;> rfl

theorem realmMatch_isSome {e : LinphoneAuthInfo} :
    (e.realm.isSome ∧ realmMatch behind (some realm) e.realm) ↔
      realmMatch behind (some realm) e.realm := by
  cases e.realm with
  | none => simp [realmMatch]
  | some r => simp

theorem findAuthInfoLoop_realm (ret : Option LinphoneAuthInfo) :
    findAuthInfoLoop behind (some username) (some realm) none authInfo ret =
      if ret.isSome then (if ofRealm behind username realm authInfo = [] then ret else none)
      else unique (ofRealm behind username realm authInfo) := by
  induction authInfo generalizing ret with
  | nil => cases ret <;> rfl
  | cons e authInfo ih =>
    rw [findAuthInfoLoop, ofRealm, List.filter_cons]
    simp only [realmMatch_isSome, Option.isSome_some, true_and]
    by_cases huser : e.username = some username
    · by_cases hrealm : realmMatch behind (some realm) e.realm = true
      · simp only [huser, hrealm, if_true, and_self, decide_true, reduceCtorEq, if_false]
        cases ret with
        | none =>
          simp only [Option.isSome_none, Option.isSome_some, Bool.false_eq_true, if_false, if_true,
            ih, unique_cons]
          rfl
        | some ret => rfl
      · simp only [huser, hrealm, if_true, and_false, decide_false, Bool.false_eq_true, if_false]
        exact ih ret
    · simp only [huser, false_and, decide_false, Bool.false_eq_true, if_false]
      exact ih ret

theorem findAuthInfo_realm :
    findAuthInfo behind authInfo (some username) (some realm) none =
      unique (ofRealm behind username realm authInfo) :=
  findAuthInfoLoop_realm none

/-- A search that returns the first entry of a kind. -/
theorem findAuthInfo_first {realm domain : Option String} {p : LinphoneAuthInfo → Bool}
    (hstep : ∀ e l, findAuthInfoLoop behind (some username) realm domain (e :: l) none =
      if p e then some e else findAuthInfoLoop behind (some username) realm domain l none) :
    findAuthInfo behind authInfo (some username) realm domain = (authInfo.filter p).head? := by
  unfold findAuthInfo
  induction authInfo with
  | nil => rfl
  | cons e authInfo ih =>
    rw [hstep, List.filter_cons]
    by_cases hp : p e = true
    · rw [if_pos hp, if_pos hp, List.head?_cons]
    · rw [if_neg hp, if_neg hp, ih]

theorem findAuthInfo_realmDomain :
    findAuthInfo behind authInfo (some username) (some realm) (some domain) =
      (ofRealmDomain behind username realm domain authInfo).head? := by
  refine findAuthInfo_first fun e l => ?_
  rw [findAuthInfoLoop]
  simp only [← and_assoc, realmMatch_isSome, Option.isSome_some, true_and, decide_eq_true_eq]
  by_cases huser : e.username = some username <;> simp [huser]

theorem findAuthInfo_domain :
    findAuthInfo behind authInfo (some username) none (some domain) =
      (ofDomain username domain authInfo).head? := by
  refine findAuthInfo_first fun e l => ?_
  rw [findAuthInfoLoop]
  by_cases huser : e.username = some username <;> simp [huser]

theorem findAuthInfo_user :
    findAuthInfo behind authInfo (some username) none none = (ofUser username authInfo).head? := by
  refine findAuthInfo_first fun e l => ?_
  rw [findAuthInfoLoop]
  by_cases huser : e.username = some username <;> simp [huser]

/-- **The lookup** as four searches. -/
theorem linphoneCoreFindAuthInfo_eq (realm domain : Option String) :
    linphoneCoreFindAuthInfo behind authInfo realm (some username) domain =
      (byRealm behind authInfo username realm domain).or
        (withoutRealm authInfo username domain) := by
  unfold linphoneCoreFindAuthInfo byRealm withoutRealm
  cases realm with
  | none =>
    cases domain with
    | none => simp [findAuthInfo_user]
    | some domain => simp [findAuthInfo_user, findAuthInfo_domain]
  | some realm =>
    cases domain with
    | none => simp [findAuthInfo_user, findAuthInfo_realm]
    | some domain =>
      simp [findAuthInfo_user, findAuthInfo_domain, findAuthInfo_realm, findAuthInfo_realmDomain,
        Option.or_assoc]

theorem linphoneCoreFindAuthInfo_none (realm domain : Option String) :
    linphoneCoreFindAuthInfo behind authInfo realm none domain = none := by
  have hloop : ∀ realm domain, findAuthInfo behind authInfo none realm domain = none := by
    intro realm domain
    unfold findAuthInfo
    induction authInfo with
    | nil => rfl
    | cons e authInfo ih => simpa [findAuthInfoLoop] using ih
  simp [linphoneCoreFindAuthInfo, hloop]

/-! ## What is kept -/

variable {info : LinphoneAuthInfo}

/-- The list without the entry that is replaced. -/
def keptAuthInfos (behind : BehindBuffers) (authInfo : List LinphoneAuthInfo)
    (info : LinphoneAuthInfo) : List LinphoneAuthInfo :=
  match linphoneCoreFindAuthInfo behind authInfo info.realm info.username info.domain with
  | some ai =>
      if ai.domain.isSome ∧ info.domain.isSome ∧ ai.domain = info.domain then authInfo.erase ai
      else authInfo
  | none => authInfo

theorem linphoneCoreAddAuthInfo_eq (h : ¬(info.ha1 = none ∧ info.passwd = none)) :
    linphoneCoreAddAuthInfo behind authInfo info = keptAuthInfos behind authInfo info ++
      [info] := by
  unfold linphoneCoreAddAuthInfo keptAuthInfos
  rw [if_neg h]
  split
  · split <;> rfl
  · rfl

theorem keptAuthInfos_of_no_domain (h : info.domain = none) :
    keptAuthInfos behind authInfo info = authInfo := by
  unfold keptAuthInfos
  split
  · rw [if_neg (by simp [h])]
  · rfl

theorem keptAuthInfos_of_found {ai : LinphoneAuthInfo} (hdomain : info.domain = some domain)
    (h : linphoneCoreFindAuthInfo behind authInfo info.realm info.username info.domain = some ai) :
    keptAuthInfos behind authInfo info =
      if ai.domain = some domain then authInfo.erase ai else authInfo := by
  unfold keptAuthInfos
  rw [h]
  by_cases heq : ai.domain = some domain <;> simp [heq, hdomain]

theorem filter_erase_of_neg {p : LinphoneAuthInfo → Bool} {ai : LinphoneAuthInfo}
    (h : p ai = false) (l : List LinphoneAuthInfo) : (l.erase ai).filter p = l.filter p := by
  rw [← List.erase_filter, List.erase_of_not_mem]
  intro hmem
  rw [List.mem_filter, h] at hmem
  exact absurd hmem.2 (by decide)

/-- What was searched for with the domain of the new entry loses its first. -/
theorem filter_keptAuthInfos {p : LinphoneAuthInfo → Bool} (hdomain : info.domain = some domain)
    (hp : ∀ e, p e = true → e.domain = some domain)
    (hfirst : ∀ ai, linphoneCoreFindAuthInfo behind authInfo info.realm info.username info.domain =
      some ai → (authInfo.filter p).head? = some ai ∨ authInfo.filter p = [])
    (hsome : authInfo.filter p ≠ [] →
      (linphoneCoreFindAuthInfo behind authInfo info.realm info.username info.domain).isSome) :
    (keptAuthInfos behind authInfo info).filter p = (authInfo.filter p).drop 1 := by
  cases hfound : linphoneCoreFindAuthInfo behind authInfo info.realm info.username info.domain with
  | none =>
    have hnil : authInfo.filter p = [] := by
      by_contra hne
      have := hsome hne
      rw [hfound] at this
      cases this
    unfold keptAuthInfos
    rw [hfound, hnil]
    rfl
  | some ai =>
    rw [keptAuthInfos_of_found hdomain hfound]
    rcases hfirst ai hfound with hhead | hnil
    · have hmem : ai ∈ authInfo.filter p := List.mem_of_head? hhead
      rw [if_pos (hp ai (List.mem_filter.mp hmem).2), ← List.erase_filter]
      cases hl : authInfo.filter p with
      | nil => rfl
      | cons x l =>
        rw [hl] at hhead
        obtain rfl := Option.some.inj hhead
        rw [List.erase_cons_head]
        rfl
    · split
      · rw [← List.erase_filter, hnil]
        rfl
      · rw [hnil]
        rfl

/-! ## The query of the new entry -/

/-- An answer with the password or hash of the new entry. -/
def SameSecret (answer : Option LinphoneAuthInfo) (info : LinphoneAuthInfo) : Prop :=
  ∃ ai, answer = some ai ∧ ai.passwd = info.passwd ∧ ai.ha1 = info.ha1

theorem filter_append_info (p : LinphoneAuthInfo → Bool) (l : List LinphoneAuthInfo) :
    (l ++ [info]).filter p = l.filter p ++ if p info then [info] else [] := by
  rw [List.filter_append, List.filter_singleton, cond_eq_ite]

theorem realmMatch_self (realm : Option String) : realmMatch behind realm realm := by
  cases realm <;> simp [realmMatch]

theorem ofRealmDomain_eq :
    ofRealmDomain behind username realm domain authInfo =
      (ofRealm behind username realm authInfo).filter fun e => e.domain = some domain := by
  rw [ofRealmDomain, ofRealm, List.filter_filter]
  refine List.filter_congr fun e _ => ?_
  rw [← Bool.decide_and]
  exact decide_eq_decide.mpr ⟨fun ⟨hu, hr, hd⟩ => ⟨hd, hu, hr⟩, fun ⟨hd, hu, hr⟩ => ⟨hu, hr, hd⟩⟩

theorem unique_append_singleton {α : Type} (l : List α) (x : α) :
    unique (l ++ [x]) = if l = [] then some x else none := by
  match l with
  | [] => rfl
  | [y] => rfl
  | y :: z :: l => rfl

theorem own_lookup_realmDomain (huser : info.username = some username)
    (hrealm : info.realm = some realm) (hdomain : info.domain = some domain) :
    linphoneCoreFindAuthInfo behind (keptAuthInfos behind authInfo info ++ [info]) (some realm)
        (some username) (some domain) =
      ((ofRealmDomain behind username realm domain authInfo).drop 1 ++ [info]).head? := by
  have hinfo : realmMatch behind (some realm) info.realm = true := hrealm ▸ realmMatch_self _
  have hfind : linphoneCoreFindAuthInfo behind authInfo info.realm info.username info.domain =
      ((unique (ofRealm behind username realm authInfo)).or
        (ofRealmDomain behind username realm domain authInfo).head?).or
          (withoutRealm authInfo username (some domain)) := by
    rw [hrealm, huser, hdomain, linphoneCoreFindAuthInfo_eq]
    rfl
  have hkept : ofRealmDomain behind username realm domain (keptAuthInfos behind authInfo info) =
      (ofRealmDomain behind username realm domain authInfo).drop 1 := by
    refine filter_keptAuthInfos hdomain (fun e he => ?_) (fun ai hai => ?_) fun hne => ?_
    · exact (of_decide_eq_true he).2.2
    · rw [hfind] at hai
      change (ofRealmDomain behind username realm domain authInfo).head? = some ai ∨
        ofRealmDomain behind username realm domain authInfo = []
      rw [ofRealmDomain_eq] at hai ⊢
      match hm : ofRealm behind username realm authInfo with
      | [] => exact .inr rfl
      | [m] =>
        rw [hm] at hai
        obtain rfl := Option.some.inj hai
        by_cases hm' : m.domain = some domain
        · exact .inl (by simp [hm'])
        · exact .inr (by simp [hm'])
      | m :: m' :: l =>
        rw [hm] at hai
        cases hn : (m :: m' :: l).filter fun e => e.domain = some domain with
        | nil => exact .inr rfl
        | cons n t =>
          rw [hn] at hai
          exact .inl hai
    · rw [hfind]
      obtain ⟨n, t, hn⟩ := List.exists_cons_of_ne_nil hne
      change ofRealmDomain behind username realm domain authInfo = n :: t at hn
      rw [hn]
      simp
  have hrealms : ofRealm behind username realm (keptAuthInfos behind authInfo info ++ [info]) =
      ofRealm behind username realm (keptAuthInfos behind authInfo info) ++ [info] := by
    rw [ofRealm, filter_append_info, if_pos (decide_eq_true ⟨huser, hinfo⟩)]
    rfl
  have hdomains : ofRealmDomain behind username realm domain
      (keptAuthInfos behind authInfo info ++ [info]) =
        (ofRealmDomain behind username realm domain authInfo).drop 1 ++ [info] := by
    rw [ofRealmDomain, filter_append_info, if_pos (decide_eq_true ⟨huser, hinfo, hdomain⟩), ← hkept]
    rfl
  rw [linphoneCoreFindAuthInfo_eq]
  change ((unique (ofRealm behind username realm _)).or
    (ofRealmDomain behind username realm domain _).head?).or _ = _
  rw [hrealms, hdomains, unique_append_singleton]
  split
  · rename_i hnil
    rw [← hkept, ofRealmDomain_eq, hnil]
    rfl
  · obtain ⟨n, hn⟩ : ∃ n, ((ofRealmDomain behind username realm domain authInfo).drop 1 ++
        [info]).head? = some n := by
      cases (ofRealmDomain behind username realm domain authInfo).drop 1 <;> exact ⟨_, rfl⟩
    rw [hn]
    rfl

theorem own_lookup_realm (huser : info.username = some username)
    (hrealm : info.realm = some realm) (hdomain : info.domain = none) :
    linphoneCoreFindAuthInfo behind (keptAuthInfos behind authInfo info ++ [info]) (some realm)
        (some username) none =
      if ofRealm behind username realm authInfo = [] then some info
      else (ofUser username authInfo ++ if info.ha1 = none then [info] else []).head? := by
  have hinfo : realmMatch behind (some realm) info.realm = true := hrealm ▸ realmMatch_self _
  have hrealms : ofRealm behind username realm (authInfo ++ [info]) =
      ofRealm behind username realm authInfo ++ [info] := by
    rw [ofRealm, filter_append_info, if_pos (decide_eq_true ⟨huser, hinfo⟩)]
    rfl
  have husers : ofUser username (authInfo ++ [info]) =
      ofUser username authInfo ++ if info.ha1 = none then [info] else [] := by
    rw [ofUser, filter_append_info]
    simp [huser, ofUser]
  rw [keptAuthInfos_of_no_domain hdomain, linphoneCoreFindAuthInfo_eq]
  change ((unique (ofRealm behind username realm _)).or none).or (none.or _) = _
  rw [hrealms, husers, unique_append_singleton]
  split <;> rfl

theorem own_lookup_domain (huser : info.username = some username) (hrealm : info.realm = none)
    (hdomain : info.domain = some domain) :
    linphoneCoreFindAuthInfo behind (keptAuthInfos behind authInfo info ++ [info]) none
        (some username) (some domain) =
      ((ofDomain username domain authInfo).drop 1 ++
          if info.ha1 = none then [info] else []).head?.or
        (ofUser username (keptAuthInfos behind authInfo info) ++
          if info.ha1 = none then [info] else []).head? := by
  have hfind : linphoneCoreFindAuthInfo behind authInfo info.realm info.username info.domain =
      (ofDomain username domain authInfo).head?.or (ofUser username authInfo).head? := by
    rw [hrealm, huser, hdomain, linphoneCoreFindAuthInfo_eq]
    rfl
  have hkept : ofDomain username domain (keptAuthInfos behind authInfo info) =
      (ofDomain username domain authInfo).drop 1 := by
    refine filter_keptAuthInfos hdomain (fun e he => ?_) (fun ai hai => ?_) fun hne => ?_
    · exact (of_decide_eq_true he).2.1
    · rw [hfind] at hai
      change (ofDomain username domain authInfo).head? = some ai ∨
        ofDomain username domain authInfo = []
      cases hl : ofDomain username domain authInfo with
      | nil => exact .inr rfl
      | cons k l =>
        rw [hl] at hai
        exact .inl hai
    · rw [hfind]
      obtain ⟨k, l, hl⟩ := List.exists_cons_of_ne_nil hne
      change ofDomain username domain authInfo = k :: l at hl
      rw [hl]
      rfl
  have hdomains : ofDomain username domain (keptAuthInfos behind authInfo info ++ [info]) =
      (ofDomain username domain authInfo).drop 1 ++ if info.ha1 = none then [info] else [] := by
    rw [ofDomain, filter_append_info, ← hkept]
    simp [huser, hdomain, ofDomain]
  have husers : ofUser username (keptAuthInfos behind authInfo info ++ [info]) =
      ofUser username (keptAuthInfos behind authInfo info) ++
        if info.ha1 = none then [info] else [] := by
    rw [ofUser, filter_append_info]
    simp [huser, ofUser]
  rw [linphoneCoreFindAuthInfo_eq]
  change (none.or ((ofDomain username domain _).head?.or _)) = _
  rw [hdomains, husers]
  rfl

theorem own_lookup_user (huser : info.username = some username) (hdomain : info.domain = none) :
    linphoneCoreFindAuthInfo behind (keptAuthInfos behind authInfo info ++ [info]) none
        (some username) none =
      (ofUser username authInfo ++ if info.ha1 = none then [info] else []).head? := by
  have husers : ofUser username (authInfo ++ [info]) =
      ofUser username authInfo ++ if info.ha1 = none then [info] else [] := by
    rw [ofUser, filter_append_info]
    simp [huser, ofUser]
  rw [keptAuthInfos_of_no_domain hdomain, linphoneCoreFindAuthInfo_eq]
  change none.or (none.or _) = _
  rw [husers]
  rfl

/-- An older entry does not stand in front of the new one: no second entry with its realm and
domain, or with its domain where it has no realm; and where it has no domain, no other entry with
its realm, or no older password. -/
def TakesEffect (behind : BehindBuffers) (authInfo : List LinphoneAuthInfo)
    (info : LinphoneAuthInfo) (username : String) : Prop :=
  match info.realm, info.domain with
  | some realm, some domain =>
      ∀ e ∈ (ofRealmDomain behind username realm domain authInfo)[1]?,
        e.passwd = info.passwd ∧ e.ha1 = info.ha1
  | some realm, none =>
      ofRealm behind username realm authInfo = [] ∨
        info.ha1 = none ∧ ∀ e ∈ (ofUser username authInfo).head?, e.passwd = info.passwd
  | none, some domain =>
      info.ha1 = none ∧ ∀ e ∈ (ofDomain username domain authInfo)[1]?, e.passwd = info.passwd
  | none, none =>
      info.ha1 = none ∧ ∀ e ∈ (ofUser username authInfo).head?, e.passwd = info.passwd

theorem sameSecret_some {ai : LinphoneAuthInfo} :
    SameSecret (some ai) info ↔ ai.passwd = info.passwd ∧ ai.ha1 = info.ha1 := by
  constructor
  · rintro ⟨ai', hai, hsame⟩
    obtain rfl := Option.some.inj hai
    exact hsame
  · exact fun hsame => ⟨ai, rfl, hsame⟩

theorem sameSecret_append (l : List LinphoneAuthInfo) :
    SameSecret (l ++ [info]).head? info ↔
      ∀ e ∈ l.head?, e.passwd = info.passwd ∧ e.ha1 = info.ha1 := by
  cases l with
  | nil => exact iff_of_true (sameSecret_some.mpr ⟨rfl, rfl⟩) fun e he => by cases he
  | cons e l =>
    refine sameSecret_some.trans ⟨fun h x hx => ?_, fun h => h e rfl⟩
    obtain rfl := Option.some.inj hx
    exact h

/-- Entries with a password, then the new one if it has no hash. -/
theorem sameSecret_passwords {l : List LinphoneAuthInfo} (hl : ∀ e ∈ l, e.ha1 = none)
    {other : Option LinphoneAuthInfo} (hother : ∀ e ∈ other, e.ha1 = none ∨ info.ha1 = none) :
    SameSecret ((l ++ if info.ha1 = none then [info] else []).head?.or other) info ↔
      info.ha1 = none ∧ ∀ e ∈ l.head?, e.passwd = info.passwd := by
  by_cases hha1 : info.ha1 = none
  · have hor : (l ++ [info]).head?.or other = (l ++ [info]).head? := by cases l <;> rfl
    rw [if_pos hha1, hor, sameSecret_append]
    refine ⟨fun h => ⟨hha1, fun e he => (h e he).1⟩, fun h e he => ⟨h.2 e he, ?_⟩⟩
    rw [hha1, hl e (List.mem_of_head? he)]
  · refine iff_of_false ?_ fun h => hha1 h.1
    rw [if_neg hha1, List.append_nil]
    rintro ⟨ai, hai, -, hsame⟩
    cases l with
    | nil => exact hha1 (hsame ▸ (hother ai hai).resolve_right hha1)
    | cons e l =>
      obtain rfl := Option.some.inj hai
      exact hha1 (hsame ▸ hl e (by simp))

theorem ha1_of_mem_ofUser {e : LinphoneAuthInfo} {l : List LinphoneAuthInfo}
    (h : e ∈ ofUser username l) : e.ha1 = none :=
  (of_decide_eq_true (List.mem_filter.mp h).2).2

theorem ha1_of_mem_ofDomain {e : LinphoneAuthInfo} {l : List LinphoneAuthInfo}
    (h : e ∈ ofDomain username domain l) : e.ha1 = none :=
  (of_decide_eq_true (List.mem_filter.mp h).2).2.2

/-- **New credentials take effect** for the query they are made for exactly when no older entry
stands in front of them. -/
theorem own_lookup_iff (huser : info.username = some username)
    (hsecret : ¬(info.ha1 = none ∧ info.passwd = none)) :
    SameSecret (linphoneCoreFindAuthInfo behind (linphoneCoreAddAuthInfo behind authInfo info)
        info.realm info.username info.domain) info ↔
      TakesEffect behind authInfo info username := by
  rw [linphoneCoreAddAuthInfo_eq hsecret, huser]
  unfold TakesEffect
  cases hrealm : info.realm with
  | some realm =>
    cases hdomain : info.domain with
    | some domain =>
      rw [own_lookup_realmDomain huser hrealm hdomain, sameSecret_append, List.head?_drop]
    | none =>
      rw [own_lookup_realm huser hrealm hdomain]
      split
      · rename_i hnil
        exact iff_of_true (sameSecret_some.mpr ⟨rfl, rfl⟩) (.inl hnil)
      · rename_i hne
        have hpasswords := @sameSecret_passwords info (ofUser username authInfo)
          (fun e he => ha1_of_mem_ofUser he) none fun e he => by cases he
        rw [Option.or_none] at hpasswords
        rw [hpasswords]
        exact ⟨.inr, fun h => h.resolve_left hne⟩
  | none =>
    cases hdomain : info.domain with
    | some domain =>
      rw [own_lookup_domain huser hrealm hdomain, sameSecret_passwords, List.head?_drop]
      · exact fun e he => ha1_of_mem_ofDomain (List.mem_of_mem_drop he)
      · intro e he
        by_cases hha1 : info.ha1 = none
        · exact .inr hha1
        · rw [if_neg hha1, List.append_nil] at he
          exact .inl (ha1_of_mem_ofUser (List.mem_of_head? he))
    | none =>
      rw [own_lookup_user huser hdomain]
      have hpasswords := @sameSecret_passwords info (ofUser username authInfo)
        (fun e he => ha1_of_mem_ofUser he) none fun e he => by cases he
      rw [Option.or_none] at hpasswords
      exact hpasswords

/-! ## Other queries -/

/-- A realm that fits into the buffers it is compared in. -/
def ShortRealm (realm : Option String) : Prop := ∀ r ∈ realm, r.toList.length < 127

/-- Short realms are compared without their quotes. -/
theorem realmMatch_iff {a b : Option String} (ha : ShortRealm a) (hb : ShortRealm b) :
    realmMatch behind a b = true ↔
      a.map (removeQuotes ·.toList) = b.map (removeQuotes ·.toList) := by
  cases a with
  | none => cases b <;> simp [realmMatch]
  | some a =>
    cases b with
    | none => simp [realmMatch]
    | some b =>
      have hbuffers : ∀ (r : String) (x : List Char), r.toList.length < 127 →
          realmBuffer x r = r.toList := fun r x hr => if_pos hr
      simp only [realmMatch, hbuffers a _ (ha a rfl), hbuffers b _ (hb b rfl), Bool.or_eq_true,
        decide_eq_true_eq, Option.map_some, Option.some.injEq]
      exact ⟨fun h => h.elim (fun heq => by rw [heq]) id, .inr⟩

theorem unique_eq_some {α : Type} {l : List α} {x : α} (h : unique l = some x) : l = [x] := by
  match l, h with
  | [_], h => rw [Option.some.inj h]

/-- What an answer has by the user name and the first two searches. -/
theorem byRealm_eq_some {ai : LinphoneAuthInfo} {realm domain : Option String}
    (h : byRealm behind authInfo username realm domain = some ai) :
    ai ∈ authInfo ∧ ai.username = some username ∧ realm.isSome ∧
      realmMatch behind realm ai.realm := by
  obtain ⟨r, rfl, h⟩ := Option.bind_eq_some_iff.mp h
  have hmem : ai ∈ ofRealm behind username r authInfo := by
    rcases Option.or_eq_some_iff.mp h with hunique | ⟨-, hhead⟩
    · rw [unique_eq_some hunique]
      exact List.mem_singleton_self ai
    · obtain ⟨d, -, hhead⟩ := Option.bind_eq_some_iff.mp hhead
      rw [ofRealmDomain_eq] at hhead
      exact (List.mem_filter.mp (List.mem_of_head? hhead)).1
  obtain ⟨hai, hp⟩ := List.mem_filter.mp hmem
  exact ⟨hai, (of_decide_eq_true hp).1, rfl, (of_decide_eq_true hp).2⟩

theorem withoutRealm_eq_some {ai : LinphoneAuthInfo} {domain : Option String}
    (h : withoutRealm authInfo username domain = some ai) :
    ai ∈ authInfo ∧ ai.username = some username := by
  rcases Option.or_eq_some_iff.mp h with hdomain | ⟨-, huser⟩
  · obtain ⟨d, -, hhead⟩ := Option.bind_eq_some_iff.mp hdomain
    obtain ⟨hai, hp⟩ := List.mem_filter.mp (List.mem_of_head? hhead)
    exact ⟨hai, (of_decide_eq_true hp).1⟩
  · obtain ⟨hai, hp⟩ := List.mem_filter.mp (List.mem_of_head? huser)
    exact ⟨hai, (of_decide_eq_true hp).1⟩

/-- The answer to a query is an entry of its user. -/
theorem linphoneCoreFindAuthInfo_eq_some {ai : LinphoneAuthInfo}
    {realm username domain : Option String}
    (h : linphoneCoreFindAuthInfo behind authInfo realm username domain = some ai) :
    ai ∈ authInfo ∧ ai.username = username ∧ username.isSome := by
  cases username with
  | none =>
    rw [linphoneCoreFindAuthInfo_none] at h
    cases h
  | some username =>
    rw [linphoneCoreFindAuthInfo_eq] at h
    rcases Option.or_eq_some_iff.mp h with hrealm | ⟨-, hother⟩
    · obtain ⟨hai, huser, -⟩ := byRealm_eq_some hrealm
      exact ⟨hai, huser, rfl⟩
    · obtain ⟨hai, huser⟩ := withoutRealm_eq_some hother
      exact ⟨hai, huser, rfl⟩

/-- An entry is the one that is replaced. -/
def Replaced (behind : BehindBuffers) (authInfo : List LinphoneAuthInfo)
    (info ai : LinphoneAuthInfo) : Prop :=
  linphoneCoreFindAuthInfo behind authInfo info.realm info.username info.domain = some ai ∧
    ai.domain.isSome ∧ ai.domain = info.domain

theorem keptAuthInfos_cases (behind : BehindBuffers) (authInfo : List LinphoneAuthInfo)
    (info : LinphoneAuthInfo) :
    keptAuthInfos behind authInfo info = authInfo ∨
      ∃ ai, Replaced behind authInfo info ai ∧
        keptAuthInfos behind authInfo info = authInfo.erase ai := by
  unfold keptAuthInfos
  split
  · rename_i ai hai
    split
    · rename_i h
      exact .inr ⟨ai, ⟨hai, h.1, h.2.2⟩, rfl⟩
    · exact .inl rfl
  · exact .inl rfl

variable {p : LinphoneAuthInfo → Bool}

theorem filter_kept_of_neg (h : ∀ ai, Replaced behind authInfo info ai → p ai = false) :
    (keptAuthInfos behind authInfo info).filter p = authInfo.filter p := by
  rcases keptAuthInfos_cases behind authInfo info with heq | ⟨ai, hai, heq⟩
  · rw [heq]
  · rw [heq, filter_erase_of_neg (h ai hai)]

theorem filter_kept_nil (h : authInfo.filter p = []) :
    (keptAuthInfos behind authInfo info).filter p = [] := by
  rcases keptAuthInfos_cases behind authInfo info with heq | ⟨ai, hai, heq⟩
  · rw [heq, h]
  · rw [heq, ← List.erase_filter, h]
    rfl

/-- The first that is found stays the first, if it is not replaced. -/
theorem head_filter_kept {e : LinphoneAuthInfo} (h : (authInfo.filter p).head? = some e)
    (hne : ¬Replaced behind authInfo info e) :
    ((keptAuthInfos behind authInfo info).filter p).head? = some e := by
  rcases keptAuthInfos_cases behind authInfo info with heq | ⟨ai, hai, heq⟩
  · rw [heq, h]
  · rw [heq, ← List.erase_filter]
    cases hl : authInfo.filter p with
    | nil =>
      rw [hl] at h
      cases h
    | cons x l =>
      rw [hl] at h
      obtain rfl := Option.some.inj h
      have hxai : x ≠ ai := by
        rintro rfl
        exact hne hai
      rw [List.erase_cons_tail (by simpa using hxai)]
      rfl

theorem head_append_of_some {α : Type} {l l' : List α} {x : α} (h : l.head? = some x) :
    (l ++ l').head? = some x := by
  cases l with
  | nil => cases h
  | cons y l => exact h

/-- The last two searches find the same, or the new entry by its domain. -/
theorem withoutRealm_kept {e : LinphoneAuthInfo} {domain : Option String}
    (h : withoutRealm authInfo username domain = some e) (hne : ¬Replaced behind authInfo info e) :
    withoutRealm (keptAuthInfos behind authInfo info ++ [info]) username domain = some e ∨
      withoutRealm (keptAuthInfos behind authInfo info ++ [info]) username domain = some info ∧
        domain.isSome ∧ domain = info.domain ∧ e.domain ≠ info.domain := by
  have huser : ∀ {e}, (ofUser username authInfo).head? = some e → ¬Replaced behind authInfo info e →
      (ofUser username (keptAuthInfos behind authInfo info ++ [info])).head? = some e := by
    intro e he hne
    rw [ofUser, filter_append_info]
    exact head_append_of_some (head_filter_kept he hne)
  unfold withoutRealm at h ⊢
  cases domain with
  | none => exact .inl (huser h hne)
  | some d =>
    rw [Option.bind_some] at h ⊢
    rcases Option.or_eq_some_iff.mp h with hdomain | ⟨hnone, hhead⟩
    · refine .inl (Option.or_eq_some_iff.mpr (.inl ?_))
      rw [ofDomain, filter_append_info]
      exact head_append_of_some (head_filter_kept hdomain hne)
    · have hnil : ofDomain username d authInfo = [] := List.head?_eq_none_iff.mp hnone
      rw [ofDomain, filter_append_info, filter_kept_nil hnil, List.nil_append]
      split
      · rename_i hinfo
        obtain ⟨-, hd, -⟩ := of_decide_eq_true hinfo
        refine .inr ⟨rfl, rfl, hd.symm, fun heq => ?_⟩
        obtain ⟨hmem, hp⟩ := List.mem_filter.mp (List.mem_of_head? hhead)
        obtain ⟨hu, hha1⟩ := of_decide_eq_true hp
        have hin : e ∈ ofDomain username d authInfo :=
          List.mem_filter.mpr ⟨hmem, decide_eq_true ⟨hu, heq.trans hd, hha1⟩⟩
        rw [hnil] at hin
        cases hin
      · exact .inl (huser hhead hne)

/-- The first two searches, for a realm the new entry and the replaced one are not of. -/
theorem byRealm_kept_other {domain : Option String}
    (hinfo : ¬(info.username = some username ∧ realmMatch behind (some realm) info.realm))
    (hreplaced : ∀ ai, Replaced behind authInfo info ai →
      ¬(ai.username = some username ∧ realmMatch behind (some realm) ai.realm)) :
    byRealm behind (keptAuthInfos behind authInfo info ++ [info]) username (some realm) domain =
      byRealm behind authInfo username (some realm) domain := by
  have hrealms : ofRealm behind username realm (keptAuthInfos behind authInfo info ++ [info]) =
      ofRealm behind username realm authInfo := by
    rw [ofRealm, filter_append_info, if_neg (by simpa using hinfo), List.append_nil,
      filter_kept_of_neg fun ai hai => decide_eq_false (hreplaced ai hai)]
    rfl
  unfold byRealm
  simp only [Option.bind_some, ofRealmDomain_eq, hrealms]

/-- The first two searches, for the realm of the new entry when they found nothing. -/
theorem byRealm_kept_own {domain : Option String} (huser : info.username = some username)
    (hmatch : realmMatch behind (some realm) info.realm)
    (hnone : byRealm behind authInfo username (some realm) domain = none) :
    byRealm behind (keptAuthInfos behind authInfo info ++ [info]) username (some realm) domain =
        none ∨
      byRealm behind (keptAuthInfos behind authInfo info ++ [info]) username (some realm) domain =
        some info := by
  have hrealms : ofRealm behind username realm (keptAuthInfos behind authInfo info ++ [info]) =
      ofRealm behind username realm (keptAuthInfos behind authInfo info) ++ [info] := by
    rw [ofRealm, filter_append_info, if_pos (decide_eq_true ⟨huser, hmatch⟩)]
    rfl
  unfold byRealm at hnone ⊢
  rw [Option.bind_some] at hnone ⊢
  rw [hrealms, unique_append_singleton]
  split
  · exact .inr rfl
  · cases domain with
    | none => exact .inl rfl
    | some d =>
      have hnil : ofRealmDomain behind username realm d authInfo = [] :=
        List.head?_eq_none_iff.mp (Option.or_eq_none_iff.mp hnone).2
      rw [Option.none_or, Option.bind_some, ofRealmDomain, filter_append_info,
        filter_kept_nil hnil, List.nil_append]
      split
      · exact .inr rfl
      · exact .inl rfl

/-- The new entry has the realm of a query, or the domain that the old answer does not have. -/
def BetterMatch (behind : BehindBuffers) (info e : LinphoneAuthInfo)
    (realm domain : Option String) : Prop :=
  realm.isSome ∧ realmMatch behind realm info.realm ∨
    domain.isSome ∧ domain = info.domain ∧ e.domain ≠ info.domain

/-- **Other queries**: an answer of another realm stays, unless the new entry is a better one. -/
theorem other_lookup {e : LinphoneAuthInfo} {realm username domain : Option String}
    (hsecret : ¬(info.ha1 = none ∧ info.passwd = none))
    (hentries : ∀ x ∈ authInfo, ShortRealm x.realm) (hinfo : ShortRealm info.realm)
    (hreplaced : ∀ ai, Replaced behind authInfo info ai → realmMatch behind ai.realm info.realm)
    (hrealm : ShortRealm realm)
    (h : linphoneCoreFindAuthInfo behind authInfo realm username domain = some e)
    (hother : realmMatch behind e.realm info.realm = false) :
    linphoneCoreFindAuthInfo behind (linphoneCoreAddAuthInfo behind authInfo info) realm username
        domain = some e ∨
      linphoneCoreFindAuthInfo behind (linphoneCoreAddAuthInfo behind authInfo info) realm username
        domain = some info ∧ BetterMatch behind info e realm domain := by
  have hne : ¬Replaced behind authInfo info e := fun hrep => by
    rw [hreplaced e hrep] at hother
    cases hother
  obtain ⟨hmem, -, hsome⟩ := linphoneCoreFindAuthInfo_eq_some h
  cases username with
  | none => cases hsome
  | some username =>
    rw [linphoneCoreAddAuthInfo_eq hsecret, linphoneCoreFindAuthInfo_eq] at *
    have hlast : ∀ first, first = none → withoutRealm authInfo username domain = some e →
        (first.or (withoutRealm (keptAuthInfos behind authInfo info ++ [info]) username domain) =
            some e ∨
          first.or (withoutRealm (keptAuthInfos behind authInfo info ++ [info]) username domain) =
            some info ∧ BetterMatch behind info e realm domain) := by
      rintro first rfl hold
      rcases withoutRealm_kept hold hne with hsame | ⟨hnew, hbetter⟩
      · exact .inl hsame
      · exact .inr ⟨hnew, .inr hbetter⟩
    cases realm with
    | none => exact hlast none rfl h
    | some r =>
      have hentry : ∀ x ∈ authInfo, realmMatch behind (some r) x.realm →
          (realmMatch behind x.realm info.realm ↔ realmMatch behind (some r) info.realm) := by
        intro x hx hmatch
        rw [realmMatch_iff hrealm (hentries x hx)] at hmatch
        rw [realmMatch_iff (hentries x hx) hinfo, realmMatch_iff hrealm hinfo, hmatch]
      by_cases hm : realmMatch behind (some r) info.realm = true
      · have hnone : byRealm behind authInfo username (some r) domain = none := by
          cases hfirst : byRealm behind authInfo username (some r) domain with
          | none => rfl
          | some e' =>
            rw [hfirst] at h
            obtain rfl := Option.some.inj h
            have hsame := (hentry e' hmem (byRealm_eq_some hfirst).2.2.2).mpr hm
            rw [hother] at hsame
            cases hsame
        rw [hnone] at h
        by_cases huser : info.username = some username
        · rcases byRealm_kept_own huser hm hnone with hfirst | hfirst
          · exact hlast _ hfirst h
          · rw [hfirst]
            exact .inr ⟨rfl, .inl ⟨rfl, hm⟩⟩
        · refine hlast _ ((byRealm_kept_other (fun hi => huser hi.1) fun ai hai hp => ?_).trans
            hnone) h
          exact huser ((linphoneCoreFindAuthInfo_eq_some hai.1).2.1.symm.trans hp.1)
      · have hfirst := @byRealm_kept_other behind username r authInfo info domain
          (fun hi => hm hi.2) fun ai hai hp => hm <|
            (hentry ai (linphoneCoreFindAuthInfo_eq_some hai.1).1 hp.2).mp (hreplaced ai hai)
        rcases Option.or_eq_some_iff.mp h with hold | ⟨hnone, hold⟩
        · rw [hfirst, hold]
          exact .inl rfl
        · exact hlast _ (hfirst.trans hnone) hold

/-- **Adding credentials**: they take effect for their own query when no older entry stands in
front of them; and if the entry that is replaced has their realm, then to any other query that was
answered by an entry of another realm the answer is the same, or the new entry where it is the
better match. Realms are shorter than the buffers they are compared in. -/
theorem add_auth_info_effect (huser : info.username = some username)
    (hsecret : info.ha1.isSome ∨ info.passwd.isSome) :
    (TakesEffect behind authInfo info username →
      SameSecret (linphoneCoreFindAuthInfo behind (linphoneCoreAddAuthInfo behind authInfo info)
        info.realm info.username info.domain) info) ∧
    ((∀ x ∈ info :: authInfo, ShortRealm x.realm) →
      (∀ ai, Replaced behind authInfo info ai → realmMatch behind ai.realm info.realm) →
      ∀ realm username' domain e, ShortRealm realm →
        linphoneCoreFindAuthInfo behind authInfo realm username' domain = some e →
        realmMatch behind e.realm info.realm = false →
        linphoneCoreFindAuthInfo behind (linphoneCoreAddAuthInfo behind authInfo info) realm
            username' domain = some e ∨
          linphoneCoreFindAuthInfo behind (linphoneCoreAddAuthInfo behind authInfo info) realm
            username' domain = some info ∧ BetterMatch behind info e realm domain) := by
  have hboth : ¬(info.ha1 = none ∧ info.passwd = none) := by
    rintro ⟨hha1, hpasswd⟩
    rw [hha1, hpasswd] at hsecret
    exact hsecret.elim (by decide) (by decide)
  constructor
  · exact (own_lookup_iff huser hboth).mpr
  · intro hshort hreplaced realm username' domain e hrealm h hother
    exact other_lookup hboth (fun x hx => hshort x (List.mem_cons_of_mem info hx))
      (hshort info (by simp)) hreplaced hrealm h hother

end

/-! ## Two accounts of a user -/

/-- The credentials of `alice` at a host that is also the realm. -/
def aliceAt (host passwd : String) : LinphoneAuthInfo where
  username := some "alice"
  passwd := some passwd
  realm := some host
  domain := some host

theorem add_auth_info_alice :
    SameSecret (linphoneCoreFindAuthInfo (fun _ _ => ([], []))
      (linphoneCoreAddAuthInfo (fun _ _ => ([], [])) [aliceAt "a.org" "pa"] (aliceAt "b.org" "pb"))
      (some "b.org") (some "alice") (some "b.org")) (aliceAt "b.org" "pb") ∧
    (linphoneCoreFindAuthInfo (fun _ _ => ([], []))
        (linphoneCoreAddAuthInfo (fun _ _ => ([], [])) [aliceAt "a.org" "pa"]
          (aliceAt "b.org" "pb")) (some "a.org") (some "alice") none = some (aliceAt "a.org" "pa") ∨
      linphoneCoreFindAuthInfo (fun _ _ => ([], []))
        (linphoneCoreAddAuthInfo (fun _ _ => ([], [])) [aliceAt "a.org" "pa"]
          (aliceAt "b.org" "pb")) (some "a.org") (some "alice") none = some (aliceAt "b.org" "pb") ∧
        BetterMatch (fun _ _ => ([], [])) (aliceAt "b.org" "pb") (aliceAt "a.org" "pa")
          (some "a.org") none) := by
  have heffect := @add_auth_info_effect (fun _ _ => ([], [])) "alice" [aliceAt "a.org" "pa"]
    (aliceAt "b.org" "pb") rfl (.inr rfl)
  refine ⟨heffect.1 fun e he => ?_, heffect.2 ?_ ?_ _ _ _ _ ?_ (by decide) (by decide)⟩
  · cases he
  · intro x hx r hr
    rcases List.mem_cons.mp hx with rfl | hx
    · obtain rfl := Option.some.inj hr
      decide
    · obtain rfl := List.mem_singleton.mp hx
      obtain rfl := Option.some.inj hr
      decide
  · rintro ai ⟨hai, -, hdomain⟩
    have hfound : linphoneCoreFindAuthInfo (fun _ _ => ([], [])) [aliceAt "a.org" "pa"]
        (some "b.org") (some "alice") (some "b.org") = some (aliceAt "a.org" "pa") := by decide
    obtain rfl := Option.some.inj (hfound.symm.trans hai)
    exact absurd hdomain (by decide)
  · intro r hr
    obtain rfl := Option.some.inj hr
    decide

/-- A query for the other host, without a realm, was answered with the only credentials there were,
and is answered with the new ones. -/
theorem domain_query_changes :
    linphoneCoreFindAuthInfo (fun _ _ => ([], [])) [aliceAt "a.org" "pa"] none (some "alice")
        (some "b.org") = some (aliceAt "a.org" "pa") ∧
      realmMatch (fun _ _ => ([], [])) (aliceAt "a.org" "pa").realm (aliceAt "b.org" "pb").realm =
        false ∧
      linphoneCoreFindAuthInfo (fun _ _ => ([], []))
        (linphoneCoreAddAuthInfo (fun _ _ => ([], [])) [aliceAt "a.org" "pa"]
          (aliceAt "b.org" "pb")) none (some "alice") (some "b.org") =
        some (aliceAt "b.org" "pb") := by
  decide

/-- The entry of another realm that is found by the domain is replaced. -/
example : linphoneCoreAddAuthInfo (fun _ _ => ([], [])) [aliceAt "a.org" "pa"]
    { aliceAt "a.org" "pb" with realm := some "b.org" } =
      [{ aliceAt "a.org" "pb" with realm := some "b.org" }] := by
  decide

end Linphone
