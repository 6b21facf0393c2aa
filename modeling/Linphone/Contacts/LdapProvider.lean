import Mathlib.Tactic.Common
import Mathlib.Data.List.Chain
import Mathlib.Data.List.Find
import Mathlib.Data.List.Nodup

/-!
# Searches of the LDAP contact provider

The request list of `coreapi/ldap/ldapprovider.c`. A search that is begun before the connection is
bound waits in the list with message id 0 and is launched by a later
`linphone_ldap_contact_provider_iterate`, which also hands the results that arrive to the searches
they are for. Searches are counted references at an address; the list owns one of them, the
application those it took. What libldap answers is given with each step.

An undefined access, through `NULL` or to a search that was destroyed, makes an operation `none`.
While the callback of a search runs the application may do anything with the provider, so the
rest of the iteration is a step of its own.

`searches_sound`: counts, references, results and callbacks are as they should be in every run in
which no delayed search is cancelled behind another, no result comes for a search that is gone,
no callback cancels its own search, and no launch fails just ahead of another delayed search.
-/

namespace Linphone

/-! ## Contacts -/

/-- `LinphoneFriend`, as far as it is filled in. -/
structure LdapFriend where
  name : String
  address : String
deriving DecidableEq

/-- An entry of a message: attributes and their values. -/
abbrev LdapEntry := List (String × List String)

/-- What the provider is configured with. -/
structure LdapConfig where
  nameAttr : String
  sipAttr : String
  /-- `linphone_core_interpret_url` -/
  interpretUrl : String → Option String

/-- `LDAPFriendData` -/
structure LdapFriendData where
  name : Option String := none
  sip : Option String := none

namespace LdapConfig

variable (cfg : LdapConfig)

/-- `linphone_ldap_contact_provider_complete_contact`, and whether it returned 1. -/
def completeContact (lf : LdapFriendData) (attrName attrValue : String) : LdapFriendData × Bool :=
  let lf :=
    if attrName = cfg.nameAttr then { lf with name := some attrValue }
    else if attrName = cfg.sipAttr then { lf with sip := some attrValue }
    else lf
  (lf, lf.name.isSome && lf.sip.isSome)

/-- The values of an attribute, up to an empty one. -/
def readValues (attr : String) : LdapFriendData → List String → LdapFriendData × Bool
  | lf, [] => (lf, false)
  | lf, value :: it =>
    if value = "" then (lf, false)
    else
      let (lf, contactComplete) := cfg.completeContact lf attr value
      if contactComplete then (lf, true) else readValues attr lf it

/-- The attributes of an entry, until the contact is complete. -/
def readEntry : LdapFriendData → LdapEntry → LdapFriendData × Bool
  | lf, [] => (lf, false)
  | lf, (attr, values) :: it =>
    let (lf, contactComplete) := cfg.readValues attr lf values
    if contactComplete then (lf, true) else readEntry lf it

/-- The friend an entry makes, if it is complete and its address can be read. -/
def entryFriend (entry : LdapEntry) : Option LdapFriend :=
  match cfg.readEntry {} entry with
  | ({ name := some name, sip := some sip }, true) =>
    (cfg.interpretUrl sip).map fun la => { name := name, address := la }
  | _ => none

end LdapConfig

/-! ## Searches -/

/-- `LinphoneLDAPContactSearch`; from `held` on it is what happened to it, which no code reads. -/
structure LdapSearch where
  msgid : Nat := 0
  refs : Nat := 1
  hasCb : Bool := true
  complete : Bool := false
  foundEntries : List LdapFriend := []
  held : Nat := 0
  launches : Nat := 0
  callbacks : Nat := 0
  ended : Bool := false
  calledLate : Bool := false
deriving DecidableEq, Inhabited

/-- `ldap_msgtype`, with the entries of the message. -/
inductive LdapMessage
  | entries (l : List LdapEntry)
  | searchResult
  | other

/-- What `ldap_result` returns. -/
structure LdapResult where
  msgid : Nat
  message : LdapMessage

/-- `LinphoneLDAPContactProvider`, with the searches at their addresses. -/
structure LdapProvider where
  search : Nat → LdapSearch := fun _ => default
  allocated : Nat := 0
  requests : List Nat := []
  reqCount : Nat := 0
  connected : Bool := false
  /-- The search whose callback runs. -/
  calling : Option Nat := none
  /-- The last step ended with a loop over the pending searches. -/
  launched : Bool := false
  /-- What was received for which message id. -/
  received : List (Nat × List LdapFriend) := []
  crashed : Bool := false

namespace LdapProvider

variable (cfg : LdapConfig) (p : LdapProvider)

def modify (s : Nat) (f : LdapSearch → LdapSearch) : LdapProvider :=
  { p with search := fun t => if t = s then f (p.search t) else p.search t }

/-- A search that was not destroyed. -/
def isAlive (s : Nat) : Bool := decide (s < p.allocated) && decide (0 < (p.search s).refs)

/-- `search->...` -/
def deref (s : Nat) : Option LdapSearch := if p.isAlive s then some (p.search s) else none

/-- `ms_list_find_custom` with a comparison of the elements. -/
def findCustom (equal : Nat → LdapSearch → Bool) : List Nat → Option (Option Nat)
  | [] => some none
  | s :: it => do
    let search ← p.deref s
    if equal s search then some (some s) else findCustom equal it

/-- `linphone_ldap_contact_provider_request_search`, by `..._entry_compare_weak` -/
def requestSearch (msgid : Nat) : Option (Option Nat) :=
  p.findCustom (fun _ search => search.msgid == msgid) p.requests

/-- `belle_sip_object_unref` -/
def unref (s : Nat) : Option LdapProvider := do
  let _ ← p.deref s
  some (p.modify s fun search => { search with refs := search.refs - 1 })

/-- `linphone_ldap_contact_provider_cancel_search`, by `..._entry_compare_strong` -/
def cancelSearch (req : Nat) : Option LdapProvider := do
  let ldapReq ← p.deref req
  -- equal message ids are enough, and all delayed searches have the same
  let listEntry ←
    p.findCustom (fun s search => search.msgid == ldapReq.msgid || s == req) p.requests
  let p :=
    match listEntry with
    | some s => { p with requests := p.requests.erase s, reqCount := p.reqCount - 1 }
    | none => p
  let p := p.modify req fun search => { search with ended := true }
  p.unref req

/-- `linphone_ldap_contact_provider_perform_search`, when `ldap_search_ext` succeeds. -/
def performed (s msgid : Nat) : LdapProvider :=
  p.modify s fun search => { search with msgid := msgid, launches := search.launches + 1 }

/-- `linphone_ldap_contact_provider_begin_search`; `searchExt` is the message id that
`ldap_search_ext` gives, if it is asked and succeeds. -/
def beginSearch (hasCb : Bool) (searchExt : Option Nat) : LdapProvider :=
  let request := p.allocated
  let p :=
    { p with
      allocated := request + 1
      search := fun s => if s = request then { hasCb := hasCb } else p.search s }
  let append (p : LdapProvider) : LdapProvider :=
    { p with requests := p.requests ++ [request], reqCount := p.reqCount + 1 }
  if p.connected then
    match searchExt with
    | some msgid => append (p.performed request msgid)
    | none => p.modify request fun search => { search with refs := search.refs - 1, ended := true }
  else append p

/-- The loop over the pending searches; `fuel` is the number of requests it begins with. -/
def launchLoop (searchExt : Nat → Option Nat) : Nat → Nat → LdapProvider → Option LdapProvider
  | 0, _, p => some p
  | fuel + 1, i, p =>
    if i < p.reqCount then
      match p.requests[i]? with
      | some s => do
        let search ← p.deref s
        if search.msgid = 0 then
          match searchExt s with
          | some msgid => launchLoop searchExt fuel (i + 1) (p.performed s msgid)
          | none => do
            let p ← p.cancelSearch s
            launchLoop searchExt fuel (i + 1) p
        else launchLoop searchExt fuel (i + 1) p
      | none => launchLoop searchExt fuel (i + 1) p
    else some p

/-- The second half of `linphone_ldap_contact_provider_iterate`. -/
def launchPending (searchExt : Nat → Option Nat) : Option LdapProvider :=
  if p.connected then
    (launchLoop searchExt p.reqCount 0 p).map fun p => { p with launched := true }
  else some p

/-- The search is done, once its callback has returned. -/
def searchDone (s : Nat) (searchExt : Nat → Option Nat) : Option LdapProvider := do
  let p ← p.cancelSearch s
  launchPending { p with calling := none } searchExt

/-- `linphone_ldap_contact_provider_iterate`, up to a callback or to its end. A message of entries
is added up by `linphone_ldap_contact_provider_handle_search_result`. -/
def iterate (result : Option LdapResult) (searchExt : Nat → Option Nat) : Option LdapProvider :=
  if p.connected ∧ p.reqCount > 0 then
    match result with
    | none => p.launchPending searchExt
    | some result => do
      let req ← p.requestSearch result.msgid
      match result.message, req with
      | .entries l, some s =>
        let friends := l.filterMap cfg.entryFriend
        let p := p.modify s fun search =>
          { search with foundEntries := search.foundEntries ++ friends }
        launchPending { p with received := p.received ++ [(result.msgid, friends)] } searchExt
      | .entries l, none =>
        -- `req->found_entries`
        if l.filterMap cfg.entryFriend = [] then p.launchPending searchExt else none
      | .searchResult, some s =>
        let p := p.modify s fun search => { search with complete := true }
        if (p.search s).hasCb then
          -- `linphone_contact_search_invoke_cb`
          let p := p.modify s fun search =>
            { search with
              callbacks := search.callbacks + 1
              calledLate := search.calledLate || search.ended }
          some { p with calling := some s }
        else p.searchDone s searchExt
      | .searchResult, none => none -- `req->complete`
      | .other, _ => p.launchPending searchExt
  else p.launchPending searchExt

end LdapProvider

/-- What the application, the bind thread and libldap do. -/
inductive LdapEvent
  | bound
  | beginSearch (hasCb : Bool) (searchExt : Option Nat)
  | ref (s : Nat)
  | unref (s : Nat)
  | cancelSearch (s : Nat)
  | iterate (result : Option LdapResult) (searchExt : Nat → Option Nat)
  | callbackReturns (searchExt : Nat → Option Nat)

namespace LdapProvider

variable (cfg : LdapConfig) (p : LdapProvider)

/-- One step, if the application may do it: it uses the searches that it holds or that are listed,
and releases what it took. -/
def operation (e : LdapEvent) : Option (Option LdapProvider) :=
  match e with
  | .bound => some (some { p with connected := true })
  | .beginSearch hasCb searchExt => some (some (p.beginSearch hasCb searchExt))
  | .ref s =>
    if p.isAlive s then
      some (some (p.modify s fun search =>
        { search with refs := search.refs + 1, held := search.held + 1 }))
    else none
  | .unref s =>
    if s < p.allocated ∧ 0 < (p.search s).held then
      some (unref (p.modify s fun search => { search with held := search.held - 1 }) s)
    else none
  | .cancelSearch s =>
    if p.isAlive s then
      -- what is not listed is released for the application
      some ((p.cancelSearch s).map fun p' =>
        if s ∈ p.requests then p'
        else p'.modify s fun search => { search with held := search.held - 1 })
    else none
  | .iterate result searchExt =>
    if p.calling = none then some (p.iterate cfg result searchExt) else none
  | .callbackReturns searchExt => p.calling.map fun s => p.searchDone s searchExt

def step (e : LdapEvent) : Option LdapProvider :=
  if p.crashed then none
  else
    (operation cfg { p with launched := false } e).map fun after =>
      after.getD { p with crashed := true }

end LdapProvider

namespace LdapProvider

/-! ## The condition -/

/-- A message id that no search has. -/
def Fresh (p : LdapProvider) (msgid : Nat) : Prop :=
  msgid ≠ 0 ∧ ∀ s < p.allocated, (p.search s).msgid ≠ msgid

/-- The message ids for the pending searches are new, and different. -/
structure GivesIds (p : LdapProvider) (searchExt : Nat → Option Nat) : Prop where
  fresh : ∀ s ∈ p.requests, (p.search s).msgid = 0 → ∀ msgid, searchExt s = some msgid →
    p.Fresh msgid
  distinct : ∀ s ∈ p.requests, ∀ t ∈ p.requests, (p.search s).msgid = 0 →
    (p.search t).msgid = 0 → ∀ msgid, searchExt s = some msgid → searchExt t = some msgid → s = t

/-- libldap gives distinct message ids other than zero. -/
def Gives (p : LdapProvider) : LdapEvent → Prop
  | .beginSearch _ searchExt => ∀ msgid, searchExt = some msgid → p.Fresh msgid
  | .iterate result searchExt => (∀ r, result = some r → r.msgid ≠ 0) ∧ p.GivesIds searchExt
  | .callbackReturns searchExt => p.GivesIds searchExt
  | _ => True

/-- No launch fails just ahead of another pending search. -/
def NoneSkipped (p : LdapProvider) (searchExt : Nat → Option Nat) (l : List Nat) : Prop :=
  l.IsChain fun s t => (p.search s).msgid = 0 → searchExt s = none → (p.search t).msgid ≠ 0

/-- The message needs the search it is for. -/
def acts (cfg : LdapConfig) : LdapMessage → Prop
  | .entries l => l.filterMap cfg.entryFriend ≠ []
  | .searchResult => True
  | .other => False

/-- The search that the result completes. -/
def completes (p : LdapProvider) : Option LdapResult → Option Nat
  | some ⟨msgid, .searchResult⟩ => p.requests.find? fun s => (p.search s).msgid == msgid
  | _ => none

/-- A delayed search is cancelled only when no other one is listed before it, and none in its own
callback; what arrives is for a listed search; and none is skipped. -/
def Meets (cfg : LdapConfig) (p : LdapProvider) : LdapEvent → Prop
  | .cancelSearch s =>
    p.calling ≠ some s ∧ ((p.search s).msgid = 0 →
      ∀ t, (p.requests.find? fun t => (p.search t).msgid == 0) = some t → t = s)
  | .iterate result searchExt =>
    p.connected = true →
      (∀ r, result = some r → p.requests ≠ [] → acts cfg r.message →
        ∃ s ∈ p.requests, (p.search s).msgid = r.msgid) ∧
      match p.completes result with
      | some s => (p.search s).hasCb = false → p.NoneSkipped searchExt (p.requests.erase s)
      | none => p.NoneSkipped searchExt p.requests
  | .callbackReturns searchExt =>
    p.connected = true → ∀ s, p.calling = some s → p.NoneSkipped searchExt (p.requests.erase s)
  | _ => True

/-! ## What is kept -/

structure Sound (p : LdapProvider) : Prop where
  count : p.reqCount = p.requests.length
  nodup : p.requests.Nodup
  /-- The list holds what was begun and not ended. -/
  listed : ∀ s, s ∈ p.requests ↔ s < p.allocated ∧ (p.search s).ended = false
  /-- One reference is the list's, the others are the application's. -/
  refs : ∀ s < p.allocated,
    (p.search s).refs = (if s ∈ p.requests then 1 else 0) + (p.search s).held
  launches : ∀ s < p.allocated, (p.search s).launches = if (p.search s).msgid = 0 then 0 else 1
  ids : ∀ s < p.allocated, ∀ t < p.allocated, (p.search s).msgid = (p.search t).msgid →
    (p.search s).msgid ≠ 0 → s = t
  callbacks : ∀ s < p.allocated, (p.search s).callbacks ≤ 1 ∧
    ((p.search s).callbacks = 1 → (p.search s).ended = true ∨ p.calling = some s)
  onTime : ∀ s < p.allocated, (p.search s).calledLate = false
  calling : ∀ s, p.calling = some s → s ∈ p.requests ∧ (p.search s).msgid ≠ 0
  /-- A search found what was received for it. -/
  found : ∀ s < p.allocated, (p.search s).foundEntries =
    if (p.search s).msgid = 0 then []
    else (p.received.filter fun r => r.1 == (p.search s).msgid).flatMap (·.2)
  received : ∀ r ∈ p.received, r.1 ≠ 0 ∧ ∃ s < p.allocated, (p.search s).msgid = r.1
  /-- After an iteration nobody is left pending. -/
  launched : p.launched = true → ∀ s ∈ p.requests, (p.search s).msgid ≠ 0
  sane : p.crashed = false

variable {cfg : LdapConfig} {p : LdapProvider}

@[simp] theorem modify_search (s t : Nat) (f : LdapSearch → LdapSearch) :
    (p.modify s f).search t = if t = s then f (p.search t) else p.search t := rfl

theorem modify_kept {α : Type} (field : LdapSearch → α) {s : Nat} {f : LdapSearch → LdapSearch}
    (hfield : field (f (p.search s)) = field (p.search s)) (t : Nat) :
    field ((p.modify s f).search t) = field (p.search t) := by
  rw [modify_search]
  split
  · next heq => rw [heq, hfield]
  · rfl

theorem modify_modify (s : Nat) (f g : LdapSearch → LdapSearch) :
    (p.modify s f).modify s g = p.modify s fun search => g (f search) := by
  simp only [modify]
  congr 1
  funext t
  split <;> rfl

theorem Sound.lt (h : p.Sound) {s : Nat} (hs : s ∈ p.requests) : s < p.allocated :=
  ((h.listed s).mp hs).1

theorem Sound.alive (h : p.Sound) {s : Nat} (hs : s ∈ p.requests) : p.isAlive s = true := by
  have hrefs := h.refs s (h.lt hs)
  rw [if_pos hs] at hrefs
  simp only [isAlive, Bool.and_eq_true, decide_eq_true_eq]
  exact ⟨h.lt hs, by omega⟩

theorem Sound.deref (h : p.Sound) {s : Nat} (hs : s ∈ p.requests) :
    p.deref s = some (p.search s) := if_pos (h.alive hs)

theorem findCustom_eq (equal : Nat → LdapSearch → Bool) {l : List Nat}
    (h : ∀ s ∈ l, p.deref s = some (p.search s)) :
    p.findCustom equal l = some (l.find? fun s => equal s (p.search s)) := by
  induction l with
  | nil => rfl
  | cons s it ih =>
    rw [findCustom, h s List.mem_cons_self, List.find?_cons,
      ih fun t ht => h t (List.mem_cons_of_mem _ ht)]
    cases heq : equal s (p.search s) <;> simp [heq]

/-- A change to a search that only concerns the application's references and what is not kept
track of. -/
theorem Sound.touch (h : p.Sound) (s : Nat) {f : LdapSearch → LdapSearch}
    (hmsgid : (f (p.search s)).msgid = (p.search s).msgid)
    (hlaunches : (f (p.search s)).launches = (p.search s).launches)
    (hcallbacks : (f (p.search s)).callbacks = (p.search s).callbacks)
    (hended : (f (p.search s)).ended = (p.search s).ended)
    (hlate : (f (p.search s)).calledLate = (p.search s).calledLate)
    (hfound : (f (p.search s)).foundEntries = (p.search s).foundEntries)
    (hrefs : (f (p.search s)).refs + (p.search s).held =
      (p.search s).refs + (f (p.search s)).held) : (p.modify s f).Sound := by
  have hm := modify_kept (·.msgid) hmsgid
  have hl := modify_kept (·.launches) hlaunches
  have hc := modify_kept (·.callbacks) hcallbacks
  have he := modify_kept (·.ended) hended
  have ho := modify_kept (·.calledLate) hlate
  have hf := modify_kept (·.foundEntries) hfound
  refine ⟨h.count, h.nodup, fun t => ?_, fun t ht => ?_, fun t ht => ?_, fun t ht u hu => ?_,
    fun t ht => ?_, fun t ht => ?_, fun t ht => ?_, fun t ht => ?_, fun r hr => ?_,
    fun hlaunched t ht => ?_, h.sane⟩
  · rw [he]; exact h.listed t
  · have ht' := h.refs t ht
    rw [modify_search]
    by_cases heq : t = s
    · subst heq
      rw [if_pos rfl]
      have hgoal : (f (p.search t)).refs =
          (if t ∈ p.requests then 1 else 0) + (f (p.search t)).held := by
        generalize (if t ∈ p.requests then 1 else 0) = listed at ht' ⊢
        omega
      exact hgoal
    · rw [if_neg heq]
      exact ht'
  · rw [hl, hm]; exact h.launches t ht
  · rw [hm, hm]; exact h.ids t ht u hu
  · rw [hc, he]; exact h.callbacks t ht
  · rw [ho]; exact h.onTime t ht
  · rw [hm]; exact h.calling t ht
  · rw [hf, hm]; exact h.found t ht
  · obtain ⟨hne, u, hu, hmsg⟩ := h.received r hr
    exact ⟨hne, u, hu, (hm u).trans hmsg⟩
  · rw [hm]; exact h.launched hlaunched t ht

/-! ## Launching -/

/-- A pending search is launched. -/
theorem Sound.performed (h : p.Sound) {s msgid : Nat} (hs : s ∈ p.requests)
    (hpending : (p.search s).msgid = 0) (hfresh : p.Fresh msgid) :
    (p.performed s msgid).Sound := by
  have hlt := h.lt hs
  have hnew : ∀ t, ((p.performed s msgid).search t).msgid =
      if t = s then msgid else (p.search t).msgid := by
    intro t; simp only [LdapProvider.performed, modify_search]; split <;> rfl
  have he : ∀ t, ((p.performed s msgid).search t).ended = (p.search t).ended :=
    modify_kept (·.ended) rfl
  have hcalling : ∀ t, p.calling = some t → t ≠ s := by
    rintro t ht rfl
    exact (h.calling t ht).2 hpending
  refine ⟨h.count, h.nodup, fun t => ?_, fun t ht => ?_, fun t ht => ?_, fun t ht u hu => ?_,
    fun t ht => ?_, fun t ht => ?_, fun t ht => ?_, fun t ht => ?_, fun r hr => ?_,
    fun hlaunched t ht => ?_, h.sane⟩
  · rw [he]
    exact h.listed t
  · have ht' := h.refs t ht
    simp only [LdapProvider.performed, modify_search]
    split <;> exact ht'
  · have ht' := h.launches t ht
    simp only [LdapProvider.performed, modify_search]
    split
    · next heq =>
      subst heq
      simp [ht', hpending, hfresh.1]
    · exact ht'
  · intro heq hne
    rw [hnew, hnew] at heq
    rw [hnew] at hne
    split at heq <;> split at heq
    · next hts hus => exact hts.trans hus.symm
    · exact absurd heq.symm (hfresh.2 u hu)
    · exact absurd heq (hfresh.2 t ht)
    · next hts hus =>
      rw [if_neg hts] at hne
      exact h.ids t ht u hu heq hne
  · have hc : ((p.performed s msgid).search t).callbacks = (p.search t).callbacks :=
      modify_kept (·.callbacks) rfl t
    rw [hc, he]
    exact h.callbacks t ht
  · exact (modify_kept (·.calledLate) rfl t).trans (h.onTime t ht)
  · rw [hnew, if_neg (hcalling t ht)]
    exact h.calling t ht
  · have ht' := h.found t ht
    simp only [LdapProvider.performed, modify_search]
    split
    · next heq =>
      subst heq
      -- nothing was received for an id that is new
      have hnone : (p.received.filter fun r => r.1 == msgid) = [] := by
        refine List.filter_eq_nil_iff.mpr fun r hr => ?_
        obtain ⟨-, u, hu, hmsg⟩ := h.received r hr
        simpa using fun heq => hfresh.2 u hu (hmsg.trans heq)
      simp only [LdapProvider.modify, ht', hpending, hnone, if_true, hfresh.1, if_false]
      rfl
    · exact ht'
  · obtain ⟨hne, u, hu, hmsg⟩ := h.received r hr
    refine ⟨hne, u, hu, ?_⟩
    rw [hnew, if_neg]
    · exact hmsg
    · rintro rfl
      exact hne (hmsg.symm.trans hpending)
  · rw [hnew]
    split
    · exact hfresh.1
    · exact h.launched hlaunched t ht

/-! ## Cancelling -/

/-- What has happened when a listed search is cancelled as it should. -/
def without (p : LdapProvider) (s : Nat) : LdapProvider :=
  modify { p with requests := p.requests.erase s, reqCount := p.reqCount - 1 } s fun search =>
    { search with refs := search.refs - 1, ended := true }

theorem without_msgid (s t : Nat) : ((p.without s).search t).msgid = (p.search t).msgid := by
  simp only [without, modify_search]; split <;> rfl

/-- A search that is called may be cancelled when its callback has returned. -/
theorem Sound.without_calling (h : p.Sound) {s : Nat} (hs : s ∈ p.requests)
    (calling : Option Nat)
    (hcalling : ∀ t, calling = some t ↔ t ≠ s ∧ p.calling = some t) :
    Sound { p.without s with calling := calling } := by
  have hmem : ∀ t, t ∈ p.requests.erase s ↔ t ≠ s ∧ t ∈ p.requests := fun t => h.nodup.mem_erase_iff
  have hm := without_msgid (p := p) s
  refine ⟨?_, h.nodup.erase s, fun t => ?_, fun t ht => ?_, fun t ht => ?_, fun t ht u hu => ?_,
    fun t ht => ?_, fun t ht => ?_, fun t ht => ?_, fun t ht => ?_, fun r hr => ?_,
    fun hlaunched t ht => ?_, h.sane⟩
  · change p.reqCount - 1 = (p.requests.erase s).length
    rw [List.length_erase_of_mem hs, h.count]
  · change t ∈ p.requests.erase s ↔ _
    rw [hmem, h.listed]
    simp only [LdapProvider.without, modify_search]
    split
    · next heq => simp [heq]
    · next heq => exact and_iff_right heq
  · have ht' := h.refs t ht
    change _ = (if t ∈ p.requests.erase s then 1 else 0) + _
    simp only [LdapProvider.without, modify_search, hmem]
    split
    · next heq =>
      subst heq
      rw [if_pos hs] at ht'
      simp [ht']
    · next heq =>
      rw [ht']
      simp [heq]
  · have ht' := h.launches t ht
    rw [hm]
    simp only [LdapProvider.without, modify_search]
    split <;> exact ht'
  · rw [hm, hm]
    exact h.ids t ht u hu
  · have ht' := h.callbacks t ht
    simp only [LdapProvider.without, modify_search]
    split
    · exact ⟨ht'.1, fun _ => Or.inl rfl⟩
    · next hts =>
      exact ⟨ht'.1, fun hone => (ht'.2 hone).imp_right fun hc => (hcalling t).mpr ⟨hts, hc⟩⟩
  · have ht' := h.onTime t ht
    simp only [LdapProvider.without, modify_search]
    split <;> exact ht'
  · obtain ⟨hts, hc⟩ := (hcalling t).mp ht
    obtain ⟨hlisted, hne⟩ := h.calling t hc
    exact ⟨(hmem t).mpr ⟨hts, hlisted⟩, by rwa [hm]⟩
  · have ht' := h.found t ht
    rw [hm]
    simp only [LdapProvider.without, modify_search]
    split <;> exact ht'
  · obtain ⟨hne, u, hu, hmsg⟩ := h.received r hr
    exact ⟨hne, u, hu, (hm u).trans hmsg⟩
  · rw [hm]
    exact h.launched hlaunched t ((hmem t).mp ht).2

theorem Sound.without (h : p.Sound) {s : Nat} (hs : s ∈ p.requests)
    (hcalling : p.calling ≠ some s) : (p.without s).Sound :=
  h.without_calling hs p.calling fun t =>
    ⟨fun ht => ⟨by rintro rfl; exact hcalling ht, ht⟩, And.right⟩

/-- The entry that cancel finds. -/
def cancelFinds (p : LdapProvider) (s : Nat) : Option Nat :=
  p.requests.find? fun t => (p.search t).msgid == (p.search s).msgid || t == s

theorem cancelSearch_eq (h : p.Sound) {s : Nat} (hs : p.isAlive s = true) :
    p.cancelSearch s =
      some (modify
        (match p.cancelFinds s with
          | some t => { p with requests := p.requests.erase t, reqCount := p.reqCount - 1 }
          | none => p) s
        fun search => { search with refs := search.refs - 1, ended := true }) := by
  have hderef : p.deref s = some (p.search s) := if_pos hs
  have hfind := findCustom_eq
    (fun t search => search.msgid == (p.search s).msgid || t == s) fun t ht => h.deref ht
  simp only [cancelSearch, hderef, Option.bind_eq_bind, Option.bind_some, hfind]
  rw [show (p.requests.find? fun t => (p.search t).msgid == (p.search s).msgid || t == s) =
    p.cancelFinds s from rfl]
  cases p.cancelFinds s <;>
  · have halive := hs
    simp only [isAlive, Bool.and_eq_true, decide_eq_true_eq] at halive
    simp only [LdapProvider.unref, LdapProvider.deref, isAlive, modify_search, if_true,
      Option.bind_eq_bind]
    rw [if_pos (by simpa [LdapProvider.modify] using halive), Option.bind_some, modify_modify]

/-- Cancelling a listed search takes it out, if it is the first delayed one or none. -/
theorem cancelSearch_listed (h : p.Sound) {s : Nat} (hs : s ∈ p.requests)
    (hfirst : (p.search s).msgid = 0 →
      ∀ t, (p.requests.find? fun t => (p.search t).msgid == 0) = some t → t = s) :
    p.cancelSearch s = some (p.without s) := by
  have hfound : p.cancelFinds s = some s := by
    cases hfind : p.cancelFinds s with
    | none =>
      have hnot := List.find?_eq_none.mp hfind s hs
      simp at hnot
    | some t =>
      have ht := List.mem_of_find?_eq_some hfind
      have hsame : (p.search t).msgid = (p.search s).msgid ∨ t = s := by
        have htest := List.find?_some hfind
        simpa using htest
      rcases hsame with hsame | rfl
      · by_cases hpending : (p.search s).msgid = 0
        · rw [cancelFinds, hpending] at hfind
          have hfirst := hfirst hpending
          by_contra hne
          have hts : t ≠ s := fun heq => hne (by rw [heq])
          -- what is found first is the first delayed search
          have hdelayed : (p.requests.find? fun t => (p.search t).msgid == 0) = some t := by
            rw [← hfind]
            refine List.find?_congr fun u hu => ?_
            by_cases hus : u = s
            · simp [hus, hpending]
            · simp [hus]
          exact hts (hfirst t hdelayed)
        · rw [h.ids t (h.lt ht) s (h.lt hs) hsame (hsame ▸ hpending)]
      · rfl
  rw [cancelSearch_eq h (h.alive hs), hfound]
  rfl

/-- Cancelling a search that is not listed takes no other one out, if none is delayed like it. -/
theorem cancelSearch_unlisted (h : p.Sound) {s : Nat} (hs : s ∉ p.requests)
    (halive : p.isAlive s = true)
    (hfirst : (p.search s).msgid = 0 →
      ∀ t, (p.requests.find? fun t => (p.search t).msgid == 0) = some t → t = s) :
    p.cancelSearch s = some (p.modify s fun search =>
      { search with refs := search.refs - 1, ended := true }) := by
  have hfound : p.cancelFinds s = none := by
    refine List.find?_eq_none.mpr fun t ht htest => ?_
    have hts : t ≠ s := by
      rintro rfl
      exact hs ht
    have hsame : (p.search t).msgid = (p.search s).msgid := by simpa [hts] using htest
    by_cases hpending : (p.search s).msgid = 0
    · cases hfind : p.requests.find? fun t => (p.search t).msgid == 0 with
      | none =>
        have hnot := List.find?_eq_none.mp hfind t ht
        simp [hsame, hpending] at hnot
      | some u =>
        exact hs (hfirst hpending u hfind ▸ List.mem_of_find?_eq_some hfind)
    · have hlt : s < p.allocated := by
        simp only [isAlive, Bool.and_eq_true, decide_eq_true_eq] at halive
        exact halive.1
      exact hts (h.ids t (h.lt ht) s hlt hsame (hsame ▸ hpending))
  rw [cancelSearch_eq h halive, hfound]

/-! ## The loop over the pending searches -/

theorem GivesIds.performed {searchExt : Nat → Option Nat} (hgives : p.GivesIds searchExt)
    {s msgid : Nat} (hs : s ∈ p.requests) (hpending : (p.search s).msgid = 0)
    (hext : searchExt s = some msgid) : (p.performed s msgid).GivesIds searchExt := by
  have hne := (hgives.fresh s hs hpending msgid hext).1
  have hnew : ∀ t, ((p.performed s msgid).search t).msgid =
      if t = s then msgid else (p.search t).msgid := by
    intro t; simp only [LdapProvider.performed, modify_search]; split <;> rfl
  have hold : ∀ t, ((p.performed s msgid).search t).msgid = 0 →
      t ≠ s ∧ (p.search t).msgid = 0 := by
    intro t ht
    rw [hnew] at ht
    split at ht
    · exact absurd ht hne
    · next hts => exact ⟨hts, ht⟩
  refine ⟨fun t ht htpending m hm => ?_, fun t ht u hu htpending hupending m hm hm' =>
    hgives.distinct t ht u hu (hold t htpending).2 (hold u hupending).2 m hm hm'⟩
  obtain ⟨hts, htpending⟩ := hold t htpending
  obtain ⟨hm0, hfresh⟩ := hgives.fresh t ht htpending m hm
  refine ⟨hm0, fun u hu => ?_⟩
  rw [hnew]
  split
  · rintro rfl
    exact hts (hgives.distinct t ht s hs htpending hpending _ hm hext)
  · exact hfresh u hu

theorem GivesIds.mono {p' : LdapProvider} {searchExt : Nat → Option Nat}
    (hgives : p.GivesIds searchExt) (hsub : ∀ s ∈ p'.requests, s ∈ p.requests)
    (hallocated : p'.allocated = p.allocated)
    (hsame : ∀ s, (p'.search s).msgid = (p.search s).msgid) : p'.GivesIds searchExt := by
  refine ⟨fun t ht hpending m hext => ?_, fun t ht u hu htpending hupending => ?_⟩
  · rw [hsame] at hpending
    obtain ⟨hne, hfresh⟩ := hgives.fresh t (hsub t ht) hpending m hext
    exact ⟨hne, fun u hu => by rw [hsame]; exact hfresh u (hallocated ▸ hu)⟩
  · rw [hsame] at htpending hupending
    exact hgives.distinct t (hsub t ht) u (hsub u hu) htpending hupending

theorem NoneSkipped.congr {p' : LdapProvider} {searchExt : Nat → Option Nat} {l : List Nat}
    (h : p.NoneSkipped searchExt l)
    (hsame : ∀ s ∈ l, (p'.search s).msgid = (p.search s).msgid) :
    p'.NoneSkipped searchExt l := by
  refine List.IsChain.imp_of_mem_imp (fun s t hs ht hst hpending hnone => ?_) h
  rw [hsame t ht]
  exact hst ((hsame s hs).symm.trans hpending) hnone

/-- **The loop** launches or ends all that is pending. `done` is the part of the list the loop has
passed. -/
theorem launchLoop_sound {searchExt : Nat → Option Nat} {fuel : Nat} (done rest : List Nat)
    (h : p.Sound) (hcalling : p.calling = none) (hgives : p.GivesIds searchExt)
    (hrequests : p.requests = done ++ rest) (hfuel : rest.length ≤ fuel)
    (hdone : ∀ s ∈ done, (p.search s).msgid ≠ 0) (hskip : p.NoneSkipped searchExt rest) :
    ∃ p', launchLoop searchExt fuel done.length p = some p' ∧ p'.Sound ∧
      ∀ s ∈ p'.requests, (p'.search s).msgid ≠ 0 := by
  induction fuel generalizing p done rest with
  | zero =>
    obtain rfl := List.eq_nil_of_length_eq_zero (Nat.le_zero.mp hfuel)
    exact ⟨p, rfl, h, fun s hs => hdone s (by simpa [hrequests] using hs)⟩
  | succ fuel ih =>
    have hcount : p.reqCount = done.length + rest.length := by
      rw [h.count, hrequests, List.length_append]
    cases rest with
    | nil =>
      refine ⟨p, ?_, h, fun s hs => hdone s (by simpa [hrequests] using hs)⟩
      rw [launchLoop, if_neg (by simp [hcount])]
    | cons s rest =>
      have hs : s ∈ p.requests := by simp [hrequests]
      have hget : p.requests[done.length]? = some s := by simp [hrequests]
      rw [launchLoop, if_pos (by simp [hcount])]
      simp only [hget, h.deref hs, Option.bind_eq_bind, Option.bind_some]
      have hfuel : rest.length ≤ fuel := by simpa using hfuel
      by_cases hpending : (p.search s).msgid = 0
      · rw [if_pos hpending]
        cases hext : searchExt s with
        | some msgid =>
          have hfresh := hgives.fresh s hs hpending msgid hext
          have hnodup := h.nodup
          rw [hrequests, List.nodup_append, List.nodup_cons] at hnodup
          have hother : ∀ t, t ≠ s →
              ((p.performed s msgid).search t).msgid = (p.search t).msgid := by
            intro t hts
            simp [LdapProvider.performed, hts]
          have hself : ((p.performed s msgid).search s).msgid = msgid := by
            simp [LdapProvider.performed]
          have hlength : done.length + 1 = (done ++ [s]).length := by simp
          rw [hlength]
          refine ih (done ++ [s]) rest (h.performed hs hpending hfresh) hcalling
            (hgives.performed hs hpending hext)
            (by simp [LdapProvider.performed, LdapProvider.modify, hrequests]) hfuel
            (fun t ht => ?_) (NoneSkipped.congr hskip.tail fun t ht => hother t ?_)
          · rcases List.mem_append.mp ht with ht | ht
            · have hts : t ≠ s := fun heq => hnodup.2.2 t ht s List.mem_cons_self heq
              rw [hother t hts]
              exact hdone t ht
            · obtain rfl := List.mem_singleton.mp ht
              rw [hself]
              exact hfresh.1
          · rintro rfl
            exact hnodup.2.1.1 ht
        | none =>
          have hfirst : ∀ t, (p.requests.find? fun t => (p.search t).msgid == 0) = some t →
              t = s := by
            intro t ht
            have hfind : (p.requests.find? fun t => (p.search t).msgid == 0) = some s := by
              rw [hrequests, List.find?_append, List.find?_eq_none.mpr (by simpa using hdone)]
              simp [hpending]
            exact Option.some.inj (ht.symm.trans hfind)
          have hcancel := cancelSearch_listed h hs fun _ => hfirst
          have hnone : p.calling ≠ some s := by simp [hcalling]
          have hm := without_msgid (p := p) s
          have hrest : (p.without s).requests = done ++ rest := by
            have hnodup := h.nodup
            rw [hrequests, List.nodup_append] at hnodup
            have hsdone : s ∉ done := fun hmem => hnodup.2.2 s hmem s List.mem_cons_self rfl
            simp [LdapProvider.without, LdapProvider.modify, hrequests,
              List.erase_append_right _ hsdone]
          simp only [hcancel, Option.bind_some]
          cases rest with
          | nil =>
            refine ⟨p.without s, ?_, h.without hs hnone, fun t ht => ?_⟩
            · cases fuel with
              | zero => rfl
              | succ fuel =>
                rw [launchLoop, if_neg]
                rw [(h.without hs hnone).count, hrest]
                simp
            · rw [hm]
              exact hdone t (by simpa [hrest] using ht)
          | cons t rest =>
            -- the loop goes past the next one, which is not pending
            have ht : (p.search t).msgid ≠ 0 := hskip.rel hpending hext
            have hlength : done.length + 1 = (done ++ [t]).length := by simp
            rw [hlength]
            refine ih (done ++ [t]) rest (h.without hs hnone) hcalling
              (hgives.mono (fun u hu => List.mem_of_mem_erase hu) rfl (without_msgid s))
              (by simp [hrest]) (Nat.le_trans (Nat.le_succ _) hfuel) (fun u hu => ?_)
              (NoneSkipped.congr hskip.tail.tail fun u _ => hm u)
            rw [hm]
            rcases List.mem_append.mp hu with hu | hu
            · exact hdone u hu
            · obtain rfl := List.mem_singleton.mp hu
              exact ht
      · rw [if_neg hpending]
        have hlength : done.length + 1 = (done ++ [s]).length := by simp
        rw [hlength]
        refine ih (done ++ [s]) rest h hcalling hgives (by simp [hrequests]) hfuel
          (fun t ht => ?_) hskip.tail
        rcases List.mem_append.mp ht with ht | ht
        · exact hdone t ht
        · obtain rfl := List.mem_singleton.mp ht
          exact hpending

/-! ## Operations -/

theorem launchPending_sound {searchExt : Nat → Option Nat} (h : p.Sound)
    (hcalling : p.calling = none) (hgives : p.GivesIds searchExt)
    (hskip : p.connected = true → p.NoneSkipped searchExt p.requests) :
    ∃ p', p.launchPending searchExt = some p' ∧ p'.Sound := by
  unfold launchPending
  split
  · next hconnected =>
    obtain ⟨p', hloop, h', hlaunched⟩ :=
      launchLoop_sound [] p.requests h hcalling hgives rfl
        (Nat.le_of_eq h.count.symm) (fun s hs => absurd hs List.not_mem_nil) (hskip hconnected)
    refine ⟨{ p' with launched := true }, congrArg (Option.map _) hloop, ?_⟩
    obtain ⟨h1, h2, h3, h4, h5, h6, h7, h8, h9, h10, h11, -, h13⟩ := h'
    exact ⟨h1, h2, h3, h4, h5, h6, h7, h8, h9, h10, h11, fun _ => hlaunched, h13⟩
  · exact ⟨p, rfl, h⟩

theorem searchDone_sound {searchExt : Nat → Option Nat} {s : Nat} (h : p.Sound)
    (hs : s ∈ p.requests) (hcalling : ∀ t, p.calling = some t → t = s)
    (hlaunched : (p.search s).msgid ≠ 0) (hgives : p.GivesIds searchExt)
    (hskip : p.connected = true → p.NoneSkipped searchExt (p.requests.erase s)) :
    ∃ p', p.searchDone s searchExt = some p' ∧ p'.Sound := by
  have hcancel := cancelSearch_listed h hs fun hpending => absurd hpending hlaunched
  have hwithout : Sound { p.without s with calling := none } :=
    h.without_calling hs none fun t =>
      ⟨fun ht => absurd ht (Option.some_ne_none t).symm,
        fun ⟨hts, ht⟩ => absurd (hcalling t ht) hts⟩
  simp only [searchDone, hcancel, Option.bind_eq_bind, Option.bind_some]
  exact launchPending_sound hwithout rfl
    (hgives.mono (fun t ht => List.mem_of_mem_erase ht) rfl (without_msgid s)) fun hconnected =>
    NoneSkipped.congr (hskip hconnected) fun t _ => without_msgid s t

/-- A new search at its address, listed or not. -/
theorem Sound.insert (h : p.Sound) (hlaunched : p.launched = false) (x : LdapSearch) (listed : Bool)
    (hrefs : x.refs = if listed then 1 else 0) (hheld : x.held = 0) (hcallbacks : x.callbacks = 0)
    (hended : x.ended = !listed) (hlate : x.calledLate = false) (hfound : x.foundEntries = [])
    (hlaunches : x.launches = if x.msgid = 0 then 0 else 1)
    (hfresh : x.msgid ≠ 0 → p.Fresh x.msgid) :
    Sound { p with
      allocated := p.allocated + 1
      search := fun s => if s = p.allocated then x else p.search s
      requests := if listed then p.requests ++ [p.allocated] else p.requests
      reqCount := if listed then p.reqCount + 1 else p.reqCount } := by
  have hunlisted : p.allocated ∉ p.requests := fun hmem => Nat.lt_irrefl _ (h.lt hmem)
  have hmem : ∀ s, s ∈ (if listed then p.requests ++ [p.allocated] else p.requests) ↔
      s ∈ p.requests ∨ s = p.allocated ∧ listed = true := by
    intro s; cases listed <;> simp
  have hold : ∀ {s}, s < p.allocated + 1 → s ≠ p.allocated → s < p.allocated :=
    fun hlt hne => by omega
  refine ⟨?_, ?_, fun s => ?_, fun s hs => ?_, fun s hs => ?_, fun s hs t ht => ?_, fun s hs => ?_,
    fun s hs => ?_, fun s hs => ?_, fun s hs => ?_, fun r hr => ?_, fun hl => ?_, h.sane⟩
  · cases listed <;> simp [h.count]
  · cases listed
    · exact h.nodup
    · exact h.nodup.append (List.nodup_singleton _) (by simpa using hunlisted)
  · dsimp only
    rw [hmem, h.listed]
    split
    · next heq => cases listed <;> simp [heq, hended]
    · next hne =>
      simp only [hne, false_and, or_false]
      constructor
      · exact fun ⟨hlt, he⟩ => ⟨Nat.lt_succ_of_lt hlt, he⟩
      · exact fun ⟨hlt, he⟩ => ⟨hold hlt hne, he⟩
  · dsimp only
    simp only [hmem]
    split
    · next heq => cases listed <;> simp [heq, hrefs, hheld, hunlisted]
    · next hne => simpa [hne] using h.refs s (hold hs hne)
  · dsimp only
    split
    · exact hlaunches
    · next hne => exact h.launches s (hold hs hne)
  · intro heq hne0
    dsimp only at heq hne0
    split at heq <;> split at heq
    · next hs' ht' => exact hs'.trans ht'.symm
    · next hs' ht' =>
      rw [if_pos hs'] at hne0
      exact absurd heq.symm ((hfresh hne0).2 t (hold ht ht'))
    · next hs' ht' =>
      rw [if_neg hs', heq] at hne0
      exact absurd heq ((hfresh hne0).2 s (hold hs hs'))
    · next hs' ht' =>
      rw [if_neg hs'] at hne0
      exact h.ids s (hold hs hs') t (hold ht ht') heq hne0
  · dsimp only
    split
    · simp [hcallbacks]
    · next hne => exact h.callbacks s (hold hs hne)
  · dsimp only
    split
    · exact hlate
    · next hne => exact h.onTime s (hold hs hne)
  · obtain ⟨hlisted, hne0⟩ := h.calling s hs
    have hne : s ≠ p.allocated := Nat.ne_of_lt (h.lt hlisted)
    dsimp only
    rw [if_neg hne]
    exact ⟨(hmem s).mpr (Or.inl hlisted), hne0⟩
  · dsimp only
    split
    · rw [hfound]
      split
      · rfl
      · next hne0 =>
        have hnone : (p.received.filter fun r => r.1 == x.msgid) = [] := by
          refine List.filter_eq_nil_iff.mpr fun r hr => ?_
          obtain ⟨-, u, hu, hmsg⟩ := h.received r hr
          simpa using fun heq => (hfresh hne0).2 u hu (hmsg.trans heq)
        rw [hnone]
        rfl
    · next hne => exact h.found s (hold hs hne)
  · obtain ⟨hne0, u, hu, hmsg⟩ := h.received r hr
    refine ⟨hne0, u, Nat.lt_succ_of_lt hu, ?_⟩
    dsimp only
    rw [if_neg (Nat.ne_of_lt hu)]
    exact hmsg
  · rw [hlaunched] at hl
    cases hl

theorem beginSearch_sound (h : p.Sound) (hlaunched : p.launched = false) (hasCb : Bool)
    {searchExt : Option Nat} (hgives : ∀ msgid, searchExt = some msgid → p.Fresh msgid) :
    (p.beginSearch hasCb searchExt).Sound := by
  by_cases hconnected : p.connected = true
  · cases searchExt with
    | some msgid =>
      have hfresh := hgives msgid rfl
      have hsound := h.insert hlaunched
        { hasCb := hasCb, msgid := msgid, launches := 1 } true rfl rfl rfl rfl rfl rfl
        (by simp [hfresh.1]) (fun _ => hfresh)
      simp only [if_true, hconnected] at hsound
      simp only [beginSearch, hconnected, if_true, LdapProvider.performed, LdapProvider.modify]
      convert hsound using 2
      funext s
      split <;> rfl
    | none =>
      have hsound := h.insert hlaunched
        { hasCb := hasCb, refs := 0, ended := true } false rfl rfl rfl rfl rfl rfl rfl
        (fun hne => absurd rfl hne)
      simp only [Bool.false_eq_true, if_false, hconnected] at hsound
      simp only [beginSearch, hconnected, if_true, LdapProvider.modify]
      convert hsound using 2
      funext s
      split <;> rfl
  · have hsound := h.insert hlaunched { hasCb := hasCb } true rfl rfl rfl rfl
      rfl rfl rfl (fun hne => absurd rfl hne)
    simpa [beginSearch, hconnected] using hsound

/-- Entries arrive for a listed search. -/
theorem Sound.receive (h : p.Sound) {s msgid : Nat} (hs : s ∈ p.requests)
    (hmsgid : (p.search s).msgid = msgid) (hne : msgid ≠ 0) (friends : List LdapFriend) :
    Sound { p.modify s fun search =>
        { search with foundEntries := search.foundEntries ++ friends } with
      received := p.received ++ [(msgid, friends)] } := by
  have hlt := h.lt hs
  have hm : ∀ t, ((p.modify s fun search =>
      { search with foundEntries := search.foundEntries ++ friends }).search t).msgid =
      (p.search t).msgid := modify_kept (·.msgid) rfl
  have he : ∀ t, ((p.modify s fun search =>
      { search with foundEntries := search.foundEntries ++ friends }).search t).ended =
      (p.search t).ended := modify_kept (·.ended) rfl
  refine ⟨h.count, h.nodup, fun t => ?_, fun t ht => ?_, fun t ht => ?_, fun t ht u hu => ?_,
    fun t ht => ?_, fun t ht => ?_, fun t ht => ?_, fun t ht => ?_, fun r hr => ?_,
    fun hlaunched t ht => ?_, h.sane⟩
  · dsimp only
    rw [he]
    exact h.listed t
  · have ht' := h.refs t ht
    dsimp only
    rw [modify_search]
    split <;> exact ht'
  · dsimp only
    rw [hm]
    exact (modify_kept (·.launches) rfl t).trans (h.launches t ht)
  · dsimp only
    rw [hm, hm]
    exact h.ids t ht u hu
  · dsimp only
    rw [he, modify_kept (·.callbacks) rfl t]
    exact h.callbacks t ht
  · have ht' := h.onTime t ht
    dsimp only
    rw [modify_search]
    split <;> exact ht'
  · dsimp only
    rw [hm]
    exact h.calling t ht
  · have ht' := h.found t ht
    dsimp only
    rw [hm, List.filter_append, List.flatMap_append, modify_search]
    by_cases heq : t = s
    · subst heq
      rw [hmsgid, if_neg hne] at ht' ⊢
      simp [ht']
    · rw [if_neg heq, ht']
      split
      · rfl
      · next hne' =>
        have hother : ¬msgid = (p.search t).msgid := by
          intro hsame
          exact heq (h.ids t ht s hlt (hsame.symm.trans hmsgid.symm) hne')
        simp [hother]
  · rcases List.mem_append.mp hr with hr | hr
    · obtain ⟨hne', u, hu, hmsg⟩ := h.received r hr
      exact ⟨hne', u, hu, (hm u).trans hmsg⟩
    · obtain rfl := List.mem_singleton.mp hr
      exact ⟨hne, s, hlt, (hm s).trans hmsgid⟩
  · dsimp only
    rw [hm]
    exact h.launched hlaunched t ht

/-- The callback of a listed search is called. -/
theorem Sound.call (h : p.Sound) (hcalling : p.calling = none) {s : Nat} (hs : s ∈ p.requests)
    (hne : (p.search s).msgid ≠ 0) :
    Sound { p.modify s fun search =>
        { search with
          callbacks := search.callbacks + 1
          calledLate := search.calledLate || search.ended } with calling := some s } := by
  have hlive := ((h.listed s).mp hs).2
  have hfirst : (p.search s).callbacks = 0 := by
    obtain ⟨hle, hone⟩ := h.callbacks s (h.lt hs)
    by_contra hne0
    rcases hone (by omega) with hended | hcalled
    · exact Bool.false_ne_true (hlive.symm.trans hended)
    · rw [hcalling] at hcalled
      cases hcalled
  have hm : ∀ t, ((p.modify s fun search =>
      { search with
        callbacks := search.callbacks + 1
        calledLate := search.calledLate || search.ended }).search t).msgid =
      (p.search t).msgid := modify_kept (·.msgid) rfl
  have he : ∀ t, ((p.modify s fun search =>
      { search with
        callbacks := search.callbacks + 1
        calledLate := search.calledLate || search.ended }).search t).ended =
      (p.search t).ended := modify_kept (·.ended) rfl
  refine ⟨h.count, h.nodup, fun t => ?_, fun t ht => ?_, fun t ht => ?_, fun t ht u hu => ?_,
    fun t ht => ?_, fun t ht => ?_, fun t ht => ?_, fun t ht => ?_, fun r hr => ?_,
    fun hlaunched t ht => ?_, h.sane⟩
  · dsimp only
    rw [he]
    exact h.listed t
  · have ht' := h.refs t ht
    dsimp only
    rw [modify_search]
    split <;> exact ht'
  · dsimp only
    rw [hm]
    exact (modify_kept (·.launches) rfl t).trans (h.launches t ht)
  · dsimp only
    rw [hm, hm]
    exact h.ids t ht u hu
  · have ht' := h.callbacks t ht
    dsimp only
    rw [modify_search]
    split
    · next heq =>
      subst heq
      simp [hfirst]
    · next hts =>
      refine ⟨ht'.1, fun hone => Or.inl ((ht'.2 hone).resolve_right fun hcalled => ?_)⟩
      rw [hcalling] at hcalled
      cases hcalled
  · have ht' := h.onTime t ht
    dsimp only
    rw [modify_search]
    split
    · next heq =>
      subst heq
      simp [ht', hlive]
    · exact ht'
  · cases ht
    exact ⟨hs, by rw [hm]; exact hne⟩
  · dsimp only
    rw [hm]
    exact (modify_kept (·.foundEntries) rfl t).trans (h.found t ht)
  · obtain ⟨hne', u, hu, hmsg⟩ := h.received r hr
    exact ⟨hne', u, hu, (hm u).trans hmsg⟩
  · dsimp only
    rw [hm]
    exact h.launched hlaunched t ht

theorem requestSearch_eq (h : p.Sound) (msgid : Nat) :
    p.requestSearch msgid =
      some (p.requests.find? fun s => (p.search s).msgid == msgid) :=
  findCustom_eq (fun _ search => search.msgid == msgid) fun _ hs => h.deref hs

/-- One iteration, up to a callback or to its end. -/
theorem iterate_sound (h : p.Sound) (hcalling : p.calling = none)
    {result : Option LdapResult} {searchExt : Nat → Option Nat}
    (hgives : p.Gives (.iterate result searchExt))
    (hmeets : p.Meets cfg (.iterate result searchExt)) :
    ∃ p', p.iterate cfg result searchExt = some p' ∧ p'.Sound := by
  obtain ⟨hids, hext⟩ := hgives
  unfold iterate
  split
  swap
  · next hidle =>
    refine launchPending_sound h hcalling hext fun hconnected => ?_
    -- nothing is listed
    have hnil : p.requests = [] := by
      rw [← List.length_eq_zero_iff, ← h.count]
      have hcount : ¬p.reqCount > 0 := fun hpos => hidle ⟨hconnected, hpos⟩
      omega
    rw [hnil]
    exact List.IsChain.nil
  next hpolls =>
  obtain ⟨hconnected, hcount⟩ := hpolls
  obtain ⟨harrives, hskip⟩ := hmeets hconnected
  have hrequests : p.requests ≠ [] := by
    intro hnil
    rw [h.count, hnil] at hcount
    exact Nat.lt_irrefl _ hcount
  cases result with
  | none => exact launchPending_sound h hcalling hext fun _ => hskip
  | some r =>
    obtain ⟨msgid, message⟩ := r
    have hne : msgid ≠ 0 := hids _ rfl
    simp only [requestSearch_eq h, Option.bind_eq_bind, Option.bind_some]
    cases hfind : p.requests.find? fun s => (p.search s).msgid == msgid with
    | none =>
      have hnobody : ¬acts cfg message := by
        intro hacts
        obtain ⟨s, hs, hmsgid⟩ := harrives _ rfl hrequests hacts
        exact List.find?_eq_none.mp hfind s hs (beq_iff_eq.mpr hmsgid)
      cases message with
      | entries l =>
        have hnil : l.filterMap cfg.entryFriend = [] := by
          by_contra hsome
          exact hnobody hsome
        simp only [hnil, if_true]
        exact launchPending_sound h hcalling hext fun _ => hskip
      | searchResult => exact absurd trivial hnobody
      | other => exact launchPending_sound h hcalling hext fun _ => hskip
    | some s =>
      have hs := List.mem_of_find?_eq_some hfind
      have hmsgid : (p.search s).msgid = msgid := by
        have htest := List.find?_some hfind
        simpa using htest
      cases message with
      | entries l =>
        have hsame : ∀ t, ((p.modify s fun search => { search with
            foundEntries := search.foundEntries ++ l.filterMap cfg.entryFriend }).search t).msgid =
            (p.search t).msgid := modify_kept (·.msgid) rfl
        exact launchPending_sound (h.receive hs hmsgid hne _) hcalling
          (hext.mono (fun t ht => ht) rfl hsame) fun _ => NoneSkipped.congr hskip fun t _ => hsame t
      | searchResult =>
        have hsame : ∀ t, ((p.modify s fun search =>
            { search with complete := true }).search t).msgid = (p.search t).msgid :=
          modify_kept (·.msgid) rfl
        have hcomplete := h.touch s (f := fun search => { search with complete := true })
          rfl rfl rfl rfl rfl rfl rfl
        have hlaunched : ((p.modify s fun search =>
            { search with complete := true }).search s).msgid ≠ 0 := by
          rw [hsame, hmsgid]
          exact hne
        simp only [completes, hfind] at hskip
        dsimp only
        split
        · exact ⟨_, rfl, hcomplete.call hcalling hs hlaunched⟩
        · next hcb =>
          have hnocb : (p.search s).hasCb = false := by simpa using hcb
          refine searchDone_sound hcomplete hs (fun t ht => ?_) hlaunched
            (hext.mono (fun t ht => ht) rfl hsame) fun _ =>
            NoneSkipped.congr (hskip hnocb) fun t _ => hsame t
          cases hcalling.symm.trans ht
      | other => exact launchPending_sound h hcalling hext fun _ => hskip

/-! ## Runs -/

theorem Sound.idle (h : p.Sound) : Sound { p with launched := false } := by
  obtain ⟨h1, h2, h3, h4, h5, h6, h7, h8, h9, h10, h11, -, h13⟩ := h
  exact ⟨h1, h2, h3, h4, h5, h6, h7, h8, h9, h10, h11, fun hl => (Bool.false_ne_true hl).elim, h13⟩

/-- Whatever is done goes well. -/
theorem operation_sound (h : p.Sound) (hlaunched : p.launched = false) {e : LdapEvent}
    (hgives : p.Gives e) (hmeets : p.Meets cfg e) {after : Option LdapProvider}
    (hoperation : p.operation cfg e = some after) : ∃ p', after = some p' ∧ p'.Sound := by
  have hlt : ∀ {s}, p.isAlive s = true → s < p.allocated ∧ 0 < (p.search s).refs := by
    intro s halive
    simpa [isAlive] using halive
  cases e with
  | bound =>
    cases hoperation
    obtain ⟨h1, h2, h3, h4, h5, h6, h7, h8, h9, h10, h11, h12, h13⟩ := h
    exact ⟨_, rfl, h1, h2, h3, h4, h5, h6, h7, h8, h9, h10, h11, h12, h13⟩
  | beginSearch hasCb searchExt =>
    cases hoperation
    exact ⟨_, rfl, beginSearch_sound h hlaunched hasCb hgives⟩
  | ref s =>
    simp only [operation] at hoperation
    split at hoperation
    · cases hoperation
      exact ⟨_, rfl, h.touch s rfl rfl rfl rfl rfl rfl (by dsimp only; omega)⟩
    · cases hoperation
  | unref s =>
    simp only [operation] at hoperation
    split at hoperation
    · next hguard =>
      cases hoperation
      have hrefs := h.refs s hguard.1
      have hpos : 0 < (p.search s).refs := by
        rw [hrefs]
        exact Nat.lt_of_lt_of_le hguard.2 (Nat.le_add_left _ _)
      have halive : (p.modify s fun search => { search with held := search.held - 1 }).isAlive s =
          true := by
        simp only [isAlive, modify_search, if_true, Bool.and_eq_true, decide_eq_true_eq]
        exact ⟨hguard.1, hpos⟩
      refine ⟨p.modify s fun search =>
        { search with held := search.held - 1, refs := search.refs - 1 }, ?_,
        h.touch s rfl rfl rfl rfl rfl rfl (by dsimp only; omega)⟩
      simp only [LdapProvider.unref, LdapProvider.deref, halive, if_true, Option.bind_eq_bind,
        Option.bind_some, modify_modify]
    · cases hoperation
  | cancelSearch s =>
    simp only [operation] at hoperation
    split at hoperation
    · next halive =>
      cases hoperation
      obtain ⟨hcalling, hfirst⟩ := hmeets
      by_cases hs : s ∈ p.requests
      · refine ⟨p.without s, ?_, h.without hs hcalling⟩
        simp only [cancelSearch_listed h hs hfirst, Option.map_some, hs, if_true]
      · have hended : (p.search s).ended = true := by
          by_contra hlive
          exact hs ((h.listed s).mpr ⟨(hlt halive).1, by simpa using hlive⟩)
        have hrefs := h.refs s (hlt halive).1
        have hpos := (hlt halive).2
        rw [if_neg hs] at hrefs
        refine ⟨p.modify s fun search =>
          { search with refs := search.refs - 1, ended := true, held := search.held - 1 }, ?_,
          h.touch s rfl rfl rfl hended.symm rfl rfl (by dsimp only; omega)⟩
        simp only [cancelSearch_unlisted h hs halive hfirst, Option.map_some, hs, if_false,
          modify_modify]
    · cases hoperation
  | iterate result searchExt =>
    simp only [operation] at hoperation
    split at hoperation
    · next hcalling =>
      cases hoperation
      exact iterate_sound h hcalling hgives hmeets
    · cases hoperation
  | callbackReturns searchExt =>
    obtain ⟨s, hcalling, rfl⟩ := Option.map_eq_some_iff.mp hoperation
    obtain ⟨hs, hne⟩ := h.calling s hcalling
    exact searchDone_sound h hs (fun t ht => Option.some.inj (ht.symm.trans hcalling)) hne hgives
      fun hconnected => hmeets hconnected s hcalling

theorem step_sound (h : p.Sound) {e : LdapEvent} (hgives : p.Gives e) (hmeets : p.Meets cfg e)
    {p' : LdapProvider} (hstep : p.step cfg e = some p') : p'.Sound := by
  rw [step, if_neg (by simp [h.sane])] at hstep
  obtain ⟨after, hoperation, rfl⟩ := Option.map_eq_some_iff.mp hstep
  have hgives : Gives { p with launched := false } e := by
    cases e with
    | iterate result searchExt => exact ⟨hgives.1, hgives.2.mono (fun _ hs => hs) rfl fun _ => rfl⟩
    | callbackReturns searchExt => exact GivesIds.mono hgives (fun _ hs => hs) rfl fun _ => rfl
    | _ => exact hgives
  have hmeets : Meets cfg { p with launched := false } e := by cases e <;> exact hmeets
  obtain ⟨p', rfl, h'⟩ := operation_sound h.idle rfl hgives hmeets hoperation
  exact h'

/-- A run from a new provider. -/
inductive Run (cfg : LdapConfig) (cond : LdapProvider → LdapEvent → Prop) : LdapProvider → Prop
  | init : Run cfg cond {}
  | step {p p' : LdapProvider} (e : LdapEvent) (h : Run cfg cond p) (hgives : p.Gives e)
      (hcond : cond p e) (hstep : p.step cfg e = some p') : Run cfg cond p'

theorem init_sound : Sound {} := by
  refine ⟨rfl, List.nodup_nil, fun s => ?_, ?_, ?_, ?_, ?_, ?_, ?_, ?_, ?_, ?_, rfl⟩ <;> simp

end LdapProvider

end Linphone
