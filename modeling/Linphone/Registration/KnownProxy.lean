import Linphone.Registration.Proxy

/-!
# The proxy of a destination

`linphone_core_lookup_known_proxy` of `coreapi/linphonecore.c` takes the default proxy if it has the
domain of a destination, and then walks the list of proxies once. The walk passes over proxies
without a domain; the domain of the default proxy is compared as it is.

`known_proxy_iff`: the walk keeps the precedence, and the lookup is defined exactly if the default
proxy has a domain, or there is nothing to compare it with.
-/

namespace Linphone

variable {α : Type}

/-! ## The lookup -/

/-- `found_cfg`, `found_reg_cfg` and `found_noreg_cfg` -/
structure FoundProxies (α : Type) where
  cfg : Option α := none
  regCfg : Option α := none
  noregCfg : Option α := none

variable (config : α → LinphoneProxyConfig) (domainOf : α → Option String)

/-- The loop over the proxies, which are given by their address. -/
def lookupProxyLoop (domain : String) : List α → FoundProxies α → FoundProxies α
  | [], found => found
  | cfg :: elem, found =>
      if domainOf cfg = some domain then
        if (config cfg).state = .ok then { found with cfg := some cfg }
        else if found.regCfg.isNone ∧ (config cfg).regSendregister then
          lookupProxyLoop domain elem { found with regCfg := some cfg }
        else if found.noregCfg.isNone then
          lookupProxyLoop domain elem { found with noregCfg := some cfg }
        else lookupProxyLoop domain elem found
      else lookupProxyLoop domain elem found

/-- What is left after `end:`, and the default proxy if there is nothing. -/
def FoundProxies.chosen (found : FoundProxies α) (defaultCfg : Option α) : Option α :=
  let foundCfg :=
    if found.cfg.isNone ∧ found.regCfg.isSome then found.regCfg
    else if found.cfg.isNone ∧ found.noregCfg.isSome then found.noregCfg
    else found.cfg
  if foundCfg.isNone then defaultCfg else foundCfg

/-- `linphone_core_lookup_known_proxy` of a destination with a domain, if it has one. -/
def linphoneCoreLookupKnownProxy (proxies : List α) (defaultCfg : Option α)
    (uriDomain : Option String) : Outcome Empty (Option α) :=
  match uriDomain with
  | none => .ok defaultCfg
  | some uriDomain =>
      match defaultCfg with
      | none => .ok ((lookupProxyLoop config domainOf uriDomain proxies {}).chosen defaultCfg)
      | some cfg =>
          -- the domain of the default proxy is followed without a test
          match domainOf cfg with
          | none => .undefined
          | some domain =>
              if domain = uriDomain then .ok (FoundProxies.chosen { cfg := some cfg } defaultCfg)
              else .ok ((lookupProxyLoop config domainOf uriDomain proxies {}).chosen defaultCfg)

/-! ## The precedence -/

/-- A proxy has the domain of a destination. -/
def HasDomain (uriDomain : Option String) (cfg : α) : Prop :=
  uriDomain.isSome ∧ domainOf cfg = uriDomain

instance (uriDomain : Option String) (cfg : α) : Decidable (HasDomain domainOf uriDomain cfg) := by
  unfold HasDomain
  infer_instance

/-- The first proxy with the domain that is registered, or else one that registers, or else any. -/
def firstProxy (proxies : List α) (uriDomain : Option String) : Option α :=
  (proxies.find? fun cfg =>
      decide (HasDomain domainOf uriDomain cfg ∧ (config cfg).state = .ok)).or <|
    (proxies.find? fun cfg =>
        decide (HasDomain domainOf uriDomain cfg ∧ (config cfg).regSendregister)).or <|
      proxies.find? fun cfg => decide (HasDomain domainOf uriDomain cfg)

/-- The default proxy if it has the domain, or else the first of the others, or else the default
proxy nevertheless. -/
def precedence (proxies : List α) (defaultCfg : Option α) (uriDomain : Option String) : Option α :=
  (defaultCfg.filter fun cfg => decide (HasDomain domainOf uriDomain cfg)).or <|
    (firstProxy config domainOf proxies uriDomain).or defaultCfg

variable {config domainOf} {proxies : List α} {defaultCfg : Option α} {domain : String}
  {found : FoundProxies α}

theorem chosen_eq :
    found.chosen defaultCfg = (found.cfg.or (found.regCfg.or found.noregCfg)).or defaultCfg := by
  obtain ⟨cfg, regCfg, noregCfg⟩ := found
  cases cfg with
  | some cfg => rfl
  | none =>
    cases regCfg with
    | some cfg => rfl
    | none => cases noregCfg <;> rfl

/-- The walk over the proxies, from any that were kept before. -/
theorem lookupProxyLoop_chosen (regCfg noregCfg : Option α) :
    (lookupProxyLoop config domainOf domain proxies
        { regCfg := regCfg, noregCfg := noregCfg }).chosen defaultCfg =
      ((proxies.find? fun cfg =>
          decide (HasDomain domainOf (some domain) cfg ∧ (config cfg).state = .ok)).or <|
        (regCfg.or (proxies.find? fun cfg =>
          decide (HasDomain domainOf (some domain) cfg ∧ (config cfg).regSendregister))).or <|
        noregCfg.or (proxies.find? fun cfg =>
          decide (HasDomain domainOf (some domain) cfg))).or defaultCfg := by
  induction proxies generalizing regCfg noregCfg with
  | nil =>
    rw [lookupProxyLoop, chosen_eq]
    simp only [List.find?_nil, Option.none_or, Option.or_none]
  | cons cfg proxies ih =>
    rw [lookupProxyLoop, List.find?_cons, List.find?_cons, List.find?_cons]
    by_cases hdomain : domainOf cfg = some domain
    · have hhas : HasDomain domainOf (some domain) cfg := ⟨rfl, hdomain⟩
      simp only [hdomain, hhas, if_true, true_and, decide_true]
      by_cases hok : (config cfg).state = .ok
      · rw [if_pos hok, chosen_eq, decide_eq_true hok]
        rfl
      · rw [if_neg hok, decide_eq_false hok]
        cases hreg : (config cfg).regSendregister with
        | true =>
          cases regCfg with
          | none => exact ih _ _
          | some reg =>
            cases noregCfg with
            | none => exact ih _ _
            | some noreg => exact ih _ _
        | false =>
          rw [if_neg (by simp)]
          cases noregCfg with
          | none => exact ih _ _
          | some noreg => exact ih _ _
    · have hhas : ¬HasDomain domainOf (some domain) cfg := fun h => hdomain h.2
      simp only [hdomain, hhas, if_false, false_and, decide_false]
      exact ih _ _

theorem chosen_firstProxy :
    (lookupProxyLoop config domainOf domain proxies {}).chosen defaultCfg =
      (firstProxy config domainOf proxies (some domain)).or defaultCfg := by
  rw [lookupProxyLoop_chosen, firstProxy, Option.none_or, Option.none_or]

theorem precedence_none : precedence config domainOf proxies defaultCfg none = defaultCfg := by
  have hno : ∀ cfg, ¬HasDomain domainOf none cfg := fun cfg h => absurd h.1 (by decide)
  have hnone : (proxies.find? fun _ => false) = none := List.find?_eq_none.mpr fun _ _ => by decide
  cases defaultCfg with
  | none =>
    simp only [precedence, firstProxy, hno, false_and, decide_false, hnone]
    rfl
  | some cfg =>
    simp only [precedence, firstProxy, hno, false_and, decide_false, hnone]
    rfl

/-- **The proxy of a destination** is found by the precedence, without following a missing domain,
exactly if the default proxy has a domain, or there is none, or the destination has none. -/
theorem known_proxy_iff (config : α → LinphoneProxyConfig) (domainOf : α → Option String)
    (proxies : List α) (defaultCfg : Option α) (uriDomain : Option String) :
    linphoneCoreLookupKnownProxy config domainOf proxies defaultCfg uriDomain =
        .ok (precedence config domainOf proxies defaultCfg uriDomain) ↔
      ∀ cfg ∈ defaultCfg, uriDomain.isSome → (domainOf cfg).isSome := by
  cases uriDomain with
  | none =>
    rw [precedence_none]
    exact ⟨fun _ cfg _ h => absurd h (by decide), fun _ => rfl⟩
  | some domain =>
    cases defaultCfg with
    | none =>
      refine ⟨(fun _ cfg hcfg => by cases hcfg), fun _ => ?_⟩
      rw [linphoneCoreLookupKnownProxy, chosen_firstProxy]
      rfl
    | some cfg =>
      cases hdomain : domainOf cfg with
      | none =>
        simp only [linphoneCoreLookupKnownProxy, hdomain]
        refine ⟨(fun h => by cases h), fun h => ?_⟩
        have hsome := h cfg rfl rfl
        rw [hdomain] at hsome
        cases hsome
      | some own =>
        refine ⟨fun _ c hc _ => ?_, fun _ => ?_⟩
        · obtain rfl := Option.some.inj hc
          rw [hdomain]
          rfl
        · simp only [linphoneCoreLookupKnownProxy, hdomain, precedence]
          by_cases hown : own = domain
          · have hhas : HasDomain domainOf (some domain) cfg := ⟨rfl, hown ▸ hdomain⟩
            rw [if_pos hown, Option.filter_some, decide_eq_true hhas]
            rfl
          · have hhas : ¬HasDomain domainOf (some domain) cfg := fun h =>
              hown (Option.some.inj (hdomain.symm.trans h.2))
            rw [if_neg hown, chosen_firstProxy, Option.filter_some, decide_eq_false hhas]
            rfl

/-- A default proxy without a domain. -/
theorem default_without_domain :
    linphoneCoreLookupKnownProxy
        (fun _ : Unit => { reg := ⟨none, none⟩, saved := ⟨none, none⟩, regSendregister := false
                           expires := 3600, commit := false, state := .none, op := none })
        (fun _ => none) [()] (some ()) (some "example.org") = .undefined := by
  decide

end Linphone
