import Linphone.Config.Accessors
import Linphone.Lib.PrefixSearch
import Linphone.Registration.DialPlans

/-!
# Country codes of numbers

`linphone_dial_plan_lookup_ccc_from_e164` of `coreapi/proxy.c` compares a number with the codes of
the dial plans by more and more digits, until one plan agrees. Plans that share a code agree to the
end, so their code is not found; and when another code goes on where a code ends, there are two
plans at the last digit of the code, and none of them agrees with one digit more.

`calling_code_iff`: which numbers are answered with their code. Numbers without a code are answered
with `-1`.
-/

namespace Linphone

/-! ## The lookup -/

/-- One pass over the table: how many codes agree with the number in the first digits, and the last
plan that was elected. -/
def dialPlanPass (number : List Char) (i : Nat) (elected : Option DialPlan) :
    Nat × Option DialPlan :=
  dialPlans.foldl (fun pass plan =>
    if plan.ccc.toList.take i = number.take i then (pass.1 + 1, some plan) else pass) (0, elected)

/-- The loop over the number of digits, of which eight are compared at most. -/
def lookupCccLoop (number : List Char) : Nat → Nat → Option DialPlan → Int
  | 0, _, _ => -1
  | left + 1, i, elected =>
      let i := i + 1
      let (found, elected) := dialPlanPass number i elected
      if (found > 1 ∨ found = 0) ∧ i < 8 then lookupCccLoop number left i elected
      else if found = 1 then elected.elim (-1) fun plan => LpConfig.atoi plan.ccc.toList
      else -1

/-- `linphone_dial_plan_lookup_ccc_from_e164`. The first character is not looked at. -/
def linphoneDialPlanLookupCccFromE164 (e164 : List Char) : Int :=
  if e164[1]? = some '1' then 1 else lookupCccLoop (e164.drop 1) 8 0 none

/-! ## The search it does -/

variable {number : List Char} {plan : DialPlan} {i : Nat}

/-- The code of a plan. -/
abbrev DialPlan.code (plan : DialPlan) : List Char := plan.ccc.toList

open PrefixSearch (agreeing single search Known)

theorem foldl_pass (plans : List DialPlan) (found : Nat) (elected : Option DialPlan) :
    plans.foldl (fun pass plan =>
        if plan.ccc.toList.take i = number.take i then (pass.1 + 1, some plan) else pass)
      (found, elected) =
      (found + (agreeing DialPlan.code plans number i).length,
        (agreeing DialPlan.code plans number i).getLast?.or elected) := by
  induction plans generalizing found elected with
  | nil => rfl
  | cons plan plans ih =>
    rw [List.foldl_cons]
    by_cases h : plan.ccc.toList.take i = number.take i
    · have hcons : agreeing DialPlan.code (plan :: plans) number i =
          plan :: agreeing DialPlan.code plans number i :=
        List.filter_cons_of_pos (decide_eq_true h)
      rw [if_pos h, ih, hcons, List.length_cons, List.getLast?_cons, Nat.add_assoc,
        Nat.add_comm 1]
      cases (agreeing DialPlan.code plans number i).getLast? <;> rfl
    · have hcons : agreeing DialPlan.code (plan :: plans) number i =
          agreeing DialPlan.code plans number i :=
        List.filter_cons_of_neg (by simpa using h)
      rw [if_neg h, ih, hcons]

/-- The loop is the search by prefixes. -/
theorem lookupCccLoop_eq (left i : Nat) (elected : Option DialPlan) (h : i + left = 8) :
    lookupCccLoop number left i elected =
      ((List.range' (i + 1) left).findSome? fun j =>
        single (agreeing DialPlan.code dialPlans number j)).elim (-1)
          fun plan => LpConfig.atoi plan.code := by
  induction left generalizing i elected with
  | zero => rfl
  | succ left ih =>
    rw [lookupCccLoop, dialPlanPass, foldl_pass, List.range'_succ, List.findSome?_cons]
    dsimp only
    cases hagree : agreeing DialPlan.code dialPlans number (i + 1) with
    | nil =>
      by_cases hlast : i + 1 < 8
      · rw [if_pos ⟨.inr rfl, hlast⟩, ih _ _ (by omega)]
        rfl
      · obtain rfl : left = 0 := by omega
        rw [if_neg fun hboth => hlast hboth.2]
        rfl
    | cons plan plans =>
      cases plans with
      | nil =>
        have hone : 0 + [plan].length = 1 := rfl
        rw [hone, if_neg fun hboth => absurd hboth.1 (by decide)]
        rfl
      | cons plan' plans =>
        have hmany : ¬0 + (plan :: plan' :: plans).length = 1 := by
          rw [List.length_cons, List.length_cons]
          omega
        by_cases hlast : i + 1 < 8
        · have hfound : 0 + (plan :: plan' :: plans).length > 1 := by
            rw [List.length_cons, List.length_cons]
            omega
          rw [if_pos ⟨.inl hfound, hlast⟩, ih _ _ (by omega)]
          rfl
        · obtain rfl : left = 0 := by omega
          rw [if_neg fun hboth => hlast hboth.2, if_neg hmany]
          rfl

theorem lookup_eq_search (h : number.head? ≠ some '1') :
    linphoneDialPlanLookupCccFromE164 ('+' :: number) =
      (search DialPlan.code dialPlans number 8).elim (-1) fun plan => LpConfig.atoi plan.code := by
  have hfirst : ('+' :: number)[1]? = number.head? := by
    rw [List.getElem?_cons_succ, List.head?_eq_getElem?]
  rw [linphoneDialPlanLookupCccFromE164, hfirst, if_neg h]
  exact lookupCccLoop_eq 8 0 none rfl

/-! ## The table -/

theorem dialPlans_codes : ∀ plan ∈ dialPlans, plan.code ≠ [] ∧ plan.code.length < 8 ∧
    Scan.decimal (LpConfig.atoi plan.code) = plan.code ∧ 0 ≤ LpConfig.atoi plan.code ∧
    (plan.code.head? = some '1' → plan.code = ['1']) := by
  decide +kernel

theorem dialPlans_shared : ∀ plan ∈ dialPlans, ∀ i < plan.code.length, 0 < i →
    ∃ plan' ∈ dialPlans, plan'.code.take i = plan.code.take i ∧ plan'.code ≠ plan.code := by
  decide +kernel

theorem code_inj {plan' : DialPlan} (h : plan ∈ dialPlans) (h' : plan' ∈ dialPlans)
    (hsame : LpConfig.atoi plan'.code = LpConfig.atoi plan.code) : plan'.code = plan.code := by
  obtain ⟨-, -, hread, -⟩ := dialPlans_codes plan h
  obtain ⟨-, -, hread', -⟩ := dialPlans_codes plan' h'
  rw [← hread, ← hread', hsame]

/-! ## The answers -/

/-- The answer is the code that was found. -/
theorem lookup_eq_code_iff (h : plan ∈ dialPlans) (hfirst : number.head? ≠ some '1') :
    linphoneDialPlanLookupCccFromE164 ('+' :: number) = LpConfig.atoi plan.code ↔
      ∃ plan', search DialPlan.code dialPlans number 8 = some plan' ∧ plan'.code = plan.code := by
  obtain ⟨-, -, -, hnonneg, -⟩ := dialPlans_codes plan h
  rw [lookup_eq_search hfirst]
  cases hsearch : search DialPlan.code dialPlans number 8 with
  | none =>
    constructor
    · intro heq
      have hminus : (-1 : Int) = LpConfig.atoi plan.code := heq
      omega
    · rintro ⟨plan', hsome, -⟩
      cases hsome
  | some plan' =>
    have hmem : plan' ∈ dialPlans := by
      obtain ⟨i, -, -, halone⟩ := PrefixSearch.search_eq_some hsearch
      exact (PrefixSearch.mem_agreeing.mp (halone ▸ List.mem_singleton_self plan')).1
    constructor
    · intro heq
      exact ⟨plan', rfl, code_inj h hmem heq⟩
    · rintro ⟨plan'', hsome, hcode⟩
      obtain rfl := Option.some.inj hsome
      exact congrArg LpConfig.atoi hcode

/-- **Numbers with a code of the table** are answered with it exactly if the code is that of the
North American plan, or no other plan has it and, unless nothing follows it, no other code goes on
where it ends. **Numbers without a code** are answered with `-1`. -/
theorem calling_code_iff (number : List Char) :
    (∀ plan ∈ dialPlans, ∀ n, number = plan.code ++ n →
      (linphoneDialPlanLookupCccFromE164 ('+' :: number) = LpConfig.atoi plan.code ↔
        plan.code = ['1'] ∨ Known DialPlan.code dialPlans plan n)) ∧
    ((∀ plan ∈ dialPlans, ¬plan.code <+: number) →
      linphoneDialPlanLookupCccFromE164 ('+' :: number) = -1) := by
  constructor
  · rintro plan h n rfl
    obtain ⟨hcode, hlength, hread, -, hone⟩ := dialPlans_codes plan h
    by_cases hfirst : plan.code = ['1']
    · have hvalue : LpConfig.atoi ['1'] = 1 := by decide
      rw [hfirst, hvalue]
      exact ⟨fun _ => .inl rfl, fun _ => rfl⟩
    · have hhead : (plan.code ++ n).head? ≠ some '1' := by
        rw [List.head?_append_of_ne_nil _ hcode]
        exact fun hhead => hfirst (hone hhead)
      rw [lookup_eq_code_iff h hhead, PrefixSearch.search_append_iff h hcode hlength]
      exact ⟨Or.inr, fun hor => hor.resolve_left hfirst⟩
  · intro hnone
    have hhead : number.head? ≠ some '1' := by
      intro hhead
      obtain ⟨rest, rfl⟩ := List.head?_eq_some_iff.mp hhead
      have hus : (⟨"US", "1", 10, "011"⟩ : DialPlan) ∈ dialPlans := by decide +kernel
      exact hnone _ hus (List.prefix_append ['1'] rest)
    rw [lookup_eq_search hhead, PrefixSearch.search_eq_none dialPlans_shared hnone]
    rfl

/-- Two plans have the code of Russia, and the code of Thailand goes on to that of Montserrat. -/
theorem codes_not_found :
    linphoneDialPlanLookupCccFromE164 "+79161234567".toList = -1 ∧
      linphoneDialPlanLookupCccFromE164 "+6621234567".toList = -1 ∧
      linphoneDialPlanLookupCccFromE164 "+66421234567".toList = 664 := by
  decide +kernel

end Linphone
