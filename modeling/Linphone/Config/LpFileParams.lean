import Linphone.Config.LpFileLines

/-!
# The parameters of a section

`[name key=value ...]`: what `lp_config_parse_line` (`coreapi/lpconfig.c`) adds to the section.
After each parameter its cursor moves on by the lengths of the two tokens and two, whatever the
spaces it skipped, so it is where the next parameter begins only if these are single. One space too
many is made up for by the one it steps over; with more it stays behind in the text it has read.
With none too many it steps over the NUL that replaced the closing bracket, into what follows it.

`header_params_iff`: for which spacing, and which text behind the bracket, all parameters are read
as they are and nothing else is.
-/

namespace Linphone

open CString
open Scan (isSpace)

/-! ## Headers -/

/-- A parameter with the spaces in front of it, one and as many as `x.1` says. -/
def spacedParam (x : Nat × LpSectionParam) : LpText :=
  List.replicate (x.1 + 1) ' ' ++ (x.2.key ++ '=' :: x.2.value)

/-- `[name key=value ...]` with some text behind it. -/
def headerLine (name : LpText) (params : List (Nat × LpSectionParam)) (tail : LpText) : LpText :=
  '[' :: (name ++ (params.flatMap spacedParam ++ ']' :: tail))

/-- `lp_config_parse_line` adds these parameters to the section, whatever there is before. -/
def AddsParams (name : LpText) (params : List LpSectionParam) (line : LpText) : Prop :=
  ∀ lpconfig cur after, LpFile.readLine (lpconfig, cur) (scanLine (line ++ nul :: after)).1 =
    (LpFile.modifySection name (·.addParams params) (lpconfig.openSection name), some name)

theorem addsParams_iff {name line : LpText} {params : List LpSectionParam} :
    AddsParams name params line ↔
      ∀ after, (scanLine (line ++ nul :: after)).1 = .header name params := by
  constructor
  · intro h after
    have hnew := h [] none after
    cases hline : (scanLine (line ++ nul :: after)).1 with
    | header name' params' =>
      rw [hline] at hnew
      simp only [LpFile.readLine, LpFile.openSection, LpFile.findSection, List.find?_nil,
        List.nil_append, LpFile.modifySection, if_true, LpFileSection.addParams,
        Prod.mk.injEq, List.cons.injEq, LpFileSection.mk.injEq, Option.some.injEq] at hnew
      obtain ⟨⟨⟨rfl, rfl, -⟩, -⟩, -⟩ := hnew
      rfl
    | comment text =>
      rw [hline] at hnew
      cases (Prod.mk.inj hnew).2
    | pair key value =>
      rw [hline] at hnew
      cases (Prod.mk.inj hnew).2
    | other =>
      rw [hline] at hnew
      cases (Prod.mk.inj hnew).2
  · intro h lpconfig cur after
    rw [h after]
    rfl

/-! ## What adds nothing -/

section

variable {pre body behind : LpText} {fuel : Nat}

/-- A text that `lp_config_parse_line` takes no parameter from: with a space for the first equals
sign it has less than two words. -/
def Harmless (text : LpText) : Prop :=
  ∀ p q, text = p ++ '=' :: q → '=' ∉ p → twoWords (p ++ ' ' :: q) = none

/-- **What is left after the last parameter** adds nothing exactly when it is harmless. -/
theorem scanParams_eq_nil_iff (hnul : nul ∉ body) :
    (scanParams (fuel + 1) (pre ++ (body ++ nul :: behind)) pre.length).1 = [] ↔
      Harmless body := by
  by_cases hmem : '=' ∈ body
  · obtain ⟨p, q, rfl, hp⟩ := List.eq_append_cons_of_mem hmem
    rw [scanParams_step hp hnul]
    constructor
    · intro h p' q' hsplit hp'
      obtain ⟨rfl, rfl⟩ := first_split hp hp' hsplit
      cases hwords : twoWords (p ++ ' ' :: q) with
      | none => rfl
      | some w =>
        rw [hwords] at h
        cases h
    · intro h
      rw [h p q rfl hp]
  · refine iff_of_true (scanParams_none hmem hnul) fun p q hsplit _ => ?_
    exact absurd (hsplit ▸ List.mem_append_right _ List.mem_cons_self) hmem

end

/-! ## Spacing -/

/-- Spacing that leaves the loop in step: `extra` spaces too many were skipped so far, and at the
end it is the text behind the bracket that is read if there were none. -/
def SpacesInStep (tail : LpText) : Nat → List Nat → Prop
  | extra, [] => extra ≤ 3 ∧ (extra = 0 → Harmless tail)
  | extra, e :: extras => extra ≤ 1 ∧ SpacesInStep tail (extra + e) extras

section

variable {tail : LpText}

theorem nul_not_mem_spaced {x : Nat × LpSectionParam} (hx : IsParam x.2) : nul ∉ spacedParam x := by
  simp only [spacedParam, List.mem_append, List.mem_cons, not_or]
  refine ⟨fun h => ?_, hx.key.noNul, by decide, hx.value.noNul⟩
  exact absurd (List.eq_of_mem_replicate h) (by decide)

theorem nul_not_mem_spaceds {l : List (Nat × LpSectionParam)} (hl : ∀ x ∈ l, IsParam x.2) :
    nul ∉ l.flatMap spacedParam := by
  intro h
  obtain ⟨x, hx, hnul⟩ := List.mem_flatMap.mp h
  exact nul_not_mem_spaced (hl x hx) hnul

theorem head_spaceds (l : List (Nat × LpSectionParam)) :
    ∀ x ∈ (l.flatMap spacedParam).head?, isSpace x = true := by
  intro x hx
  cases l with
  | nil => cases hx
  | cons y l =>
    cases hx
    rfl

/-- **One parameter is read**, when the cursor is one space or none behind where it should be. -/
theorem scanParams_spaced {extra : Nat} (hextra : extra ≤ 1) {x : Nat × LpSectionParam}
    (hx : IsParam x.2) (hequals : '=' ∉ x.2.key) {rest : LpText}
    (hrest : ∀ y ∈ rest.head?, isSpace y = true) (hnul : nul ∉ rest) (pre behind : LpText)
    (fuel : Nat) :
    (scanParams (fuel + 1) (pre ++ ((spacedParam x ++ rest) ++ nul :: behind))
        (pre.length + 1 - extra)).1 =
      x.2 :: (scanParams fuel ((pre ++ (List.replicate (x.1 + 1) ' ' ++
        (x.2.key ++ ' ' :: x.2.value)))
          ++ (rest ++ nul :: behind))
        ((pre ++ (List.replicate (x.1 + 1) ' ' ++ (x.2.key ++ ' ' :: x.2.value))).length + 1 -
          (extra + x.1))).1 := by
  obtain ⟨e, key, value⟩ := x
  -- the spaces before the cursor, and those behind it
  have hspaces : List.replicate (e + 1) ' ' =
      List.replicate (1 - extra) ' ' ++ List.replicate (extra + e) ' ' := by
    rw [List.replicate_append_replicate]
    congr 1
    omega
  have hmem : pre ++ ((spacedParam (e, ⟨key, value⟩) ++ rest) ++ nul :: behind) =
      (pre ++ List.replicate (1 - extra) ' ') ++
        (((List.replicate (extra + e) ' ' ++ key) ++ '=' :: (value ++ rest)) ++ nul :: behind) := by
    rw [spacedParam, hspaces]
    simp only [List.append_assoc, List.cons_append]
  have hpos : pre.length + 1 - extra = (pre ++ List.replicate (1 - extra) ' ').length := by
    rw [List.length_append, List.length_replicate]
    omega
  have hp : '=' ∉ List.replicate (extra + e) ' ' ++ key := by
    intro h
    rcases List.mem_append.mp h with h | h
    · exact absurd (List.eq_of_mem_replicate h) (by decide)
    · exact hequals h
  have hbody : nul ∉ (List.replicate (extra + e) ' ' ++ key) ++ '=' :: (value ++ rest) := by
    simp only [List.mem_append, List.mem_cons, not_or]
    refine ⟨⟨fun h => ?_, hx.key.noNul⟩, by decide, hx.value.noNul, hnul⟩
    exact absurd (List.eq_of_mem_replicate h) (by decide)
  have hwords : twoWords ((List.replicate (extra + e) ' ' ++ key) ++ ' ' :: (value ++ rest)) =
      some (key, value) := by
    rw [List.append_assoc, twoWords_replicate]
    exact twoWords_append hx.key.noSpace hx.key.ne hx.value.noSpace hx.value.ne hrest
  rw [hmem, hpos, scanParams_step hp hbody, hwords]
  dsimp only
  have hnext : (pre ++ List.replicate (1 - extra) ' ') ++
        (((List.replicate (extra + e) ' ' ++ key) ++ ' ' :: (value ++ rest)) ++ nul :: behind) =
      (pre ++ (List.replicate (e + 1) ' ' ++ (key ++ ' ' :: value))) ++
        (rest ++ nul :: behind) := by
    rw [hspaces]
    simp only [List.append_assoc, List.cons_append]
  have hcursor : (pre ++ List.replicate (1 - extra) ' ').length + key.length + value.length + 2 =
      (pre ++ (List.replicate (e + 1) ' ' ++ (key ++ ' ' :: value))).length + 1 - (extra + e) := by
    simp only [List.length_append, List.length_replicate, List.length_cons]
    omega
  rw [hnext, hcursor]

/-- What the cursor has not left behind yet. -/
theorem scanParams_behind {pre : LpText} (hpre : nul ∉ pre) {extra : Nat} (hextra : 0 < extra)
    (fuel : Nat) (behind : LpText) :
    (scanParams (fuel + 1) (pre ++ nul :: behind) (pre.length + 1 - extra)).1 = [] ↔
      Harmless (pre.drop (pre.length + 1 - extra)) := by
  have hsplit := List.take_append_drop (pre.length + 1 - extra) pre
  have hlength : (pre.take (pre.length + 1 - extra)).length = pre.length + 1 - extra := by
    rw [List.length_take]
    omega
  have hnul : nul ∉ pre.drop (pre.length + 1 - extra) := fun h => hpre (List.mem_of_mem_drop h)
  have hstep := @scanParams_eq_nil_iff (pre.take (pre.length + 1 - extra)) _ behind fuel hnul
  rw [← List.append_assoc, hsplit, hlength] at hstep
  exact hstep

theorem harmless_short {text : LpText} (h : text.length ≤ 2) : Harmless text := by
  intro p q hsplit _
  refine twoWords_short ?_
  rw [hsplit] at h
  simpa using h

theorem scanParams_tail (hnul : nul ∉ tail) (pre after : LpText) (fuel : Nat) :
    (scanParams (fuel + 1) (pre ++ nul :: (tail ++ nul :: after)) (pre.length + 1)).1 = [] ↔
      Harmless tail := by
  have hstep := @scanParams_eq_nil_iff (pre ++ [nul]) _ after fuel hnul
  rw [List.append_assoc, List.length_append] at hstep
  exact hstep

/-- **Parameters that are in step are read as they are, and nothing after them.** -/
theorem scanParams_inStep {l : List (Nat × LpSectionParam)}
    (hl : ∀ x ∈ l, IsParam x.2 ∧ '=' ∉ x.2.key) {extra : Nat}
    (hstep : SpacesInStep tail extra (l.map Prod.fst)) (htail : nul ∉ tail) {pre : LpText}
    (hpre : nul ∉ pre) (after : LpText) {fuel : Nat} (hfuel : l.length < fuel) :
    (scanParams fuel (pre ++ (l.flatMap spacedParam ++ nul :: (tail ++ nul :: after)))
      (pre.length + 1 - extra)).1 = l.map Prod.snd := by
  induction l generalizing extra pre fuel with
  | nil =>
    obtain ⟨fuel, rfl⟩ := Nat.exists_eq_succ_of_ne_zero (Nat.ne_zero_of_lt hfuel)
    obtain ⟨hextra, hzero⟩ := hstep
    rcases Nat.eq_zero_or_pos extra with rfl | hpos
    · exact (scanParams_tail htail pre after fuel).mpr (hzero rfl)
    · refine (scanParams_behind hpre hpos fuel _).mpr (harmless_short ?_)
      rw [List.length_drop]
      omega
  | cons x l ih =>
    obtain ⟨fuel, rfl⟩ := Nat.exists_eq_succ_of_ne_zero (Nat.ne_zero_of_lt hfuel)
    obtain ⟨hextra, hnext⟩ := hstep
    obtain ⟨hx, hrest⟩ := List.forall_mem_cons.mp hl
    rw [List.flatMap_cons, scanParams_spaced hextra hx.1 hx.2 (head_spaceds l)
      (nul_not_mem_spaceds fun y hy => (hrest y hy).1), ih hrest hnext ?_
        (Nat.lt_of_succ_lt_succ hfuel)]
    · rfl
    · simp only [List.mem_append, List.mem_cons, not_or]
      refine ⟨hpre, fun h => ?_, hx.1.key.noNul, by decide, hx.1.value.noNul⟩
      exact absurd (List.eq_of_mem_replicate h) (by decide)

/-- What is between the name and the closing bracket. -/
theorem scanLine_headerLine {name : LpText} (hname : IsWord name) (hbracket : ']' ∉ name)
    {l : List (Nat × LpSectionParam)} (hl : ∀ x ∈ l, IsParam x.2 ∧ Plain x.2)
    (tail after : LpText) :
    (scanLine (headerLine name l tail ++ nul :: after)).1 =
      .header name (if l = [] then [] else
        (scanParams ((('[' :: name) ++ (l.flatMap spacedParam ++
          nul :: (tail ++ nul :: after))).length
            + 1)
          (('[' :: name) ++ (l.flatMap spacedParam ++ nul :: (tail ++ nul :: after)))
          (('[' :: name).length + 1)).1) := by
  have hq : ']' ∉ l.flatMap spacedParam := by
    intro h
    obtain ⟨x, hx, hin⟩ := List.mem_flatMap.mp h
    simp only [spacedParam, List.mem_append, List.mem_cons] at hin
    obtain ⟨-, hplain⟩ := hl x hx
    rcases hin with hin | hin | hin | hin
    · exact absurd (List.eq_of_mem_replicate hin) (by decide)
    · exact hplain.keyBracket hin
    · cases hin
    · exact hplain.valueBracket hin
  have hempty : l.flatMap spacedParam = [] ↔ l = [] := by
    cases l with
    | nil => exact iff_of_true rfl rfl
    | cons x l => exact iff_of_false (by simp [spacedParam]) (List.cons_ne_nil x l)
  have hline : headerLine name l tail ++ nul :: after =
      ('[' :: (name ++ l.flatMap spacedParam)) ++ ']' :: (tail ++ nul :: after) := by
    simp only [headerLine, List.cons_append, List.append_assoc]
  rw [hline, scanLine_named hname hbracket hq (nul_not_mem_spaceds fun x hx => (hl x hx).1)
    (head_spaceds l)]
  simp only [hempty]

/-! ## Spacing that is out of step -/

/-- A parameter that is not like any before it: its key is longer. -/
def longKey (i : Nat) : LpSectionParam := ⟨List.replicate (i + 1) 'k', ['v', '=', 'v']⟩

/-- Parameters with longer and longer keys. -/
def longKeys : Nat → List Nat → List (Nat × LpSectionParam)
  | _, [] => []
  | i, e :: extras => (e, longKey i) :: longKeys (i + 1) extras

theorem isParam_longKey (i : Nat) : IsParam (longKey i) where
  key :=
    { ne := by simp [longKey]
      noSpace := fun x hx => by rw [List.eq_of_mem_replicate hx]; rfl
      noNul := fun h => absurd (List.eq_of_mem_replicate h) (by decide) }
  value :=
    { ne := List.cons_ne_nil _ _
      noSpace := (by decide : ∀ x ∈ ['v', '=', 'v'], isSpace x = false)
      noNul := (by decide : nul ∉ ['v', '=', 'v']) }

theorem plain_longKey (i : Nat) : Plain (longKey i) where
  noEquals h := absurd (List.eq_of_mem_replicate h) (by decide)
  keyBracket h := absurd (List.eq_of_mem_replicate h) (by decide)
  valueBracket := (by decide : ']' ∉ ['v', '=', 'v'])

theorem mem_longKeys {i : Nat} {extras : List Nat} {x : Nat × LpSectionParam}
    (hx : x ∈ longKeys i extras) : IsParam x.2 ∧ Plain x.2 := by
  induction extras generalizing i with
  | nil => cases hx
  | cons e extras ih =>
    rcases List.mem_cons.mp hx with rfl | hx
    · exact ⟨isParam_longKey i, plain_longKey i⟩
    · exact ih hx

theorem map_fst_longKeys (i : Nat) (extras : List Nat) :
    (longKeys i extras).map Prod.fst = extras := by
  induction extras generalizing i with
  | nil => rfl
  | cons e extras ih => exact congrArg (e :: ·) (ih (i + 1))

/-- The text of the last parameter that was read, which the cursor is still in. -/
def readParam (spaces i : Nat) : LpText :=
  List.replicate spaces ' ' ++ ((longKey i).key ++ ' ' :: (longKey i).value)

/-- The end of it. -/
theorem drop_readParam {pre r t : LpText} {extra spaces i : Nat} (ht : t.length + 1 ≤ extra)
    (hspaces : extra ≤ spaces) (hsplit : readParam spaces i = r ++ t) :
    ∃ m, (pre ++ readParam spaces i).drop ((pre ++ readParam spaces i).length + 1 - extra) =
      r.drop m ++ t := by
  have hlength : spaces ≤ (readParam spaces i).length := by
    rw [readParam, List.length_append, List.length_replicate]
    omega
  rw [hsplit, List.length_append] at hlength
  refine ⟨r.length + t.length + 1 - extra, ?_⟩
  rw [hsplit, List.length_append, List.length_append]
  have hpos : pre.length + (r.length + t.length) + 1 - extra =
      pre.length + (r.length + t.length + 1 - extra) := by omega
  rw [hpos, ← List.drop_drop, List.drop_left, List.drop_append_of_le_length (by omega)]

theorem nul_not_mem_readParam (spaces i : Nat) : nul ∉ readParam spaces i := by
  simp only [readParam, List.mem_append, List.mem_cons, not_or]
  refine ⟨fun h => ?_, (isParam_longKey i).key.noNul, by decide, (isParam_longKey i).value.noNul⟩
  exact absurd (List.eq_of_mem_replicate h) (by decide)

/-- Replacing an equals sign before or behind a `v`. -/
theorem replace_around {u rest p q : LpText} (h : u ++ 'v' :: rest = p ++ '=' :: q) :
    ∃ u' rest', p ++ ' ' :: q = u' ++ 'v' :: rest' ∧ u'.count 'k' = u.count 'k' := by
  rcases List.append_eq_append_iff.mp h with ⟨m, rfl, hm⟩ | ⟨m, rfl, hm⟩
  · cases m with
    | nil => cases (List.cons.inj hm).1
    | cons x m =>
      obtain ⟨rfl, -⟩ := List.cons.inj hm
      exact ⟨u, m ++ ' ' :: q, by simp, rfl⟩
  · cases m with
    | nil => cases (List.cons.inj hm).1
    | cons x m =>
      obtain ⟨rfl, rfl⟩ := List.cons.inj hm
      exact ⟨p ++ ' ' :: m, rest, by simp, by simp⟩

section

variable {pre : LpText} {extra spaces i fuel : Nat} (hpre : nul ∉ pre)
include hpre

theorem nul_not_mem_read (spaces i : Nat) : nul ∉ pre ++ readParam spaces i := by
  intro h
  rcases List.mem_append.mp h with h | h
  · exact hpre h
  · exact nul_not_mem_readParam spaces i h

/-- **A cursor that is left in the text it has read** does not find the next parameter. -/
theorem scanParams_drift (hextra : 2 ≤ extra) (hspaces : extra ≤ spaces) {rest behind : LpText}
    (hrest : nul ∉ rest) (l : List LpSectionParam) :
    (scanParams fuel ((pre ++ readParam spaces i) ++ (rest ++ nul :: behind))
      ((pre ++ readParam spaces i).length + 1 - extra)).1 ≠ longKey (i + 1) :: l := by
  have hsplit : readParam spaces i =
      (List.replicate spaces ' ' ++ (List.replicate (i + 1) 'k' ++ [' ', 'v', '='])) ++ ['v'] := by
    simp [readParam, longKey]
  obtain ⟨m, hdrop⟩ := @drop_readParam pre _ _ _ _ _ hextra hspaces hsplit
  generalize hu : (List.replicate spaces ' ' ++ (List.replicate (i + 1) 'k' ++
    [' ', 'v', '='])).drop m
    = u at hdrop
  have hcount : u.count 'k' ≤ i + 1 := by
    have hsub := (List.drop_sublist m
      (List.replicate spaces ' ' ++ (List.replicate (i + 1) 'k' ++ [' ', 'v', '=']))).count_le 'k'
    rw [hu] at hsub
    simpa [List.count_append, List.count_replicate] using hsub
  -- the text from the cursor on
  have hnul : nul ∉ u ++ 'v' :: rest := by
    have hread : nul ∉ u ++ ['v'] := by
      rw [← hdrop]
      exact fun h => nul_not_mem_read hpre spaces i (List.mem_of_mem_drop h)
    simp only [List.mem_append, List.mem_cons, List.not_mem_nil, or_false, not_or] at hread ⊢
    exact ⟨hread.1, hread.2, hrest⟩
  obtain ⟨a, hlength, hwhole⟩ : ∃ a : LpText,
      a.length = (pre ++ readParam spaces i).length + 1 - extra ∧
        pre ++ readParam spaces i = a ++ (u ++ ['v']) := by
    refine ⟨(pre ++ readParam spaces i).take ((pre ++ readParam spaces i).length + 1 - extra),
      ?_, ?_⟩
    · rw [List.length_take]
      omega
    · rw [← hdrop, List.take_append_drop]
  have hmem : (a ++ (u ++ ['v'])) ++ (rest ++ nul :: behind) =
      a ++ ((u ++ 'v' :: rest) ++ nul :: behind) := by simp
  rw [← hlength, hwhole, hmem]
  intro h
  by_cases hequals : '=' ∈ u ++ 'v' :: rest
  · obtain ⟨p, q, hpq, hp⟩ := List.eq_append_cons_of_mem hequals
    cases fuel with
    | zero => cases h
    | succ fuel =>
      rw [hpq] at h hnul
      rw [scanParams_step hp hnul] at h
      cases hwords : twoWords (p ++ ' ' :: q) with
      | none =>
        rw [hwords] at h
        cases h
      | some w =>
        rw [hwords] at h
        obtain ⟨hkey, -, -, -⟩ := twoWords_eq_some (v := w.1) (w := w.2) hwords
        have hlong : w.1 = List.replicate (i + 2) 'k' :=
          congrArg LpSectionParam.key (List.cons.inj h).1
        obtain ⟨u', rest', hsplit', hcount'⟩ := replace_around hpq
        rw [hlong, hsplit'] at hkey
        rcases word_append_cons (by decide : isSpace 'v' = false) u' rest' with hv | hsub
        · rw [← hkey] at hv
          exact absurd (List.eq_of_mem_replicate hv) (by decide)
        · have hle := hsub.count_le 'k'
          rw [← hkey, List.count_replicate_self] at hle
          omega
  · rw [scanParams_none hequals hnul] at h
    cases h

/-- **A cursor that is left far behind** finds one more parameter in the last one. -/
theorem scanParams_far (hextra : 4 ≤ extra) (hspaces : extra ≤ spaces) (behind : LpText) :
    (scanParams (fuel + 1) ((pre ++ readParam spaces i) ++ nul :: behind)
      ((pre ++ readParam spaces i).length + 1 - extra)).1 ≠ [] := by
  have hsplit : readParam spaces i =
      (List.replicate spaces ' ' ++ (List.replicate (i + 1) 'k' ++ [' '])) ++ ['v', '=', 'v'] := by
    simp [readParam, longKey]
  obtain ⟨m, hdrop⟩ := @drop_readParam pre _ _ _ _ _ hextra hspaces hsplit
  generalize hw : (List.replicate spaces ' ' ++ (List.replicate (i + 1) 'k' ++ [' '])).drop m = w
    at hdrop
  have hequals : '=' ∉ w := by
    intro h
    rw [← hw] at h
    have hmem := List.mem_of_mem_drop h
    simp [List.mem_replicate] at hmem
  rw [Ne, scanParams_behind (nul_not_mem_read hpre spaces i) (by omega), hdrop]
  intro hharmless
  have hnone := hharmless (w ++ ['v']) ['v'] (by simp) (by simp [hequals])
  exact twoWords_ne_none (x := 'v') (by simp) rfl List.mem_cons_self rfl hnone

end

/-- **Out of step, longer and longer keys are not read as they are.** -/
theorem scanParams_outOfStep {extras : List Nat} {extra i : Nat}
    (hstep : ¬SpacesInStep tail extra extras)
    (htail : nul ∉ tail) {pre : LpText} (hpre : nul ∉ pre)
    (hread : 1 < extra → ∃ pre₀ spaces j, i = j + 1 ∧ extra ≤ spaces ∧
      pre = pre₀ ++ readParam spaces j) (after : LpText) {fuel : Nat}
    (hfuel : extras.length < fuel) :
    (scanParams fuel (pre ++ ((longKeys i extras).flatMap spacedParam ++
      nul :: (tail ++ nul :: after))) (pre.length + 1 - extra)).1 ≠
        (longKeys i extras).map Prod.snd := by
  induction extras generalizing extra i pre fuel with
  | nil =>
    obtain ⟨fuel, rfl⟩ := Nat.exists_eq_succ_of_ne_zero (Nat.ne_zero_of_lt hfuel)
    rcases Nat.eq_zero_or_pos extra with rfl | hpos
    · rw [SpacesInStep, not_and] at hstep
      intro h
      exact hstep (by omega) fun _ => (scanParams_tail htail pre after fuel).mp h
    · have hfar : 4 ≤ extra := by
        by_contra hnear
        exact hstep ⟨by omega, fun hzero => by omega⟩
      obtain ⟨pre₀, spaces, j, rfl, hspaces, rfl⟩ := hread (by omega)
      exact scanParams_far (fun h => hpre (List.mem_append_left _ h)) hfar hspaces _
  | cons e extras ih =>
    by_cases hextra : extra ≤ 1
    · obtain ⟨fuel, rfl⟩ := Nat.exists_eq_succ_of_ne_zero (Nat.ne_zero_of_lt hfuel)
      have hrest : nul ∉ (longKeys (i + 1) extras).flatMap spacedParam :=
        nul_not_mem_spaceds fun x hx => (mem_longKeys hx).1
      rw [longKeys, List.flatMap_cons, scanParams_spaced hextra (isParam_longKey i)
        (plain_longKey i).noEquals (head_spaceds _) hrest]
      intro h
      refine ih (fun hin => hstep ⟨hextra, hin⟩) (i := i + 1) (nul_not_mem_read hpre (e + 1) i)
        (fun _ => ⟨pre, e + 1, i, rfl, by omega, rfl⟩) (Nat.lt_of_succ_lt_succ hfuel) ?_
      exact (List.cons.inj h).2
    · obtain ⟨pre₀, spaces, j, rfl, hspaces, rfl⟩ := hread (by omega)
      refine scanParams_drift (fun h => hpre (List.mem_append_left _ h)) (by omega) hspaces ?_ _
      exact nul_not_mem_spaceds fun x hx => (mem_longKeys hx).1

end

/-- The memory behind a text, from the NUL that ends it on. -/
theorem exists_read_append (text after : LpText) :
    ∃ after', text ++ nul :: after = CString.read text ++ nul :: after' := by
  induction text with
  | nil => exact ⟨after, rfl⟩
  | cons c text ih =>
    by_cases hc : c = nul
    · refine ⟨text ++ nul :: after, ?_⟩
      rw [hc, read_of_nul_cons]
      rfl
    · obtain ⟨after', hafter⟩ := ih
      have hread : CString.read (c :: text) = c :: CString.read text :=
        List.takeWhile_cons_of_pos (by simpa using hc)
      exact ⟨after', by rw [hread, List.cons_append, hafter, List.cons_append]⟩

theorem length_le_spaceds (l : List (Nat × LpSectionParam)) :
    l.length ≤ (l.flatMap spacedParam).length := by
  induction l with
  | nil => exact Nat.le_refl _
  | cons x l ih =>
    rw [List.flatMap_cons, List.length_append, List.length_cons, spacedParam, List.length_append,
      List.length_replicate]
    omega

/-- **For which spacing the parameters of a header are read**: whatever the name and the parameters,
`lp_config_parse_line` adds these and no others exactly when at most one space too many comes
before the last of them and at most three in all, and, when there is none, the text behind the
bracket is harmless. -/
theorem header_params_iff (extras : List Nat) (tail : LpText) :
    (∀ name l, IsWord name → ']' ∉ name → (∀ x ∈ l, IsParam x.2 ∧ Plain x.2) →
        l.map Prod.fst = extras → AddsParams name (l.map Prod.snd) (headerLine name l tail)) ↔
      extras = [] ∨ SpacesInStep (read tail) 0 extras := by
  have hfuel : ∀ (l : List (Nat × LpSectionParam)) (pre behind : LpText),
      l.length < (pre ++ (l.flatMap spacedParam ++ behind)).length + 1 := by
    intro l pre behind
    have hle := length_le_spaceds l
    simp only [List.length_append]
    omega
  constructor
  · intro h
    by_cases hempty : extras = []
    · exact Or.inl hempty
    refine Or.inr ?_
    by_contra hstep
    have hname : IsWord ['s'] := ⟨by decide, by decide, by decide⟩
    have hadds := addsParams_iff.mp (h ['s'] (longKeys 0 extras) hname (by decide)
      (fun x hx => mem_longKeys hx) (map_fst_longKeys 0 extras)) []
    have hlength : (longKeys 0 extras).length = extras.length := by
      rw [← List.length_map (f := Prod.fst), map_fst_longKeys]
    have hne : longKeys 0 extras ≠ [] := by
      intro hnil
      rw [hnil] at hlength
      exact hempty (List.length_eq_zero_iff.mp hlength.symm)
    obtain ⟨after', hafter⟩ := exists_read_append tail []
    rw [scanLine_headerLine hname (by decide) (fun x hx => mem_longKeys hx), if_neg hne,
      hafter] at hadds
    refine @scanParams_outOfStep _ _ _ _ hstep (not_nul_mem_read tail) ('[' :: ['s']) (by decide)
      (fun hlt => absurd hlt (by decide)) after' _ ?_ (LpLine.header.inj hadds).2
    rw [← hlength]
    exact hfuel _ _ _
  · intro h name l hname hbracket hl hextras
    refine addsParams_iff.mpr fun after => ?_
    rw [scanLine_headerLine hname hbracket hl]
    by_cases hempty : l = []
    · rw [if_pos hempty, hempty]
      rfl
    · have hstep := h.resolve_left fun hnil => hempty (by simpa [hnil] using hextras)
      obtain ⟨after', hafter⟩ := exists_read_append tail after
      have hpre : nul ∉ '[' :: name := fun hmem => by
        rcases List.mem_cons.mp hmem with heq | hmem
        · cases heq
        · exact hname.noNul hmem
      rw [if_neg hempty, hafter]
      congr 1
      exact @scanParams_inStep _ _ (fun x hx => ⟨(hl x hx).1, (hl x hx).2.noEquals⟩)
        0 (hextras ▸ hstep) (not_nul_mem_read tail) _ hpre after' _ (hfuel _ _ _)

/-! ## Text behind the bracket -/

/-- `[s k=v] # a=b`: what is behind the bracket is read as a parameter. -/
theorem text_behind_bracket_read :
    ¬AddsParams "s".toList [⟨"k".toList, "v".toList⟩]
      (headerLine "s".toList [(0, ⟨"k".toList, "v".toList⟩)] " # a=b\n".toList) := by
  intro h
  have hline := addsParams_iff.mp h []
  revert hline
  decide +kernel

end Linphone
