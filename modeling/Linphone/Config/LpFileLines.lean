import Linphone.Config.LpFile

/-!
# The lines of a configuration file

What `lp_config_parse_line` finds in the lines `lp_section_write` writes. An item and a comment are
read as they were written, when a line can hold them; of a header the name is read, and the
parameters as they were if and only if none has a bracket, nor its key an equals sign, in it.
-/

namespace Linphone

open CString
open Scan (isSpace)

/-! ## Texts -/

/-- A text without blanks, as `sscanf` reads it. -/
structure IsWord (w : LpText) : Prop where
  ne : w ≠ []
  noSpace : ∀ x ∈ w, isSpace x = false
  noNul : nul ∉ w

theorem IsWord.not_mem {w : LpText} (h : IsWord w) {x : Char} (hx : isSpace x = true) : x ∉ w := by
  intro hmem
  rw [h.noSpace x hmem] at hx
  cases hx

/-- A value as it is read of a line: not empty, without an end of a line, nor a space at its end. -/
structure IsValue (v : LpText) : Prop where
  ne : v ≠ []
  noReturn : '\r' ∉ v
  noFeed : '\n' ∉ v
  noNul : nul ∉ v
  last : v.getLast ne ≠ ' '

/-- A comment as it is read of a line. -/
structure IsComment (t : LpText) : Prop where
  comment : isAComment t = true
  noReturn : '\r' ∉ t
  noFeed : '\n' ∉ t
  noNul : nul ∉ t
  fits : t.length ≤ maxLen - 1

/-- A key and its value as they are read of a line. -/
structure IsEntry (key value : LpText) : Prop where
  word : IsWord key
  noEquals : '=' ∉ key
  isValue : IsValue value
  fits : key.length + 1 + value.length ≤ maxLen - 1

/-- A name of a section, as it is read of a line. -/
structure IsName (name : LpText) : Prop where
  word : IsWord name
  noBracket : ']' ∉ name
  fits : name.length + 2 ≤ maxLen - 1

/-- A parameter as it is read of a line. -/
structure IsParam (param : LpSectionParam) : Prop where
  key : IsWord param.key
  value : IsWord param.value

/-- What is written of a parameter is read in one piece. -/
structure Plain (param : LpSectionParam) : Prop where
  noEquals : '=' ∉ param.key
  keyBracket : ']' ∉ param.key
  valueBracket : ']' ∉ param.value

/-- What `fgets` leaves behind a line: its end, when that fits into the buffer, and a NUL. -/
def Behind (after : LpText) : Prop :=
  ∃ rest, after = nul :: rest ∨ after = '\n' :: nul :: rest

theorem Behind.read_append {after : LpText} (h : Behind after) {s : LpText} (hs : nul ∉ s) :
    ∃ e, read (s ++ after) = s ++ e ∧ (e = [] ∨ e = ['\n']) := by
  obtain ⟨rest, rfl | rfl⟩ := h
  · exact ⟨[], by rw [CString.read_append hs, List.append_nil], Or.inl rfl⟩
  · have hline : nul ∉ s ++ ['\n'] := by
      intro hmem
      rcases List.mem_append.mp hmem with hold | hnew
      · exact hs hold
      · cases List.mem_singleton.mp hnew
    refine ⟨['\n'], ?_, Or.inr rfl⟩
    have hwhole : s ++ '\n' :: nul :: rest = (s ++ ['\n']) ++ nul :: rest := by simp
    rw [hwhole, CString.read_append hline]

theorem Behind.not_mem {after : LpText} (h : Behind after) {x : Char} (hx : x ≠ '\n') :
    x ∉ read after := by
  obtain ⟨e, he, hnil | hfeed⟩ := h.read_append (s := []) List.not_mem_nil
  · rw [List.nil_append] at he
    rw [he, hnil]
    exact List.not_mem_nil
  · rw [List.nil_append] at he
    rw [he, hfeed]
    exact fun hmem => hx (List.mem_singleton.mp hmem)

/-! ## Headers -/

theorem IsParam.write_eq {param : LpSectionParam} (h : IsParam param) :
    param.write = ' ' :: (param.key ++ '=' :: param.value) := by
  unfold LpSectionParam.write
  rw [if_pos h.value.ne]
  rfl

theorem head_params {params : List LpSectionParam} (h : ∀ p ∈ params, IsParam p) :
    ∀ x ∈ (params.flatMap LpSectionParam.write).head?, x = ' ' := by
  intro x hx
  cases params with
  | nil => cases hx
  | cons p params =>
      rw [List.flatMap_cons, (h p List.mem_cons_self).write_eq] at hx
      cases hx
      rfl

theorem nul_not_mem_params {params : List LpSectionParam} (h : ∀ p ∈ params, IsParam p) :
    nul ∉ params.flatMap LpSectionParam.write := by
  intro hmem
  obtain ⟨p, hp, hnul⟩ := List.mem_flatMap.mp hmem
  rw [(h p hp).write_eq] at hnul
  rcases List.mem_cons.mp hnul with hspace | hnul
  · cases hspace
  · rcases List.mem_append.mp hnul with hkey | hnul
    · exact (h p hp).key.noNul hkey
    · rcases List.mem_cons.mp hnul with hequals | hvalue
      · cases hequals
      · exact (h p hp).value.noNul hvalue

/-! ## One round of the loop -/

section

variable {pre p q body behind : LpText} {fuel : Nat}

theorem scanParams_none (hbody : '=' ∉ body) (hnul : nul ∉ body) :
    (scanParams fuel (pre ++ (body ++ nul :: behind)) pre.length).1 = [] := by
  cases fuel with
  | zero => rfl
  | succ fuel =>
    have hfound : strchr (pre ++ (body ++ nul :: behind)) pre.length '=' = none :=
      strchr_eq_none (by rwa [List.drop_left, read_append hnul])
    rw [scanParams, hfound]

/-- The first equals sign is replaced, and two words are read. -/
theorem scanParams_step (hp : '=' ∉ p) (hnul : nul ∉ p ++ '=' :: q) :
    (scanParams (fuel + 1) (pre ++ ((p ++ '=' :: q) ++ nul :: behind)) pre.length).1 =
      match twoWords (p ++ ' ' :: q) with
      | none => []
      | some (key, value) =>
        ⟨key, value⟩ :: (scanParams fuel (pre ++ ((p ++ ' ' :: q) ++ nul :: behind))
          (pre.length + key.length + value.length + 2)).1 := by
  have hnul' : nul ∉ p ++ ' ' :: q := by
    simp only [List.mem_append, List.mem_cons, not_or] at hnul ⊢
    exact ⟨hnul.1, by decide, hnul.2.2⟩
  have hfound : strchr (pre ++ ((p ++ '=' :: q) ++ nul :: behind)) pre.length '=' =
      some (pre.length + p.length) := by
    rw [List.append_assoc, List.cons_append]
    exact strchr_append hp (fun h => hnul (List.mem_append_left _ h)) (by decide)
  have hset : (pre ++ ((p ++ '=' :: q) ++ nul :: behind)).set (pre.length + p.length) ' ' =
      pre ++ ((p ++ ' ' :: q) ++ nul :: behind) := by
    rw [List.set_append_right _ _ (Nat.le_add_right _ _), Nat.add_sub_cancel_left,
      List.append_assoc, List.set_append_right _ _ (Nat.le_refl _), Nat.sub_self,
      List.append_assoc]
    rfl
  rw [scanParams, hfound]
  dsimp only
  rw [hset, List.drop_left, read_append hnul']
  cases twoWords (p ++ ' ' :: q) <;> rfl

end

/-! ## Parameters -/

/-- One parameter is read, and the next ones from the space behind it on. -/
theorem scanParams_cons {p : LpSectionParam} (hp : IsParam p) (hequals : '=' ∉ p.key) (fuel : Nat)
    (pre s after : LpText) (hs : ∀ x ∈ s.head?, x = ' ') (hnul : nul ∉ s) :
    (scanParams (fuel + 1) (pre ++ (p.write ++ (s ++ nul :: after))) (pre.length + 1)).1 =
      p :: (scanParams fuel ((pre ++ ' ' :: (p.key ++ ' ' :: p.value)) ++ (s ++ nul :: after))
        ((pre ++ ' ' :: (p.key ++ ' ' :: p.value)).length + 1)).1 := by
  obtain ⟨key, value⟩ := p
  have hkey : IsWord key := hp.key
  have hvalue : IsWord value := hp.value
  have hmem : pre ++ (LpSectionParam.write ⟨key, value⟩ ++ (s ++ nul :: after)) =
      (pre ++ [' ']) ++ ((key ++ '=' :: (value ++ s)) ++ nul :: after) := by
    rw [hp.write_eq]
    simp
  have hstart : pre.length + 1 = (pre ++ [' ']).length := by simp
  have hbody : nul ∉ key ++ '=' :: (value ++ s) := by
    simp only [List.mem_append, List.mem_cons, not_or]
    exact ⟨hkey.noNul, by decide, hvalue.noNul, hnul⟩
  have hwords : twoWords (key ++ ' ' :: (value ++ s)) = some (key, value) :=
    twoWords_append hkey.noSpace hkey.ne hvalue.noSpace hvalue.ne fun x hx => by
      rw [hs x hx]
      rfl
  have hnext : (pre ++ [' ']).length + key.length + value.length + 2 =
      (pre ++ ' ' :: (key ++ ' ' :: value)).length + 1 := by
    simp
    omega
  have hrest : (pre ++ [' ']) ++ ((key ++ ' ' :: (value ++ s)) ++ nul :: after) =
      (pre ++ ' ' :: (key ++ ' ' :: value)) ++ (s ++ nul :: after) := by simp
  rw [hmem, hstart, scanParams_step hequals hbody, hwords]
  dsimp only
  rw [hnext, hrest]

/-- Parameters without brackets and equals signs in their keys are read as they were written. -/
theorem scanParams_params {params : List LpSectionParam} (hparams : ∀ p ∈ params, IsParam p)
    (hplain : ∀ p ∈ params, Plain p) {after : LpText} (hafter : '=' ∉ read after) {fuel : Nat}
    (hfuel : params.length < fuel) (pre : LpText) :
    (scanParams fuel (pre ++ (params.flatMap LpSectionParam.write ++ nul :: after))
      (pre.length + 1)).1 = params := by
  induction params generalizing fuel pre with
  | nil =>
      obtain ⟨fuel, rfl⟩ := Nat.exists_eq_succ_of_ne_zero (Nat.ne_zero_of_lt hfuel)
      have hdrop : (pre ++ ([].flatMap LpSectionParam.write ++ nul :: after)).drop
          (pre.length + 1) = after := by
        rw [List.flatMap_nil, List.nil_append]
        simp
      have hnone : strchr (pre ++ ([].flatMap LpSectionParam.write ++ nul :: after))
          (pre.length + 1) '=' = none := strchr_eq_none (by rw [hdrop]; exact hafter)
      rw [scanParams, hnone]
  | cons p params ih =>
      obtain ⟨fuel, rfl⟩ := Nat.exists_eq_succ_of_ne_zero (Nat.ne_zero_of_lt hfuel)
      have hrest : ∀ q ∈ params, IsParam q := fun q hq => hparams q (List.mem_cons_of_mem p hq)
      rw [List.flatMap_cons, List.append_assoc,
        scanParams_cons (hparams p List.mem_cons_self) (hplain p List.mem_cons_self).noEquals fuel
          pre _ after (head_params hrest) (nul_not_mem_params hrest),
        ih hrest (fun q hq => hplain q (List.mem_cons_of_mem p hq)) (Nat.lt_of_succ_lt_succ hfuel)]

/-- The text up to the first bracket, for a text with one. -/
theorem exists_upTo (s after : LpText) :
    ∃ q r, s ++ ']' :: after = q ++ ']' :: r ∧ ']' ∉ q ∧ ∀ x ∈ q, x ∈ s := by
  induction s with
  | nil => exact ⟨[], after, rfl, List.not_mem_nil, fun x hx => hx⟩
  | cons c s ih =>
      by_cases hc : c = ']'
      · subst hc
        exact ⟨[], s ++ ']' :: after, rfl, List.not_mem_nil, fun x hx => by cases hx⟩
      · obtain ⟨q, r, hsplit, hnot, hsub⟩ := ih
        refine ⟨c :: q, r, congrArg (c :: ·) hsplit, fun hmem => ?_, fun x hx => ?_⟩
        · rcases List.mem_cons.mp hmem with heq | hmem
          · exact hc heq.symm
          · exact hnot hmem
        · rcases List.mem_cons.mp hx with rfl | hx
          · exact List.mem_cons_self
          · exact List.mem_cons_of_mem c (hsub x hx)

/-- A text without brackets comes before the first one. -/
theorem upTo_append {s t after q r : LpText} (hs : ']' ∉ s)
    (h : s ++ (t ++ ']' :: after) = q ++ ']' :: r) :
    ∃ q', q = s ++ q' ∧ t ++ ']' :: after = q' ++ ']' :: r := by
  induction s generalizing q with
  | nil => exact ⟨q, rfl, h⟩
  | cons c s ih =>
      cases q with
      | nil =>
          obtain ⟨hc, _⟩ := List.cons.inj h
          exact absurd (hc ▸ List.mem_cons_self) hs
      | cons d q =>
          obtain ⟨rfl, hrest⟩ := List.cons.inj h
          obtain ⟨q', rfl, hrest'⟩ := ih (fun hmem => hs (List.mem_cons_of_mem c hmem)) hrest
          exact ⟨q', rfl, hrest'⟩

/-- The characters of a parameter that is read are those of the text up to the bracket, and the
space an equals sign was replaced by. -/
theorem scanParams_chars {fuel pos : Nat} {a q r : LpText} (hq : nul ∉ q)
    (hpos : pos = a.length) {p : LpSectionParam} {params : List LpSectionParam}
    (h : (scanParams fuel (a ++ (q ++ nul :: r)) pos).1 = p :: params) :
    (∀ x ∈ p.key, x ∈ q) ∧ ∀ x ∈ p.value, x ∈ q := by
  subst hpos
  cases fuel with
  | zero => cases h
  | succ fuel =>
    by_cases hequals : '=' ∈ q
    · obtain ⟨u, v, rfl, hu⟩ := List.eq_append_cons_of_mem hequals
      rw [scanParams_step hu hq] at h
      have hchars : ∀ x ∈ u ++ ' ' :: v, isSpace x = false → x ∈ u ++ '=' :: v := by
        intro x hx hspace
        rcases List.mem_append.mp hx with hx | hx
        · exact List.mem_append_left _ hx
        · rcases List.mem_cons.mp hx with rfl | hx
          · exact absurd hspace (by decide)
          · exact List.mem_append_right _ (List.mem_cons_of_mem _ hx)
      cases hwords : twoWords (u ++ ' ' :: v) with
      | none =>
        rw [hwords] at h
        cases h
      | some w =>
        rw [hwords] at h
        obtain ⟨rfl, -⟩ := List.cons.inj h
        obtain ⟨hkey, -, -, hvalue⟩ := twoWords_eq_some (v := w.1) (w := w.2) hwords
        refine ⟨fun x hx => ?_, fun x hx => hchars x (hvalue x hx).1 (hvalue x hx).2⟩
        have hx' : x ∈ w.1 := hx
        rw [hkey] at hx'
        exact hchars x (mem_of_mem_word hx') (not_isSpace_of_mem_word hx')
    · rw [scanParams_none hequals hq] at h
      cases h

/-- An equals sign in a key changes what is read as the key. -/
theorem scanParams_key {fuel : Nat} {pre s r : LpText} {p q : LpSectionParam} (hp : IsParam p)
    (hnul : nul ∉ s) (hs : ∀ x ∈ s.head?, x = ' ') {params : List LpSectionParam}
    (h : (scanParams fuel (pre ++ (p.write ++ (s ++ nul :: r))) (pre.length + 1)).1 = q :: params)
    (hequals : '=' ∈ p.key) : q.key ≠ p.key := by
  obtain ⟨key, value⟩ := p
  have hkey : IsWord key := hp.key
  have hvalue : IsWord value := hp.value
  obtain ⟨a, b, rfl, ha⟩ := List.eq_append_cons_of_mem hequals
  have hmem : pre ++ (LpSectionParam.write ⟨a ++ '=' :: b, value⟩ ++ (s ++ nul :: r)) =
      (pre ++ [' ']) ++ ((a ++ '=' :: (b ++ '=' :: (value ++ s))) ++ nul :: r) := by
    rw [hp.write_eq]
    simp
  have hstart : pre.length + 1 = (pre ++ [' ']).length := by simp
  have hbody : nul ∉ a ++ '=' :: (b ++ '=' :: (value ++ s)) := by
    have hnot := hkey.noNul
    simp only [List.mem_append, List.mem_cons, not_or] at hnot ⊢
    exact ⟨hnot.1, hnot.2.1, hnot.2.2, hnot.2.1, hvalue.noNul, hnul⟩
  cases fuel with
  | zero => cases h
  | succ fuel =>
      rw [hmem, hstart, scanParams_step ha hbody] at h
      split at h
      · cases h
      · rename_i k v hwords
        obtain ⟨rfl, _⟩ := List.cons.inj h
        obtain ⟨hk, _, _, _⟩ := twoWords_eq_some hwords
        show k ≠ a ++ '=' :: b
        rw [hk]
        have hb : ∀ x ∈ b, isSpace x = false := fun x hx =>
          hkey.noSpace x (List.mem_append_right _ (List.mem_cons_of_mem _ hx))
        by_cases hempty : a = []
        · -- the word goes on over the second equals sign
          subst hempty
          have hskip : word ([] ++ ' ' :: (b ++ '=' :: (value ++ s))) =
              word ((b ++ '=' :: value) ++ s) := by
            have hassoc : b ++ '=' :: (value ++ s) = (b ++ '=' :: value) ++ s := by simp
            rw [List.nil_append, hassoc]
            rfl
          have hword : word ((b ++ '=' :: value) ++ s) = b ++ '=' :: value := by
            refine word_append (fun x hx => ?_) (by simp) fun x hx => by rw [hs x hx]; rfl
            rcases List.mem_append.mp hx with hx | hx
            · exact hb x hx
            · rcases List.mem_cons.mp hx with rfl | hx
              · rfl
              · exact hvalue.noSpace x hx
          rw [hskip, hword]
          intro heq
          have hlength := congrArg List.length heq
          have hpos := List.length_pos_iff.mpr hvalue.ne
          simp only [List.length_append, List.length_cons, List.nil_append] at hlength
          omega
        · have hword : word (a ++ ' ' :: (b ++ '=' :: (value ++ s))) = a :=
            word_append (fun x hx => hkey.noSpace x (List.mem_append_left _ hx)) hempty
              fun x hx => by cases hx; rfl
          rw [hword]
          intro heq
          have hlength := congrArg List.length heq
          simp only [List.length_append, List.length_cons] at hlength
          omega

/-- Parameters that are read as they were written have no brackets, nor equals signs in their
keys. -/
theorem params_plain {params : List LpSectionParam} (hparams : ∀ p ∈ params, IsParam p)
    {fuel : Nat} {pre q r after : LpText}
    (hsplit : params.flatMap LpSectionParam.write ++ ']' :: after = q ++ ']' :: r)
    (hq : ']' ∉ q) (hnul : nul ∉ q)
    (h : (scanParams fuel (pre ++ (q ++ nul :: r)) (pre.length + 1)).1 = params) :
    ∀ p ∈ params, Plain p := by
  induction params generalizing fuel pre q with
  | nil => exact fun p hp => by cases hp
  | cons p params ih =>
      have hp := hparams p List.mem_cons_self
      have hrest : ∀ p ∈ params, IsParam p := fun q hq => hparams q (List.mem_cons_of_mem p hq)
      rw [List.flatMap_cons, List.append_assoc] at hsplit
      have hspaced : [' '] ++ (((p.key ++ '=' :: p.value) ++
          params.flatMap LpSectionParam.write) ++ ']' :: after) = q ++ ']' :: r := by
        rw [← hsplit, hp.write_eq]
        simp
      have hspace : ']' ∉ [' '] := by decide
      obtain ⟨q₁, rfl, _⟩ := upTo_append hspace hspaced
      have hq₁ : ']' ∉ q₁ := fun hmem => hq (List.mem_append_right _ hmem)
      obtain ⟨hkey, hvalue⟩ := scanParams_chars (a := pre ++ [' ']) (q := q₁) (r := r)
        (fun hmem => hnul (List.mem_append_right _ hmem)) (List.length_append).symm
        (by rw [List.append_assoc, ← List.append_assoc [' '] q₁]; exact h)
      have hkeyBracket : ']' ∉ p.key := fun hmem => hq₁ (hkey _ hmem)
      have hvalueBracket : ']' ∉ p.value := fun hmem => hq₁ (hvalue _ hmem)
      have hwrite : ']' ∉ p.write := by
        rw [hp.write_eq]
        simp only [List.mem_cons, List.mem_append, not_or]
        exact ⟨by decide, hkeyBracket, by decide, hvalueBracket⟩
      obtain ⟨q₂, hq₂, hsplit₂⟩ := upTo_append hwrite hsplit
      rw [hq₂] at h hq hnul
      have hhead : ∀ x ∈ q₂.head?, x = ' ' := by
        intro x hx
        cases q₂ with
        | nil => cases hx
        | cons y q₂ =>
            cases hx
            cases hparamsText : params.flatMap LpSectionParam.write with
            | nil =>
                rw [hparamsText] at hsplit₂
                exact absurd (List.mem_append_right _ ((List.cons.inj hsplit₂).1 ▸
                  List.mem_cons_self)) hq
            | cons z s =>
                rw [hparamsText] at hsplit₂
                rw [← (List.cons.inj hsplit₂).1]
                refine head_params hrest z ?_
                rw [hparamsText]
                rfl
      have hnul₂ : nul ∉ q₂ := fun hmem => hnul (List.mem_append_right _ hmem)
      have hequals : '=' ∉ p.key := by
        intro hmem
        rw [List.append_assoc] at h
        exact scanParams_key hp hnul₂ hhead h hmem rfl
      intro p' hp'
      rcases List.mem_cons.mp hp' with rfl | hp'
      · exact ⟨hequals, hkeyBracket, hvalueBracket⟩
      · cases fuel with
        | zero => cases h
        | succ fuel =>
            rw [List.append_assoc, scanParams_cons hp hequals fuel pre q₂ r hhead hnul₂] at h
            exact ih hrest hsplit₂ (fun hmem => hq (List.mem_append_right _ hmem)) hnul₂
              (List.cons.inj h).2 p' hp'

theorem length_le_params {params : List LpSectionParam} (h : ∀ p ∈ params, IsParam p) :
    params.length ≤ (params.flatMap LpSectionParam.write).length := by
  induction params with
  | nil => exact Nat.le_refl 0
  | cons p params ih =>
      have hrest := ih fun q hq => h q (List.mem_cons_of_mem p hq)
      rw [List.flatMap_cons, (h p List.mem_cons_self).write_eq, List.length_append,
        List.length_cons, List.length_cons]
      omega

/-- A line with brackets: the name is read, and what is between it and the closing bracket is gone
through for parameters. -/
theorem scanLine_named {name q r : LpText} (hname : IsWord name) (hbracket : ']' ∉ name)
    (hq : ']' ∉ q) (hnul : nul ∉ q) (hhead : ∀ x ∈ q.head?, isSpace x = true) :
    (scanLine (('[' :: (name ++ q)) ++ ']' :: r)).1 =
      .header name (if q = [] then [] else
        (scanParams ((('[' :: name) ++ (q ++ nul :: r)).length + 1)
          (('[' :: name) ++ (q ++ nul :: r)) (('[' :: name).length + 1)).1) := by
  have hbefore : ']' ∉ '[' :: (name ++ q) := by
    simp only [List.mem_cons, List.mem_append, not_or]
    exact ⟨by decide, hbracket, hq⟩
  have hbeforeNul : nul ∉ '[' :: (name ++ q) := by
    simp only [List.mem_cons, List.mem_append, not_or]
    exact ⟨by decide, hname.noNul, hnul⟩
  have hopen : strchr ([] ++ (('[' :: (name ++ q)) ++ ']' :: r)) 0 '[' = some 0 :=
    strchr_append (a := []) (m := []) List.not_mem_nil List.not_mem_nil (by decide)
  have hclose : strchr ([] ++ (('[' :: (name ++ q)) ++ ']' :: r)) 0 ']' =
      some (0 + ('[' :: (name ++ q)).length) :=
    strchr_append (a := []) hbefore hbeforeNul (by decide)
  have hset : ([] ++ (('[' :: (name ++ q)) ++ ']' :: r)).set (0 + ('[' :: (name ++ q)).length)
      nul = ('[' :: name) ++ (q ++ nul :: r) := by
    rw [List.nil_append, Nat.zero_add, List.set_append_right _ _ (Nat.le_refl _), Nat.sub_self]
    simp
  have hinner : read ((('[' :: name) ++ (q ++ nul :: r)).drop (0 + 1)) = name ++ q := by
    have hwhole : (('[' :: name) ++ (q ++ nul :: r)).drop (0 + 1) = (name ++ q) ++ nul :: r := by
      simp
    rw [hwhole]
    exact read_append fun hmem => hbeforeNul (List.mem_cons_of_mem _ hmem)
  have hword : word (name ++ q) = name := word_append hname.noSpace hname.ne hhead
  have hlength : (0 + 1 + name.length < 0 + ('[' :: (name ++ q)).length) ↔ q ≠ [] := by
    rw [List.length_cons, List.length_append, ← List.length_pos_iff]
    omega
  rw [← List.nil_append (('[' :: (name ++ q)) ++ ']' :: r)]
  unfold scanLine
  rw [hopen]
  dsimp only
  rw [show isFirstChar ([] ++ (('[' :: (name ++ q)) ++ ']' :: r)) 0 = true from rfl, if_pos rfl]
  unfold scanHeader
  rw [hclose]
  dsimp only
  rw [hset, hinner, hword, if_neg hname.ne]
  by_cases hempty : q = []
  · rw [if_neg fun hlt => hlength.mp hlt hempty, if_pos hempty]
  · have hpos : 0 + 1 + name.length + 1 = ('[' :: name).length + 1 := by
      rw [List.length_cons]
      omega
    rw [if_pos (hlength.mpr hempty), if_neg hempty, hpos]

/-- **A header**: the name is read, and the parameters if they are plain. -/
theorem scanLine_header {sec : LpFileSection} (hname : IsName sec.name)
    (hparams : ∀ p ∈ sec.params, IsParam p) {after : LpText} (hafter : Behind after) :
    ∃ params, (scanLine (sec.header ++ after)).1 = .header sec.name params ∧
      (params = sec.params ↔ ∀ p ∈ sec.params, Plain p) := by
  obtain ⟨name, params, items⟩ := sec
  obtain ⟨q, r, hsplit, hq, hsub⟩ :=
    exists_upTo (params.flatMap LpSectionParam.write) after
  have hnul : nul ∉ q := fun hmem => nul_not_mem_params hparams (hsub nul hmem)
  have hmem : LpFileSection.header ⟨name, params, items⟩ ++ after =
      ('[' :: (name ++ q)) ++ ']' :: r := by
    unfold LpFileSection.header
    simp only [List.append_assoc, List.cons_append, List.nil_append]
    rw [hsplit]
  have hhead : ∀ x ∈ q.head?, isSpace x = true := by
    intro x hx
    cases q with
    | nil => cases hx
    | cons y q =>
        cases hx
        cases htext : params.flatMap LpSectionParam.write with
        | nil =>
            rw [htext] at hsplit
            exact absurd ((List.cons.inj hsplit).1 ▸ List.mem_cons_self) hq
        | cons z s =>
            rw [htext] at hsplit
            have hz : z = ' ' := head_params hparams z (by rw [htext]; rfl)
            rw [← (List.cons.inj hsplit).1, hz]
            rfl
  rw [hmem, scanLine_named hname.word hname.noBracket hq hnul hhead]
  by_cases hempty : q = []
  · -- there is nothing behind the name
    subst hempty
    have hnone : params = [] := by
      cases params with
      | nil => rfl
      | cons p params =>
          rw [List.flatMap_cons, (hparams p List.mem_cons_self).write_eq] at hsplit
          cases (List.cons.inj hsplit).1
    subst hnone
    exact ⟨[], rfl, fun _ p hp => absurd hp List.not_mem_nil, fun _ => rfl⟩
  · rw [if_neg hempty]
    refine ⟨_, rfl, fun hsame => ?_, fun hplain => ?_⟩
    · exact params_plain hparams hsplit hq hnul hsame
    · have hbracket : ']' ∉ params.flatMap LpSectionParam.write := by
        intro hmem
        obtain ⟨p, hp, hin⟩ := List.mem_flatMap.mp hmem
        rw [(hparams p hp).write_eq] at hin
        simp only [List.mem_cons, List.mem_append] at hin
        rcases hin with hin | hin | hin | hin
        · cases hin
        · exact (hplain p hp).keyBracket hin
        · cases hin
        · exact (hplain p hp).valueBracket hin
      obtain ⟨q', rfl, hrest⟩ := upTo_append (t := []) hbracket hsplit
      cases q' with
      | cons y q' =>
          exact absurd (List.mem_append_right _ ((List.cons.inj hrest).1 ▸ List.mem_cons_self)) hq
      | nil =>
          obtain ⟨_, rfl⟩ := List.cons.inj hrest
          rw [List.append_nil]
          refine scanParams_params hparams hplain (hafter.not_mem (by decide)) ?_ _
          have hle : params.length ≤ _ := length_le_params hparams
          simp only [List.length_append, List.length_cons]
          omega

/-! ## Items -/

theorem untilLineEnd_append {s e : LpText} (hreturn : '\r' ∉ s) (hfeed : '\n' ∉ s)
    (he : e = [] ∨ e = ['\n']) : untilLineEnd (s ++ e) = s := by
  have hnot : '\r' ∉ s ++ e := by
    intro hmem
    rcases List.mem_append.mp hmem with hmem | hmem
    · exact hreturn hmem
    · rcases he with rfl | rfl
      · cases hmem
      · cases List.mem_singleton.mp hmem
  unfold untilLineEnd
  rw [if_neg hnot]
  refine Scan.takeWhile_append_of_ends (fun x hx => ?_) fun x hx => ?_
  · have hne : x ≠ '\n' := fun heq => hfeed (heq ▸ hx)
    exact decide_eq_true hne
  · rcases he with rfl | rfl
    · cases hx
    · cases hx
      rfl

/-- What is in front of a bracket decides whether it begins a line. -/
theorem isFirstChar_eq_false {s rest : LpText} {x : Char} (hx : x ≠ ' ') (hs : '[' ∉ s ++ [x])
    {pos1 : Nat} (hfound : strchr (s ++ x :: rest) 0 '[' = some pos1) :
    isFirstChar (s ++ x :: rest) pos1 = false := by
  obtain ⟨mid, behind, hdrop, hmid, _, rfl⟩ := strchr_eq_some hfound
  rw [List.drop_zero] at hdrop
  have hlong : s.length < mid.length := by
    by_contra hle
    have hget := congrArg (·[mid.length]?) hdrop
    simp only [List.getElem?_append_right (Nat.le_refl mid.length), Nat.sub_self,
      List.getElem?_cons_zero] at hget
    have hin : (s ++ [x])[mid.length]? = some '[' := by
      rw [← hget]
      rcases Nat.lt_or_eq_of_le (Nat.le_of_not_lt hle) with hlt | heq
      · rw [List.getElem?_append_left hlt, List.getElem?_append_left hlt]
      · rw [heq, List.getElem?_append_right (Nat.le_refl _),
          List.getElem?_append_right (Nat.le_refl _), Nat.sub_self]
        rfl
    exact hs (List.mem_of_getElem? hin)
  unfold isFirstChar
  rw [Bool.eq_false_iff]
  intro hall
  have hin : x ∈ (s ++ x :: rest).take (0 + mid.length) := by
    rw [List.mem_take_iff_getElem]
    refine ⟨s.length, ?_, ?_⟩
    · rw [List.length_append, List.length_cons]
      omega
    · rw [List.getElem_append_right (Nat.le_refl _)]
      simp
  have hspace := List.all_eq_true.mp hall x hin
  exact hx (of_decide_eq_true hspace)

theorem scanLine_scanItem {s r : LpText} {x : Char} (hx : x ≠ ' ') (hs : '[' ∉ s ++ [x]) :
    scanLine (s ++ x :: r) = scanItem (s ++ x :: r) := by
  unfold scanLine
  split
  · rename_i pos1 hfound
    rw [isFirstChar_eq_false hx hs hfound, if_neg Bool.false_ne_true]
  · rfl

/-- **An item** whose key begins with neither a bracket nor a sharp. -/
theorem scanLine_entry {key value : LpText} (h : IsEntry key value)
    (hbracket : key.head h.word.ne ≠ '[') (hsharp : key.head h.word.ne ≠ '#') {after : LpText}
    (hafter : Behind after) :
    (scanLine (key ++ '=' :: (value ++ after))).1 = .pair key value := by
  obtain ⟨x, key', rfl⟩ := List.exists_cons_of_ne_nil h.word.ne
  have hspace : x ≠ ' ' := by
    rintro rfl
    exact h.word.not_mem rfl List.mem_cons_self
  have hfirst : '[' ∉ [] ++ [x] := by
    intro hmem
    exact hbracket (List.mem_singleton.mp hmem).symm
  have hline : scanLine (x :: key' ++ '=' :: (value ++ after)) =
      scanItem (x :: key' ++ '=' :: (value ++ after)) :=
    scanLine_scanItem (s := []) (r := key' ++ '=' :: (value ++ after)) hspace hfirst
  have hvalueNul : nul ∉ value := h.isValue.noNul
  have hcomment : isAComment (read (x :: key' ++ '=' :: (value ++ after))) = false := by
    have hhead : read (x :: key' ++ '=' :: (value ++ after)) =
        x :: read (key' ++ '=' :: (value ++ after)) := by
      have hne : x ≠ nul := fun heq => h.word.noNul (heq ▸ List.mem_cons_self)
      unfold CString.read
      exact List.takeWhile_cons_of_pos (decide_eq_true hne)
    unfold isAComment
    rw [hhead, List.dropWhile_cons_of_neg (by simpa using hspace)]
    simpa using hsharp
  have hequals : strchr (x :: key' ++ '=' :: (value ++ after)) 0 '=' =
      some (0 + (x :: key').length) :=
    strchr_append (a := []) h.noEquals h.word.noNul (by decide)
  have hset : (x :: key' ++ '=' :: (value ++ after)).set (0 + (x :: key').length) nul =
      x :: key' ++ nul :: (value ++ after) := by
    rw [Nat.zero_add, List.set_append_right _ _ (Nat.le_refl _), Nat.sub_self]
    rfl
  have hkey : word (read (x :: key' ++ nul :: (value ++ after))) = x :: key' := by
    rw [read_append h.word.noNul]
    exact word_self h.word.noSpace h.word.ne
  have hrest : (x :: key' ++ nul :: (value ++ after)).drop (0 + (x :: key').length + 1) =
      value ++ after := by
    simp
  obtain ⟨e, hread, he⟩ := hafter.read_append hvalueNul
  have hend : untilLineEnd (value ++ e) = value :=
    untilLineEnd_append h.isValue.noReturn h.isValue.noFeed he
  have hstrip : value.rdropWhile (· = ' ') = value := by
    refine List.rdropWhile_eq_self_iff.mpr fun hne => ?_
    simpa using h.isValue.last
  rw [hline]
  unfold scanItem
  rw [hcomment, if_neg Bool.false_ne_true, hequals]
  dsimp only
  rw [hset, hkey, if_neg h.word.ne, hrest, hread, hend, hstrip, if_neg h.isValue.ne]

/-- A comment begins with spaces and a sharp. -/
theorem exists_sharp {text : LpText} (h : isAComment text = true) :
    ∃ spaces rest, text = spaces ++ '#' :: rest ∧ ∀ x ∈ spaces, x = ' ' := by
  unfold isAComment at h
  have hall := List.takeWhile_append_dropWhile (p := (· = ' ')) (l := text)
  cases hdrop : text.dropWhile (· = ' ') with
  | nil =>
      rw [hdrop] at h
      exact absurd h (by decide)
  | cons y rest =>
      rw [hdrop] at h hall
      have hy : y = '#' := by simpa using h
      rw [hy] at hall
      refine ⟨text.takeWhile (· = ' '), rest, hall.symm, fun x hx => ?_⟩
      simpa using List.mem_takeWhile_imp hx

/-- **A comment.** -/
theorem scanLine_comment {text : LpText} (h : IsComment text) {after : LpText}
    (hafter : Behind after) : (scanLine (text ++ after)).1 = .comment text := by
  obtain ⟨spaces, rest, rfl, hspaces⟩ := exists_sharp h.comment
  have hbracket : '[' ∉ spaces ++ ['#'] := by
    intro hmem
    rcases List.mem_append.mp hmem with hmem | hmem
    · cases hspaces _ hmem
    · cases List.mem_singleton.mp hmem
  obtain ⟨e, hread, he⟩ := hafter.read_append h.noNul
  have hline : scanLine ((spaces ++ '#' :: rest) ++ after) =
      scanItem ((spaces ++ '#' :: rest) ++ after) := by
    rw [List.append_assoc, List.cons_append]
    exact scanLine_scanItem (by decide) hbracket
  have hcomment : isAComment ((spaces ++ '#' :: rest) ++ e) = true := by
    unfold isAComment
    rw [List.append_assoc, List.dropWhile_append_of_pos fun x hx => decide_eq_true (hspaces x hx)]
    rfl
  rw [hline]
  unfold scanItem
  rw [hread, hcomment, if_pos rfl, untilLineEnd_append h.noReturn h.noFeed he]

/-- An empty line. -/
theorem scanLine_blank {after : LpText} (h : Behind after) : (scanLine after).1 = .other := by
  obtain ⟨e, hread, he⟩ := h.read_append (s := []) List.not_mem_nil
  rw [List.nil_append] at hread
  have hopen : strchr after 0 '[' = none := strchr_eq_none (h.not_mem (by decide))
  have hequals : strchr after 0 '=' = none := strchr_eq_none (h.not_mem (by decide))
  have hcomment : isAComment (read after) = false := by
    rw [hread]
    rcases he with rfl | rfl <;> rfl
  unfold scanLine
  rw [hopen]
  unfold scanItem
  rw [hcomment, if_neg Bool.false_ne_true, hequals]

/-! ## Files -/

/-- The lines that do something. -/
def content (lines : List LpLine) : List LpLine := lines.filter (· ≠ .other)

theorem content_cons (line : LpLine) (lines : List LpLine) :
    content (line :: lines) = content [line] ++ content lines :=
  List.filter_append [line] lines

theorem content_blank (mem : LpText) (ps : List LpText) :
    ∃ mem', content (scanPieces mem (['\n'] :: ps)) = content (scanPieces mem' ps) := by
  refine ⟨(scanLine (['\n'] ++ nul :: mem.drop 2)).2, ?_⟩
  have hblank : (scanLine (['\n'] ++ nul :: mem.drop 2)).1 = .other :=
    scanLine_blank ⟨_, Or.inr rfl⟩
  show content ((scanLine (['\n'] ++ nul :: mem.drop 2)).1 :: scanPieces _ ps) = _
  rw [content_cons, hblank]
  rfl

/-- **A line of a file**, which the buffer can hold. -/
theorem content_line {w : LpText} (hfeed : '\n' ∉ w) (hfits : w.length ≤ maxLen - 1) (mem : LpText)
    (rest : LpText) :
    ∃ after mem', Behind after ∧
      content (scanPieces mem (pieces (maxLen - 1) [] (w ++ '\n' :: rest))) =
        content [(scanLine (w ++ after)).1] ++
          content (scanPieces mem' (pieces (maxLen - 1) [] rest)) := by
  rcases Nat.lt_or_eq_of_le hfits with hlt | hfull
  · have hpieces : pieces (maxLen - 1) [] (w ++ '\n' :: rest) =
        (w ++ ['\n']) :: pieces (maxLen - 1) [] rest :=
      pieces_line hfeed (by rw [List.length_nil, Nat.zero_add]; exact hlt)
    rw [hpieces, scanPieces, List.append_assoc]
    exact ⟨_, _, ⟨_, Or.inr rfl⟩, content_cons _ _⟩
  · have hne : w ≠ [] := by
      rintro rfl
      cases hfull
    have hpieces : pieces (maxLen - 1) [] (w ++ '\n' :: rest) =
        w :: pieces (maxLen - 1) [] ('\n' :: rest) :=
      pieces_full hfeed hne (by rw [List.length_nil, Nat.zero_add]; exact hfull)
    have hblank : pieces (maxLen - 1) [] ('\n' :: rest) =
        ['\n'] :: pieces (maxLen - 1) [] rest := by
      rw [pieces, if_pos (Or.inl rfl)]
      rfl
    rw [hpieces, hblank, scanPieces]
    obtain ⟨mem', hmem'⟩ := content_blank (scanLine (w ++ nul :: mem.drop (w.length + 1))).2
      (pieces (maxLen - 1) [] rest)
    refine ⟨nul :: mem.drop (w.length + 1), mem', ⟨_, Or.inl rfl⟩, ?_⟩
    rw [content_cons, hmem']

end Linphone
