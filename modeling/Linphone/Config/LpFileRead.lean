import Linphone.Config.LpFileLines

/-!
# What a configuration file can hold

The names, parameters, comments and entries of a configuration that was read are those of lines:
`readLines_meets` carries over what holds of each line, and `fromFile_parse` is what holds of the
lines of any file.
-/

namespace Linphone

open CString
open Scan (isSpace)

/-! ## Lines and sections -/

section Meets

variable (Pn : LpText → Prop) (Pp : LpSectionParam → Prop) (Pc : LpText → Prop)
  (Pe : LpText → LpText → Prop)

/-- What is asked of a line. -/
def LpLine.Meets : LpLine → Prop
  | .header name params => Pn name ∧ ∀ p ∈ params, Pp p
  | .comment text => Pc text
  | .pair key value => Pe key value
  | .other => True

def LpItem.Meets : LpItem → Prop
  | .comment text => Pc text
  | .entry key value => Pe key value

/-- What is asked of a section. -/
structure LpFileSection.Meets (sec : LpFileSection) : Prop where
  name : Pn sec.name
  params : ∀ p ∈ sec.params, Pp p
  items : ∀ item ∈ sec.items, item.Meets Pc Pe

variable {Pn Pp Pc Pe}

theorem meets_put {items : List LpItem} (h : ∀ item ∈ items, item.Meets Pc Pe) {key value : LpText}
    (hentry : Pe key value) : ∀ item ∈ LpItem.put key value items, item.Meets Pc Pe := by
  induction items with
  | nil =>
      intro item hitem
      rw [List.mem_singleton.mp hitem]
      exact hentry
  | cons first items ih =>
      have hrest := ih fun item hitem => h item (List.mem_cons_of_mem first hitem)
      have hfirst := h first List.mem_cons_self
      intro item hitem
      cases first with
      | comment text =>
          rcases List.mem_cons.mp hitem with rfl | hitem
          · exact hfirst
          · exact hrest item hitem
      | entry key' old =>
          rw [LpItem.put] at hitem
          split at hitem
          · rename_i heq
            rcases List.mem_cons.mp hitem with rfl | hitem
            · rw [heq]
              exact hentry
            · exact h item (List.mem_cons_of_mem _ hitem)
          · rcases List.mem_cons.mp hitem with rfl | hitem
            · exact hfirst
            · exact hrest item hitem

theorem meets_modifySection {c : LpFile} (h : ∀ sec ∈ c, sec.Meets Pn Pp Pc Pe) (name : LpText)
    {f : LpFileSection → LpFileSection} (hf : ∀ sec, sec.Meets Pn Pp Pc Pe →
      (f sec).Meets Pn Pp Pc Pe) :
    ∀ sec ∈ LpFile.modifySection name f c, sec.Meets Pn Pp Pc Pe := by
  induction c with
  | nil => exact h
  | cons first c ih =>
      have hrest := ih fun sec hsec => h sec (List.mem_cons_of_mem first hsec)
      have hfirst := h first List.mem_cons_self
      intro sec hsec
      rw [LpFile.modifySection] at hsec
      split at hsec
      · rcases List.mem_cons.mp hsec with rfl | hsec
        · exact hf first hfirst
        · exact h sec (List.mem_cons_of_mem _ hsec)
      · rcases List.mem_cons.mp hsec with rfl | hsec
        · exact hfirst
        · exact hrest sec hsec

/-- **One line.** -/
theorem readLine_meets {state : LpFile × Option LpText}
    (h : ∀ sec ∈ state.1, sec.Meets Pn Pp Pc Pe) {line : LpLine} (hline : line.Meets Pn Pp Pc Pe) :
    ∀ sec ∈ (LpFile.readLine state line).1, sec.Meets Pn Pp Pc Pe := by
  obtain ⟨c, cur⟩ := state
  cases line with
  | header name params =>
      have hopen : ∀ sec ∈ LpFile.openSection c name, sec.Meets Pn Pp Pc Pe := by
        unfold LpFile.openSection
        split
        · exact h
        · intro sec hsec
          rcases List.mem_append.mp hsec with hold | hnew
          · exact h sec hold
          · rw [List.mem_singleton.mp hnew]
            exact ⟨hline.1, fun p hp => absurd hp List.not_mem_nil,
              fun item hitem => absurd hitem List.not_mem_nil⟩
      refine meets_modifySection hopen name fun sec hsec => ⟨hsec.name, fun p hp => ?_, hsec.items⟩
      rcases List.mem_append.mp hp with hold | hnew
      · exact hsec.params p hold
      · exact hline.2 p hnew
  | comment text =>
      cases cur with
      | none => exact h
      | some cur =>
          refine meets_modifySection h cur fun sec hsec => ⟨hsec.name, hsec.params, ?_⟩
          intro item hitem
          rcases List.mem_append.mp hitem with hold | hnew
          · exact hsec.items item hold
          · rw [List.mem_singleton.mp hnew]
            exact hline
  | pair key value =>
      cases cur with
      | none => exact h
      | some cur =>
          exact meets_modifySection h cur fun sec hsec =>
            ⟨hsec.name, hsec.params, meets_put hsec.items hline⟩
  | other => cases cur <;> exact h

/-- **The lines of a file.** -/
theorem readLines_meets {state : LpFile × Option LpText}
    (h : ∀ sec ∈ state.1, sec.Meets Pn Pp Pc Pe) {lines : List LpLine}
    (hlines : ∀ line ∈ lines, line.Meets Pn Pp Pc Pe) :
    ∀ sec ∈ (LpFile.readLines state lines).1, sec.Meets Pn Pp Pc Pe := by
  induction lines generalizing state with
  | nil => exact h
  | cons line lines ih =>
      exact ih (readLine_meets h (hlines line List.mem_cons_self)) fun line' hline' =>
        hlines line' (List.mem_cons_of_mem line hline')

/-- What holds of each line that is found in a piece holds of the configuration. -/
theorem parse_meets {file : LpText} (h : ∀ piece ∈ pieces (maxLen - 1) [] file, ∀ tail,
      (scanLine (piece ++ nul :: tail)).1.Meets Pn Pp Pc Pe) :
    ∀ sec ∈ LpFile.parse [] file, sec.Meets Pn Pp Pc Pe := by
  have hlines : ∀ (ps : List LpText) (mem : LpText),
      (∀ piece ∈ ps, ∀ tail, (scanLine (piece ++ nul :: tail)).1.Meets Pn Pp Pc Pe) →
      ∀ line ∈ scanPieces mem ps, line.Meets Pn Pp Pc Pe := by
    intro ps
    induction ps with
    | nil => exact fun mem hps line hline => absurd hline List.not_mem_nil
    | cons piece ps ih =>
        intro mem hps line hline
        rcases List.mem_cons.mp hline with rfl | hline
        · exact hps piece List.mem_cons_self _
        · exact ih _ (fun piece' hpiece' => hps piece' (List.mem_cons_of_mem piece hpiece'))
            line hline
  exact readLines_meets (fun sec hsec => absurd hsec List.not_mem_nil) (hlines _ [] h)

end Meets

/-! ## Pieces of a file -/

/-- A line feed ends the text. -/
def OneLine (s : LpText) : Prop := ∀ a b, s = a ++ '\n' :: b → b = []

theorem OneLine.of_isPrefix {s t : LpText} (h : OneLine s) (hbegin : t <+: s) : OneLine t := by
  intro a b heq
  obtain ⟨u, rfl⟩ := hbegin
  have hnil := h a (b ++ u) (by rw [heq, List.append_assoc, List.cons_append])
  exact (List.append_eq_nil_iff.mp hnil).1

theorem OneLine.of_suffix {s t : LpText} (h : OneLine s) (hsuffix : t <:+ s) : OneLine t := by
  intro a b heq
  obtain ⟨u, rfl⟩ := hsuffix
  exact h (u ++ a) b (by rw [heq, List.append_assoc])

theorem oneLine_of_mem_pieces {n : Nat} {acc s p : LpText} (hacc : '\n' ∉ acc)
    (hp : p ∈ pieces n acc s) : OneLine p := by
  have hend : ∀ {t : LpText} {c : Char}, '\n' ∉ t → OneLine (t ++ [c]) := by
    intro t c ht a b heq
    cases hb : b using List.reverseRecOn with
    | nil => rfl
    | append_singleton b x =>
        subst hb
        have hsplit : t ++ [c] = (a ++ '\n' :: b) ++ [x] := by
          rw [heq, List.append_assoc, List.cons_append]
        obtain ⟨rfl, _⟩ := List.append_inj' hsplit rfl
        exact absurd (List.mem_append_right a List.mem_cons_self) ht
  induction s generalizing acc with
  | nil =>
      rw [pieces] at hp
      split at hp
      · cases hp
      · rw [List.mem_singleton.mp hp]
        intro a b heq
        exact absurd (heq ▸ List.mem_append_right a List.mem_cons_self) hacc
  | cons c s ih =>
      rw [pieces] at hp
      split at hp
      · rcases List.mem_cons.mp hp with rfl | hp
        · exact hend hacc
        · exact ih List.not_mem_nil hp
      · rename_i hgoes
        refine ih (fun hmem => ?_) hp
        rcases List.mem_append.mp hmem with hold | hnew
        · exact hacc hold
        · exact hgoes (Or.inl (List.mem_singleton.mp hnew).symm)

theorem not_feed_mem_untilLineEnd {s : LpText} (h : OneLine s) : '\n' ∉ untilLineEnd s := by
  intro hmem
  unfold untilLineEnd at hmem
  split at hmem
  · rename_i hreturn
    obtain ⟨a, b, hsplit⟩ := List.append_of_mem hmem
    have hall := List.takeWhile_append_dropWhile (p := (· ≠ '\r')) (l := s)
    have hrest : s.dropWhile (· ≠ '\r') = [] := by
      rw [hsplit, List.append_assoc, List.cons_append] at hall
      exact (List.append_eq_nil_iff.mp (h a _ hall.symm)).2
    rw [hrest, List.append_nil] at hall
    rw [← hall] at hreturn
    have hne := List.mem_takeWhile_imp hreturn
    simp at hne
  · have hne := List.mem_takeWhile_imp hmem
    simp at hne

theorem not_return_mem_untilLineEnd (s : LpText) : '\r' ∉ untilLineEnd s := by
  intro hmem
  unfold untilLineEnd at hmem
  split at hmem
  · have hne := List.mem_takeWhile_imp hmem
    simp at hne
  · rename_i hreturn
    exact hreturn ((List.takeWhile_sublist _).subset hmem)

theorem untilLineEnd_isPrefix (s : LpText) : untilLineEnd s <+: s := by
  unfold untilLineEnd
  split
  · exact List.takeWhile_prefix _
  · exact List.takeWhile_prefix _

/-! ## What is found -/

variable {piece tail : LpText}

theorem read_piece (piece tail : LpText) : read (piece ++ nul :: tail) <+: piece := by
  by_cases hnul : nul ∈ piece
  · obtain ⟨a, b, rfl, ha⟩ := List.eq_append_cons_of_mem hnul
    rw [List.append_assoc, List.cons_append, read_append ha]
    exact List.prefix_append a _
  · exact ⟨[], by rw [List.append_nil, read_append hnul]⟩

theorem length_word_le (s : LpText) : (word s).length ≤ s.length :=
  Nat.le_trans (List.takeWhile_sublist _).length_le (List.dropWhile_sublist _).length_le

/-- What has no NUL in it is in the string. -/
theorem read_isPrefix {a b rest : LpText} (ha : nul ∉ a) (hb : nul ∉ '[' :: b) :
    a ++ '[' :: b ++ [']'] <+: read (a ++ '[' :: (b ++ ']' :: rest)) := by
  have hwhole : a ++ '[' :: (b ++ ']' :: rest) = (a ++ '[' :: b ++ [']']) ++ rest := by simp
  have hnul : nul ∉ a ++ '[' :: b ++ [']'] := by
    intro hmem
    rcases List.mem_append.mp hmem with hmem | hmem
    · rcases List.mem_append.mp hmem with hmem | hmem
      · exact ha hmem
      · exact hb hmem
    · cases List.mem_singleton.mp hmem
  rw [hwhole]
  unfold CString.read
  rw [List.takeWhile_append_of_pos]
  · exact List.prefix_append _ _
  · intro x hx
    have hne : x ≠ nul := fun heq => hnul (heq ▸ hx)
    exact decide_eq_true hne

theorem isWord_word {mem : LpText} (h : word (read mem) ≠ []) : IsWord (word (read mem)) where
  ne := h
  noSpace := fun _ hx => not_isSpace_of_mem_word hx
  noNul := fun hmem => not_nul_mem_read mem (mem_of_mem_word hmem)

theorem scanParams_isParam {fuel pos : Nat} {mem : LpText} :
    ∀ p ∈ (scanParams fuel mem pos).1, IsParam p := by
  induction fuel generalizing mem pos with
  | zero => exact fun p hp => absurd hp List.not_mem_nil
  | succ fuel ih =>
      intro p hp
      rw [scanParams] at hp
      split at hp
      · cases hp
      · dsimp only at hp
        split at hp
        · cases hp
        · rename_i pos1 _ key value hwords
          obtain ⟨hkey, hvalue, hne, hchars⟩ := twoWords_eq_some hwords
          rcases List.mem_cons.mp hp with rfl | hp
          · refine ⟨?_, hvalue, fun x hx => (hchars x hx).2, fun hmem => ?_⟩
            · rw [hkey] at hne ⊢
              exact isWord_word hne
            · exact not_nul_mem_read _ (hchars _ hmem).1
          · exact ih p hp

/-- A name has no bracket in it. -/
theorem scanHeader_isName {mem : LpText} (hlength : (read mem).length ≤ maxLen - 1) {pos1 : Nat}
    (hopen : strchr mem 0 '[' = some pos1) {name : LpText} {params : List LpSectionParam}
    (h : (scanHeader mem pos1).1 = .header name params) :
    IsName name ∧ ∀ p ∈ params, IsParam p := by
  obtain ⟨before, behind, hdrop, _, hnul, hpos⟩ := strchr_eq_some hopen
  rw [List.drop_zero] at hdrop
  unfold scanHeader at h
  split at h
  · cases h
  · rename_i pos2 hclose
    obtain ⟨mid, rest, hmid, hbracket, hnulMid, hpos2⟩ := strchr_eq_some hclose
    -- the text up to the bracket begins with the other one
    have hstart : mem.drop pos1 = '[' :: behind := by
      rw [hdrop, hpos, Nat.zero_add, List.drop_left]
    obtain ⟨mid', rfl⟩ : ∃ mid', mid = '[' :: mid' := by
      rw [hstart] at hmid
      cases mid with
      | nil => cases (List.cons.inj hmid).1
      | cons x mid => exact ⟨mid, by rw [(List.cons.inj hmid).1]⟩
    have hinner : read ((mem.set pos2 nul).drop (pos1 + 1)) = read (mid' ++ nul :: rest) := by
      have hset : (mem.set pos2 nul).drop pos1 = '[' :: (mid' ++ nul :: rest) := by
        rw [List.drop_set, if_neg (by omega), hmid, hpos2, Nat.add_sub_cancel_left,
          List.set_append_right _ _ (Nat.le_refl _), Nat.sub_self]
        rfl
      rw [← List.drop_drop, hset]
      rfl
    have hname : ∀ x ∈ read ((mem.set pos2 nul).drop (pos1 + 1)), x ∈ mid' := by
      intro x hx
      rw [hinner] at hx
      exact (read_piece mid' rest).subset hx
    dsimp only at h
    split at h
    · cases h
    · rename_i hne
      have hfits : (word (read ((mem.set pos2 nul).drop (pos1 + 1)))).length + 2 ≤ maxLen - 1 := by
        have hword := length_word_le (read ((mem.set pos2 nul).drop (pos1 + 1)))
        have hmid' := (read_piece mid' rest).length_le
        have hbefore : (before ++ '[' :: mid' ++ [']']).length ≤ (read mem).length := by
          refine List.IsPrefix.length_le ?_
          rw [hdrop]
          have hbehind : behind = mid' ++ ']' :: rest := by
            rw [hstart] at hmid
            exact (List.cons.inj hmid).2
          rw [hbehind]
          exact read_isPrefix hnul hnulMid
        rw [hinner] at hword ⊢
        simp only [List.length_append, List.length_cons, List.length_nil] at hbefore
        omega
      have hisName : IsName (word (read ((mem.set pos2 nul).drop (pos1 + 1)))) :=
        ⟨isWord_word hne, fun hmem =>
          hbracket (List.mem_cons_of_mem _ (hname _ (mem_of_mem_word hmem))), hfits⟩
      split at h
      · obtain ⟨rfl, rfl⟩ := LpLine.header.inj h
        exact ⟨hisName, scanParams_isParam⟩
      · obtain ⟨rfl, rfl⟩ := LpLine.header.inj h
        exact ⟨hisName, fun p hp => absurd hp List.not_mem_nil⟩

/-- The text in front of an equals sign, and the text behind it. -/
theorem read_equals {mem : LpText} {pos1 : Nat} (h : strchr mem 0 '=' = some pos1) :
    ∃ mid rest, mem = mid ++ '=' :: rest ∧ '=' ∉ mid ∧ nul ∉ mid ∧ pos1 = mid.length ∧
      read (mem.set pos1 nul) = mid ∧
      read ((mem.set pos1 nul).drop (pos1 + 1)) = read rest ∧
      read mem = mid ++ '=' :: read rest := by
  obtain ⟨mid, rest, hmem, hequals, hnul, hpos⟩ := strchr_eq_some h
  rw [List.drop_zero] at hmem
  rw [Nat.zero_add] at hpos
  have hset : mem.set pos1 nul = mid ++ nul :: rest := by
    rw [hmem, hpos, List.set_append_right _ _ (Nat.le_refl _), Nat.sub_self]
    rfl
  refine ⟨mid, rest, hmem, hequals, hnul, hpos, ?_, ?_, ?_⟩
  · rw [hset, read_append hnul]
  · rw [hset, hpos]
    simp
  · rw [hmem]
    unfold CString.read
    rw [List.takeWhile_append_of_pos]
    · rfl
    · intro x hx
      have hne : x ≠ nul := fun heq => hnul (heq ▸ hx)
      exact decide_eq_true hne

/-- A key and its value are those of a line. -/
theorem scanItem_isEntry (hline : OneLine piece) (hlength : piece.length ≤ maxLen - 1)
    {key value : LpText} (h : (scanItem (piece ++ nul :: tail)).1 = .pair key value) :
    IsEntry key value := by
  unfold scanItem at h
  split at h
  · cases h
  · split at h
    · cases h
    · rename_i pos1 hfound
      obtain ⟨mid, rest, _, hequals, hnul, _, hkey, hvalue, hread⟩ := read_equals hfound
      dsimp only at h
      rw [hkey, hvalue] at h
      split at h
      · cases h
      · rename_i hne
        split at h
        · cases h
        · rename_i hsome
          obtain ⟨rfl, rfl⟩ := LpLine.pair.inj h
          have hbegin := read_piece piece tail
          rw [hread] at hbegin
          have hrest : OneLine (read rest) := by
            refine (hline.of_isPrefix hbegin).of_suffix ?_
            exact ⟨mid ++ ['='], by rw [List.append_assoc]; rfl⟩
          have hin := (List.rdropWhile_prefix (p := (· = ' '))
            (l := untilLineEnd (read rest))).subset
          have hvalueNul : nul ∉ (untilLineEnd (read rest)).rdropWhile (· = ' ') := fun hmem =>
            not_nul_mem_read rest ((untilLineEnd_isPrefix _).subset (hin hmem))
          refine ⟨⟨hne, fun x hx => not_isSpace_of_mem_word hx,
            fun hmem => hnul (mem_of_mem_word hmem)⟩, fun hmem => hequals (mem_of_mem_word hmem),
            ⟨hsome, fun hmem => not_return_mem_untilLineEnd _ (hin hmem),
              fun hmem => not_feed_mem_untilLineEnd hrest (hin hmem), hvalueNul, ?_⟩, ?_⟩
          · have hlast := List.rdropWhile_last_not (p := (· = ' ')) _ hsome
            simpa using hlast
          · have hwhole := hbegin.length_le
            have hword := length_word_le mid
            have hstripped := List.rdropWhile_prefix (p := (· = ' '))
              (l := untilLineEnd (read rest)) |>.length_le
            have hended := (untilLineEnd_isPrefix (read rest)).length_le
            rw [List.length_append, List.length_cons] at hwhole
            omega

/-- A comment is one up to the end of its line. -/
theorem isAComment_untilLineEnd {s : LpText} (h : isAComment s = true) :
    isAComment (untilLineEnd s) = true := by
  obtain ⟨spaces, rest, rfl, hspaces⟩ : ∃ spaces rest, s = spaces ++ '#' :: rest ∧
      ∀ x ∈ spaces, x = ' ' := exists_sharp h
  have hkeep : ∀ {x : Char}, x ≠ ' ' → x ≠ '#' →
      (spaces ++ '#' :: rest).takeWhile (· ≠ x) = spaces ++ '#' :: rest.takeWhile (· ≠ x) := by
    intro x hx hx'
    have hsharp : ('#' :: rest).takeWhile (· ≠ x) = '#' :: rest.takeWhile (· ≠ x) := by
      simp [hx'.symm]
    rw [List.takeWhile_append_of_pos, hsharp]
    intro y hy
    rw [hspaces y hy]
    exact decide_eq_true hx.symm
  have hcomment : ∀ rest : LpText, isAComment (spaces ++ '#' :: rest) = true := by
    intro rest
    unfold isAComment
    rw [List.dropWhile_append_of_pos fun x hx => decide_eq_true (hspaces x hx)]
    rfl
  unfold untilLineEnd
  split
  · rw [hkeep (by decide) (by decide)]
    exact hcomment _
  · rw [hkeep (by decide) (by decide)]
    exact hcomment _

theorem scanItem_isComment (hline : OneLine piece) (hlength : piece.length ≤ maxLen - 1)
    {text : LpText} (h : (scanItem (piece ++ nul :: tail)).1 = .comment text) : IsComment text := by
  unfold scanItem at h
  split at h
  · rename_i hcomment
    have htext := LpLine.comment.inj h
    have hbegin := read_piece piece tail
    rw [← htext]
    refine ⟨isAComment_untilLineEnd hcomment, not_return_mem_untilLineEnd _,
      not_feed_mem_untilLineEnd (hline.of_isPrefix hbegin), fun hmem => ?_, ?_⟩
    · exact not_nul_mem_read _ ((untilLineEnd_isPrefix _).subset hmem)
    · have hended := (untilLineEnd_isPrefix (read (piece ++ nul :: tail))).length_le
      have hwhole := hbegin.length_le
      omega
  · split at h
    · cases h
    · dsimp only at h
      split at h
      · cases h
      · split at h <;> cases h

/-- A section, as it is read of a file. -/
abbrev FromFile (sec : LpFileSection) : Prop := sec.Meets IsName IsParam IsComment IsEntry

/-- **What is read of any file.** -/
theorem fromFile_parse (file : LpText) : ∀ sec ∈ LpFile.parse [] file, FromFile sec := by
  refine parse_meets fun piece hpiece tail => ?_
  have hline := oneLine_of_mem_pieces List.not_mem_nil hpiece
  have hlength := length_le_of_mem_pieces (by decide) hpiece
  have hitem : (scanItem (piece ++ nul :: tail)).1.Meets IsName IsParam IsComment IsEntry := by
    rcases scanItem_cases (piece ++ nul :: tail) with h | ⟨text, h⟩ | ⟨key, value, h, _⟩
    · rw [h]
      trivial
    · rw [h]
      exact scanItem_isComment hline hlength h
    · rw [h]
      exact scanItem_isEntry hline hlength h
  unfold scanLine
  split
  · rename_i pos1 hopen
    split
    · rcases scanHeader_cases (piece ++ nul :: tail) pos1 with h | ⟨name, params, h⟩
      · rw [h]
        trivial
      · rw [h]
        exact scanHeader_isName (Nat.le_trans (read_piece piece tail).length_le hlength) hopen h
    · exact hitem
  · exact hitem

/-! ## Keys that begin a line -/

/-- A text that has no other blanks than spaces before its first word. -/
def Tame (piece : LpText) : Prop :=
  ∀ x ∈ (piece.dropWhile (· = ' ')).head?, isSpace x = true → x = '\n'

/-- The key of an item that can be told from a header and a comment. -/
def GoodKey (key : LpText) : Prop := key.head? ≠ some '[' ∧ key.head? ≠ some '#'

/-- A pair is found in a line that does not begin with a bracket. -/
theorem scanItem_of_pair {mem key value : LpText} (h : (scanLine mem).1 = .pair key value) :
    (scanItem mem).1 = .pair key value ∧
      ∀ pos1, strchr mem 0 '[' = some pos1 → isFirstChar mem pos1 = false := by
  unfold scanLine at h
  split at h
  · rename_i pos1 hopen
    split at h
    · rcases scanHeader_cases mem pos1 with hother | ⟨_, _, hheader⟩
      · rw [hother] at h
        cases h
      · rw [hheader] at h
        cases h
    · rename_i hfirst
      refine ⟨h, fun pos hpos => ?_⟩
      rw [hopen] at hpos
      rw [← Option.some.inj hpos]
      exact eq_false_of_ne_true hfirst
  · rename_i hopen
    refine ⟨h, fun pos hpos => ?_⟩
    rw [hopen] at hpos
    cases hpos

/-- A key that is read of a line begins it, when only spaces are in front of it. -/
theorem goodKey_of_tame (htame : Tame piece) (hline : OneLine piece) {key value : LpText}
    (h : (scanLine (piece ++ nul :: tail)).1 = .pair key value) : GoodKey key := by
  obtain ⟨hitem, hfirst⟩ := scanItem_of_pair h
  unfold scanItem at hitem
  split at hitem
  · cases hitem
  · rename_i hcomment
    split at hitem
    · cases hitem
    · rename_i pos1 hfound
      obtain ⟨mid, rest, hmem, _, hnul, _, hkey, _, hread⟩ := read_equals hfound
      dsimp only at hitem
      rw [hkey] at hitem
      split at hitem
      · cases hitem
      · rename_i hne
        split at hitem
        · cases hitem
        · obtain ⟨rfl, _⟩ := LpLine.pair.inj hitem
          obtain ⟨behind, hpiece⟩ := read_piece piece tail
          rw [hread] at hpiece
          have hall := List.takeWhile_append_dropWhile (p := (· = ' ')) (l := mid)
          have hspaces : ∀ x ∈ mid.takeWhile (· = ' '), x = ' ' := fun x hx => by
            simpa using List.mem_takeWhile_imp hx
          cases hdrop : mid.dropWhile (· = ' ') with
          | nil =>
              -- only spaces: there is no word
              rw [hdrop, List.append_nil] at hall
              refine absurd ?_ hne
              have hblank : mid.dropWhile isSpace = [] := by
                rw [List.dropWhile_eq_nil_iff]
                intro x hx
                rw [← hall] at hx
                rw [hspaces x hx]
                rfl
              unfold word
              rw [hblank]
              rfl
          | cons x after =>
              rw [hdrop] at hall
              have hspace : x ≠ ' ' := by
                have hnot := List.head_dropWhile_not (· = ' ') (l := mid) (by
                  rw [hdrop]
                  exact List.cons_ne_nil x after)
                simpa [hdrop] using hnot
              have hwhole : piece = mid.takeWhile (· = ' ') ++
                  x :: (after ++ '=' :: (read rest ++ behind)) := by
                rw [← hpiece]
                conv_lhs => rw [← hall]
                simp
              have hhead : x ∈ (piece.dropWhile (· = ' ')).head? := by
                rw [hwhole, List.dropWhile_append_of_pos fun y hy => decide_eq_true (hspaces y hy),
                  List.dropWhile_cons_of_neg (by simpa using hspace)]
                rfl
              have hword : isSpace x = false := by
                by_contra hblank
                have hfeed := htame x hhead (eq_true_of_ne_false hblank)
                rw [hfeed] at hwhole
                have hnil := hline _ _ hwhole
                exact absurd hnil (by simp)
              have hkeyHead : (word mid).head? = some x := by
                unfold word
                rw [← hall, List.dropWhile_append_of_pos fun y hy => by rw [hspaces y hy]; rfl,
                  List.dropWhile_cons_of_neg (by rw [hword]; exact Bool.false_ne_true),
                  List.takeWhile_cons_of_pos (by rw [hword]; rfl)]
                rfl
              refine ⟨fun hbracket => ?_, fun hsharp => ?_⟩
              · rw [hkeyHead] at hbracket
                have hx := Option.some.inj hbracket
                have hbefore : '[' ∉ mid.takeWhile (· = ' ') := fun hmem => by
                  cases hspaces _ hmem
                have hbeforeNul : nul ∉ mid.takeWhile (· = ' ') := fun hmem => by
                  cases hspaces _ hmem
                have hbuffer : piece ++ nul :: tail = mid.takeWhile (· = ' ') ++
                    '[' :: (after ++ '=' :: (read rest ++ behind) ++ nul :: tail) := by
                  rw [hwhole, hx]
                  simp
                have hplace := strchr_append (a := [])
                  (b := after ++ '=' :: (read rest ++ behind) ++ nul :: tail) hbefore hbeforeNul
                  (by decide : '[' ≠ nul)
                rw [List.nil_append, ← hbuffer] at hplace
                have hnot := hfirst _ hplace
                unfold isFirstChar at hnot
                rw [hbuffer, List.length_nil, Nat.zero_add, List.take_left] at hnot
                have hyes : (mid.takeWhile (· = ' ')).all (· = ' ') = true := by
                  rw [List.all_eq_true]
                  exact fun y hy => decide_eq_true (hspaces y hy)
                rw [hyes] at hnot
                cases hnot
              · rw [hkeyHead] at hsharp
                have hx := Option.some.inj hsharp
                refine hcomment ?_
                unfold isAComment
                rw [hread]
                conv_lhs => rw [← hall]
                rw [List.append_assoc,
                  List.dropWhile_append_of_pos fun y hy => decide_eq_true (hspaces y hy), hx]
                rfl

end Linphone
