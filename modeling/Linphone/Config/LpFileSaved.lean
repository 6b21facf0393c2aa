import Linphone.Config.LpFileSync
import Mathlib.Data.List.Nodup

/-!
# Saving what was set

A configuration whose items were set, saved and read again. What the text of a section gives is
`sectionEvents`, when its entries can be read of lines, so that all values come back; and what
comes back was read of lines.

`saved_values_iff`: the values come back if and only if all entries are readable.
-/

namespace Linphone

open CString
open Scan (isSpace)

/-! ## What the text of a section gives -/

/-- What the items of a section give to its keys. -/
def itemEvents (name : LpText) (items : List LpItem) : List LpEvent :=
  items.filterMap fun
    | .comment _ => none
    | .entry key value => some (.given name key value)

def sectionEvents (sec : LpFileSection) : List LpEvent := itemEvents sec.name sec.items

theorem givenBy_content (cur : Option LpText) (lines : List LpLine) :
    givenBy cur (content lines) = givenBy cur lines := by
  induction lines generalizing cur with
  | nil => rfl
  | cons line lines ih =>
      rw [content_cons]
      cases line with
      | other =>
          have hother : givenBy cur (.other :: lines) = givenBy cur lines := by
            cases cur <;> rfl
          rw [hother, ← ih]
          rfl
      | header name params =>
          show givenBy cur (.header name params :: content lines) = _
          rw [givenBy, givenBy, ih]
      | comment text =>
          have hcomment : ∀ lines, givenBy cur (.comment text :: lines) = givenBy cur lines := by
            intro lines
            cases cur <;> rfl
          show givenBy cur (.comment text :: content lines) = _
          rw [hcomment, hcomment, ih]
      | pair key value =>
          show givenBy cur (.pair key value :: content lines) = _
          cases cur with
          | none => exact ih none
          | some cur => exact congrArg (.given cur key value :: ·) (ih (some cur))

theorem givenBy_items (name : LpText) (items : List LpItem) (lines : List LpLine) :
    givenBy (some name) (items.map LpItem.line ++ lines) =
      itemEvents name items ++ givenBy (some name) lines := by
  induction items with
  | nil => rfl
  | cons item items ih =>
      cases item with
      | comment text => exact ih
      | entry key value => exact congrArg (.given name key value :: ·) ih

/-- The entry can be told from the other lines of a file. -/
structure ReadableEntry (name key value : LpText) : Prop where
  name : IsName name
  entry : IsEntry key value
  good : GoodKey key

/-- The name of a section without items does not reach beyond its line. -/
def PlainName (name : LpText) : Prop := '\n' ∉ name ∧ name.length + 2 ≤ maxLen - 1

/-- A section with neither parameters nor comments. -/
structure Bare (sec : LpFileSection) : Prop where
  params : sec.params = []
  items : ∀ item ∈ sec.items, ∃ key value, item = .entry key value

def LpFileSection.Readable (sec : LpFileSection) : Prop :=
  ∀ key value, .entry key value ∈ sec.items → ReadableEntry sec.name key value

theorem Bare.header {sec : LpFileSection} (h : Bare sec) :
    sec.header = '[' :: sec.name ++ [']'] := by
  unfold LpFileSection.header
  rw [h.params]
  simp

theorem Bare.meets {sec : LpFileSection} (h : Bare sec) (hreadable : sec.Readable) :
    ∀ item ∈ sec.items, item.Meets IsComment IsEntry := by
  intro item hitem
  obtain ⟨key, value, rfl⟩ := h.items item hitem
  exact (hreadable key value hitem).entry

/-- A section with items is as one that was read of a file. -/
theorem Bare.fromFile {sec : LpFileSection} (h : Bare sec) (hreadable : sec.Readable)
    (hitems : sec.items ≠ []) : FromFile sec ∧ sec.GoodKeys ∧ sec.Fits := by
  obtain ⟨item, items, hcons⟩ := List.exists_cons_of_ne_nil hitems
  obtain ⟨key, value, hentry⟩ := h.items item (hcons ▸ List.mem_cons_self)
  have hname := (hreadable key value (by rw [hcons, hentry]; exact List.mem_cons_self)).name
  refine ⟨⟨hname, fun p hp => ?_, h.meets hreadable⟩, fun key value hmem =>
    (hreadable key value hmem).good, ?_⟩
  · rw [h.params] at hp
    cases hp
  · have hfits := hname.fits
    unfold LpFileSection.Fits
    rw [h.header, List.length_append, List.length_cons, List.length_singleton]
    omega

theorem scanLine_bracket (s : LpText) :
    (scanLine ('[' :: s)).1 = .other ∨
      ∃ name params, (scanLine ('[' :: s)).1 = .header name params := by
  have hopen : strchr ([] ++ ([] ++ '[' :: s)) 0 '[' = some 0 :=
    strchr_append (a := []) List.not_mem_nil List.not_mem_nil (by decide)
  rw [List.nil_append, List.nil_append] at hopen
  unfold scanLine
  rw [hopen]
  exact scanHeader_cases _ 0

/-- A section without items gives nothing. -/
theorem givenBy_emptySection {sec : LpFileSection} (h : Bare sec) (hname : PlainName sec.name)
    (hitems : sec.items = []) (cur : Option LpText) (mem rest : LpText) :
    ∃ cur' mem',
      givenBy cur (content (scanPieces mem (pieces (maxLen - 1) [] (sec.write ++ rest)))) =
        givenBy cur' (content (scanPieces mem' (pieces (maxLen - 1) [] rest))) := by
  have hwrite : sec.write ++ rest = sec.header ++ '\n' :: ('\n' :: rest) := by
    unfold LpFileSection.write
    rw [hitems]
    simp
  have hfeed : '\n' ∉ sec.header := by
    rw [h.header]
    intro hmem
    rcases List.mem_append.mp hmem with hmem | hmem
    · rcases List.mem_cons.mp hmem with hmem | hmem
      · cases hmem
      · exact hname.1 hmem
    · cases List.mem_singleton.mp hmem
  have hfits : sec.header.length ≤ maxLen - 1 := by
    have hlength := hname.2
    rw [h.header, List.length_append, List.length_cons, List.length_singleton]
    omega
  have hblankLine : pieces (maxLen - 1) [] ('\n' :: rest) =
      ['\n'] :: pieces (maxLen - 1) [] rest := by
    rw [pieces, if_pos (Or.inl rfl)]
    rfl
  obtain ⟨after, mem₁, _, hline⟩ := content_line hfeed hfits mem ('\n' :: rest)
  obtain ⟨mem₂, hblank⟩ := content_blank mem₁ (pieces (maxLen - 1) [] rest)
  have hbracket : sec.header ++ after = '[' :: (sec.name ++ [']'] ++ after) := by
    rw [h.header]
    simp
  rw [hwrite, hline, hblankLine, hblank, hbracket]
  rcases scanLine_bracket (sec.name ++ [']'] ++ after) with hother | ⟨name, params, hheader⟩
  · rw [hother]
    exact ⟨cur, mem₂, rfl⟩
  · rw [hheader]
    refine ⟨some name, mem₂, ?_⟩
    show givenBy cur (.header name params :: content _) = _
    rw [givenBy]

/-- **What the text gives** is what the sections hold. -/
theorem givenBy_sync {c : LpFile} (hbare : ∀ sec ∈ c, Bare sec)
    (hplain : ∀ sec ∈ c, sec.items = [] → PlainName sec.name)
    (hreadable : ∀ sec ∈ c, sec.Readable) (cur : Option LpText) (mem : LpText) :
    givenBy cur (content (scanPieces mem (pieces (maxLen - 1) [] (LpFile.sync c)))) =
      c.flatMap sectionEvents := by
  induction c generalizing cur mem with
  | nil =>
      cases cur <;> rfl
  | cons sec c ih =>
      have hsync : LpFile.sync (sec :: c) = sec.write ++ LpFile.sync c := List.flatMap_cons
      have hrest := ih (fun s hs => hbare s (List.mem_cons_of_mem sec hs))
        (fun s hs => hplain s (List.mem_cons_of_mem sec hs))
        (fun s hs => hreadable s (List.mem_cons_of_mem sec hs))
      have hsec := hbare sec List.mem_cons_self
      rw [hsync, List.flatMap_cons]
      by_cases hitems : sec.items = []
      · obtain ⟨cur', mem', heq⟩ := givenBy_emptySection hsec
          (hplain sec List.mem_cons_self hitems) hitems cur mem (LpFile.sync c)
        have hnone : sectionEvents sec = [] := by
          rw [sectionEvents, hitems]
          rfl
        rw [heq, hrest, hnone, List.nil_append]
      · obtain ⟨hfile, hgood, hfits⟩ := hsec.fromFile (hreadable sec List.mem_cons_self) hitems
        obtain ⟨mem', params, _, hcontent⟩ := content_section hfile hgood hfits mem (LpFile.sync c)
        rw [hcontent, List.cons_append, givenBy, givenBy_items, hrest]
        rfl

/-! ## Values -/

theorem lastGivenFrom_items (name : LpText) {items : List LpItem}
    (hkeys : (LpItem.keys items).Nodup) (before : Option LpText) (sec key : LpText) :
    lastGivenFrom before sec key (itemEvents name items) =
      if name = sec then (LpItem.find key items).or before else before := by
  induction items generalizing before with
  | nil => split <;> rfl
  | cons item items ih =>
      cases item with
      | comment text => exact ih hkeys before
      | entry key' value =>
          obtain ⟨hnot, hrest⟩ := List.nodup_cons.mp hkeys
          show lastGivenFrom (if name = sec ∧ key' = key then some value else before) sec key
            (itemEvents name items) = _
          rw [ih hrest, LpItem.find]
          by_cases hname : name = sec
          · rw [if_pos hname, if_pos hname]
            by_cases hkey : key' = key
            · rw [if_pos ⟨hname, hkey⟩, if_pos hkey, LpItem.find_eq_none (hkey ▸ hnot)]
              rfl
            · rw [if_neg fun hboth => hkey hboth.2, if_neg hkey]
          · rw [if_neg hname, if_neg hname, if_neg fun hboth => hname hboth.1]

/-- What the sections hold is what is read of them. -/
theorem lastGivenFrom_sections {c : LpFile} (h : c.Sound) (before : Option LpText)
    (sec key : LpText) :
    lastGivenFrom before sec key (c.flatMap sectionEvents) =
      (c.getString sec key).or before := by
  induction c generalizing before with
  | nil => rfl
  | cons s c ih =>
      obtain ⟨hnot, hrest⟩ := List.nodup_cons.mp h.names
      have hsound : LpFile.Sound c :=
        ⟨hrest, fun s' hs' => h.keys s' (List.mem_cons_of_mem s hs'),
          fun s' hs' => h.values s' (List.mem_cons_of_mem s hs')⟩
      rw [List.flatMap_cons, LpFile.lastGivenFrom_append, ih hsound, sectionEvents,
        lastGivenFrom_items s.name (h.keys s List.mem_cons_self)]
      unfold LpFile.getString
      rw [LpFile.findSection_cons]
      by_cases hname : s.name = sec
      · have hnone : LpFile.findSection c sec = none :=
          LpFile.findSection_eq_none (hname ▸ hnot)
        rw [if_pos hname, if_pos hname, hnone]
        rfl
      · rw [if_neg hname, if_neg hname]

/-- An entry of a section is what is read of its key. -/
theorem find_of_entry {items : List LpItem} (hkeys : (LpItem.keys items).Nodup)
    {key value : LpText} (hmem : .entry key value ∈ items) :
    LpItem.find key items = some value := by
  induction items with
  | nil => cases hmem
  | cons item items ih =>
      cases item with
      | comment text =>
          rcases List.mem_cons.mp hmem with hfirst | hmem
          · cases hfirst
          · exact ih hkeys hmem
      | entry key' old =>
          obtain ⟨hnot, hrest⟩ := List.nodup_cons.mp hkeys
          rw [LpItem.find]
          rcases List.mem_cons.mp hmem with hfirst | hmem
          · cases hfirst
            rw [if_pos rfl]
          · have hne : key' ≠ key := by
              rintro rfl
              exact hnot (List.mem_filterMap.mpr ⟨_, hmem, rfl⟩)
            rw [if_neg hne]
            exact ih hrest hmem

theorem getString_of_entry {c : LpFile} (h : c.Sound) {sec : LpFileSection} (hsec : sec ∈ c)
    {key value : LpText} (hmem : .entry key value ∈ sec.items) :
    c.getString sec.name key = some value := by
  have hname : sec.name ∈ c.names := List.mem_map.mpr ⟨sec, hsec, rfl⟩
  obtain ⟨s, hfind, hs, hsame⟩ := LpFile.findSection_of_mem hname
  have heq : s = sec := List.inj_on_of_nodup_map h.names hs hsec hsame
  unfold LpFile.getString
  rw [hfind, heq, Option.bind_some]
  exact find_of_entry (h.keys sec hsec) hmem

theorem entry_of_find {items : List LpItem} {key value : LpText}
    (h : LpItem.find key items = some value) : .entry key value ∈ items := by
  induction items with
  | nil => cases h
  | cons item items ih =>
      cases item with
      | comment text => exact List.mem_cons_of_mem _ (ih h)
      | entry key' old =>
          rw [LpItem.find] at h
          split at h
          · rename_i heq
            cases h
            rw [heq]
            exact List.mem_cons_self
          · exact List.mem_cons_of_mem _ (ih h)

theorem entry_of_getString {c : LpFile} {sec key value : LpText}
    (h : c.getString sec key = some value) :
    ∃ s ∈ c, s.name = sec ∧ .entry key value ∈ s.items := by
  obtain ⟨s, hfind, hvalue⟩ := Option.bind_eq_some_iff.mp h
  obtain ⟨s', hfind', hs', hname⟩ := LpFile.findSection_of_mem (LpFile.findSection_some hfind)
  rw [hfind] at hfind'
  cases hfind'
  exact ⟨s, hs', hname, entry_of_find hvalue⟩

/-! ## Items that are set -/

/-- Calls of `lp_config_set_string`, each with a section, a key and a value or `NULL`. -/
def setAll (calls : List (LpText × LpText × Option LpText)) : LpFile :=
  LpFile.run [] (calls.map fun call => .setString call.1 call.2.1 call.2.2)

theorem bare_setString {c : LpFile} (h : ∀ sec ∈ c, Bare sec) (sec key : LpText)
    (value : Option LpText) : ∀ s ∈ c.setString sec key value, Bare s := by
  have hmodify : ∀ {f : LpFileSection → LpFileSection}, (∀ s, Bare s → Bare (f s)) →
      ∀ s ∈ LpFile.modifySection sec f c, Bare s := by
    intro f hf s hs
    rcases LpFile.mem_modifySection hs with hold | ⟨old, hold, _, rfl⟩
    · exact h s hold
    · exact hf old (h old hold)
  intro s hs
  unfold LpFile.setString at hs
  dsimp only at hs
  split at hs
  · split at hs
    · refine hmodify (f := (·.setItem key (value.getD [])))
        (fun s hs => ⟨hs.params, fun item hitem => ?_⟩) s hs
      rcases LpItem.mem_put hitem with hold | hnew
      · exact hs.items item hold
      · exact ⟨_, _, hnew⟩
    · refine hmodify (f := (·.removeItem key))
        (fun s hs => ⟨hs.params, fun item hitem => ?_⟩) s hs
      exact hs.items item (LpItem.mem_remove hitem)
  · split at hs
    · rcases List.mem_append.mp hs with hold | hnew
      · exact h s hold
      · rw [List.mem_singleton.mp hnew]
        exact ⟨rfl, fun item hitem => ⟨_, _, List.mem_singleton.mp hitem⟩⟩
    · exact h s hs

theorem bare_setAll (calls : List (LpText × LpText × Option LpText)) :
    ∀ sec ∈ setAll calls, Bare sec := by
  unfold setAll
  induction calls using List.reverseRecOn with
  | nil => exact fun sec hsec => absurd hsec List.not_mem_nil
  | append_singleton calls call ih =>
      rw [List.map_append, List.map_singleton, LpFile.run_concat]
      exact bare_setString ih call.1 call.2.1 call.2.2

/-- **Saving what was set.** When no section that was left without items has a name which reaches
beyond its line, all values are read again as they were if and only if each entry can be read of a
line of its own, in a section whose name can. -/
theorem saved_values_iff (calls : List (LpText × LpText × Option LpText))
    (hplain : ∀ sec ∈ setAll calls, sec.items = [] → PlainName sec.name) :
    (∀ sec key, (LpFile.parse [] (setAll calls).sync).getString sec key =
        (setAll calls).getString sec key) ↔
      ∀ sec ∈ setAll calls, sec.Readable := by
  have hbare := bare_setAll calls
  have hsound : (setAll calls).Sound := LpFile.sound_nil.run _
  constructor
  · intro hsame
    -- what is read again was read of a line
    have hback : ∀ sec ∈ setAll calls, ∀ key value, .entry key value ∈ sec.items →
        ∃ s ∈ LpFile.parse [] (setAll calls).sync, s.name = sec.name ∧
          .entry key value ∈ s.items := by
      intro sec hsec key value hmem
      have hread := getString_of_entry hsound hsec hmem
      rw [← hsame] at hread
      exact entry_of_getString hread
    have hlines : ∀ sec ∈ setAll calls, ∀ key value, .entry key value ∈ sec.items →
        IsName sec.name ∧ IsEntry key value := by
      intro sec hsec key value hmem
      obtain ⟨s, hs, hname, hentry⟩ := hback sec hsec key value hmem
      have hfile := fromFile_parse _ s hs
      exact ⟨hname ▸ hfile.name, hfile.items _ hentry⟩
    have htame : ∀ sec ∈ setAll calls, TameSection sec := by
      intro sec hsec
      have hheader := (hbare sec hsec).header
      have hmeets : ∀ item ∈ sec.items, item.Meets IsComment IsEntry := by
        intro item hitem
        obtain ⟨key, value, rfl⟩ := (hbare sec hsec).items item hitem
        exact (hlines sec hsec key value hitem).2
      have hname : PlainName sec.name := by
        by_cases hitems : sec.items = []
        · exact hplain sec hsec hitems
        · obtain ⟨item, items, hcons⟩ := List.exists_cons_of_ne_nil hitems
          have hitem : item ∈ sec.items := hcons ▸ List.mem_cons_self
          obtain ⟨key, value, rfl⟩ := (hbare sec hsec).items item hitem
          have hisName := (hlines sec hsec key value hitem).1
          exact ⟨not_feed_mem_word hisName.word, hisName.fits⟩
      refine ⟨?_, Or.inl ?_, hmeets⟩
      · rw [hheader]
        intro hmem
        rcases List.mem_append.mp hmem with hmem | hmem
        · rcases List.mem_cons.mp hmem with hmem | hmem
          · cases hmem
          · exact hname.1 hmem
        · cases List.mem_singleton.mp hmem
      · have hlength := hname.2
        rw [hheader, List.length_append, List.length_cons, List.length_singleton]
        omega
    intro sec hsec key value hmem
    obtain ⟨s, hs, _, hentry⟩ := hback sec hsec key value hmem
    obtain ⟨hname, hisEntry⟩ := hlines sec hsec key value hmem
    exact ⟨hname, hisEntry, goodKeys_of_sync htame s hs key value hentry⟩
  · intro hreadable sec key
    have hvalues := (LpFile.sound_nil.reading (setAll calls).sync).values sec key
    have hread : (LpFile.parse [] (setAll calls).sync).getString sec key =
        lastGivenFrom none sec key (givenBy none (linesOf (setAll calls).sync)) := hvalues
    have hgiven : givenBy none (linesOf (setAll calls).sync) =
        (setAll calls).flatMap sectionEvents := by
      unfold linesOf
      rw [← givenBy_content]
      exact givenBy_sync hbare hplain hreadable none []
    rw [hread, hgiven, lastGivenFrom_sections hsound, Option.or_none]

/-- One item whose value a line can hold. -/
theorem saved_values_iff_simple :
    (∀ sec key,
      (LpFile.parse [] (setAll [(['s'], ['k'], some ['a', ' ', '=', 'b'])]).sync).getString sec
        key = (setAll [(['s'], ['k'], some ['a', ' ', '=', 'b'])]).getString sec key) ↔
      ∀ sec ∈ setAll [(['s'], ['k'], some ['a', ' ', '=', 'b'])], sec.Readable :=
  saved_values_iff [(['s'], ['k'], some ['a', ' ', '=', 'b'])] fun sec hsec hitems => by
    rw [List.mem_singleton.mp hsec] at hitems
    cases hitems

/-- A value that ends with a space is read without it. -/
theorem trailing_space_lost :
    ¬ ∀ calls : List (LpText × LpText × Option LpText), ∀ sec key,
      (LpFile.parse [] (setAll calls).sync).getString sec key =
        (setAll calls).getString sec key := by
  intro h
  exact absurd (h [(['s'], ['k'], some ['v', ' '])] ['s'] ['k']) (by decide)

end Linphone
