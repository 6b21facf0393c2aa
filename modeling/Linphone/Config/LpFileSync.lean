import Linphone.Config.LpFileState
import Linphone.Config.LpFileRead

/-!
# Saving a configuration and reading it again

`sync_parse`: what `lp_config_sync` writes of a configuration, read into an empty one. Section by
section the lines of the text are found again, when their keys and headers can be told apart and
the headers fit into the buffer, and they rebuild the section.

Main results: `saved_again_iff` for a configuration that was read of a file, and `saved_values_iff`
for one whose items were set.
-/

namespace Linphone

open CString
open Scan (isSpace)

/-! ## Sections as lines -/

/-- The line an item is read from. -/
def LpItem.line : LpItem → LpLine
  | .comment text => .comment text
  | .entry key value => .pair key value

/-- The header of the section fits into the buffer. -/
def LpFileSection.Fits (sec : LpFileSection) : Prop := sec.header.length ≤ maxLen - 1

/-- The keys of the section begin with neither a bracket nor a sharp. -/
def LpFileSection.GoodKeys (sec : LpFileSection) : Prop :=
  ∀ key value, .entry key value ∈ sec.items → GoodKey key

/-- The parameters of the section are read as they are written. -/
def LpFileSection.PlainParams (sec : LpFileSection) : Prop := ∀ p ∈ sec.params, Plain p

theorem goodKey_head {key : LpText} (h : GoodKey key) (hne : key ≠ []) :
    key.head hne ≠ '[' ∧ key.head hne ≠ '#' := by
  rw [GoodKey, List.head?_eq_some_head hne] at h
  exact ⟨fun heq => h.1 (congrArg some heq), fun heq => h.2 (congrArg some heq)⟩

theorem not_feed_mem_word {w : LpText} (h : IsWord w) : '\n' ∉ w := h.not_mem rfl

theorem not_feed_mem_header {sec : LpFileSection} (hname : IsName sec.name)
    (hparams : ∀ p ∈ sec.params, IsParam p) : '\n' ∉ sec.header := by
  intro hmem
  unfold LpFileSection.header at hmem
  simp only [List.mem_append, List.mem_cons, List.mem_flatMap] at hmem
  rcases hmem with ((hmem | hmem) | ⟨p, hp, hmem⟩) | hmem | hmem
  · cases hmem
  · exact not_feed_mem_word hname.word hmem
  · rw [(hparams p hp).write_eq] at hmem
    simp only [List.mem_cons, List.mem_append] at hmem
    rcases hmem with hmem | hmem | hmem | hmem
    · cases hmem
    · exact not_feed_mem_word (hparams p hp).key hmem
    · cases hmem
    · exact not_feed_mem_word (hparams p hp).value hmem
  · cases hmem
  · cases hmem

/-- The items of a section are found again. -/
theorem content_items {items : List LpItem} (hitems : ∀ item ∈ items, item.Meets IsComment IsEntry)
    (hkeys : ∀ key value, .entry key value ∈ items → GoodKey key) (mem rest : LpText) :
    ∃ mem', content (scanPieces mem (pieces (maxLen - 1) []
        (items.flatMap LpItem.write ++ rest))) =
      items.map LpItem.line ++ content (scanPieces mem' (pieces (maxLen - 1) [] rest)) := by
  induction items generalizing mem with
  | nil => exact ⟨mem, rfl⟩
  | cons item items ih =>
      have hitem := hitems item List.mem_cons_self
      have hrest := ih (fun item' hitem' => hitems item' (List.mem_cons_of_mem item hitem'))
        fun key value hmem => hkeys key value (List.mem_cons_of_mem item hmem)
      cases item with
      | comment text =>
          have hcomment : IsComment text := hitem
          have hwrite : (LpItem.comment text :: items).flatMap LpItem.write ++ rest =
              text ++ '\n' :: (items.flatMap LpItem.write ++ rest) := by
            rw [List.flatMap_cons, LpItem.write]
            simp
          obtain ⟨after, mem₁, hafter, hline⟩ := content_line hcomment.noFeed hcomment.fits mem
            (items.flatMap LpItem.write ++ rest)
          obtain ⟨mem₂, hmore⟩ := hrest mem₁
          refine ⟨mem₂, ?_⟩
          rw [hwrite, hline, scanLine_comment hcomment hafter, hmore]
          rfl
      | entry key value =>
          have hentry : IsEntry key value := hitem
          obtain ⟨hbracket, hsharp⟩ := goodKey_head (hkeys key value List.mem_cons_self)
            hentry.word.ne
          have hwrite : (LpItem.entry key value :: items).flatMap LpItem.write ++ rest =
              (key ++ '=' :: value) ++ '\n' :: (items.flatMap LpItem.write ++ rest) := by
            rw [List.flatMap_cons, LpItem.write, if_pos hentry.isValue.ne]
            simp
          have hfeed : '\n' ∉ key ++ '=' :: value := by
            simp only [List.mem_append, List.mem_cons, not_or]
            exact ⟨not_feed_mem_word hentry.word, by decide, hentry.isValue.noFeed⟩
          have hfits : (key ++ '=' :: value).length ≤ maxLen - 1 := by
            have hsum := hentry.fits
            rw [List.length_append, List.length_cons]
            omega
          obtain ⟨after, mem₁, hafter, hline⟩ := content_line hfeed hfits mem
            (items.flatMap LpItem.write ++ rest)
          obtain ⟨mem₂, hmore⟩ := hrest mem₁
          refine ⟨mem₂, ?_⟩
          rw [hwrite, hline, List.append_assoc, List.cons_append,
            scanLine_entry hentry hbracket hsharp hafter, hmore]
          rfl

/-- **A section** is found again, its parameters if and only if they are plain. -/
theorem content_section {sec : LpFileSection} (h : FromFile sec) (hkeys : sec.GoodKeys)
    (hfits : sec.Fits) (mem rest : LpText) :
    ∃ mem' params, (params = sec.params ↔ sec.PlainParams) ∧
      content (scanPieces mem (pieces (maxLen - 1) [] (sec.write ++ rest))) =
        .header sec.name params :: sec.items.map LpItem.line ++
          content (scanPieces mem' (pieces (maxLen - 1) [] rest)) := by
  have hwrite : sec.write ++ rest =
      sec.header ++ '\n' :: (sec.items.flatMap LpItem.write ++ '\n' :: rest) := by
    unfold LpFileSection.write
    simp
  obtain ⟨after, mem₁, hafter, hline⟩ := content_line (not_feed_mem_header h.name h.params) hfits
    mem (sec.items.flatMap LpItem.write ++ '\n' :: rest)
  obtain ⟨params, hparams, hiff⟩ := scanLine_header h.name h.params hafter
  obtain ⟨mem₂, hitems⟩ := content_items h.items hkeys mem₁ ('\n' :: rest)
  obtain ⟨mem₃, hblank⟩ := content_blank mem₂ (pieces (maxLen - 1) [] rest)
  have hpieces : pieces (maxLen - 1) [] ('\n' :: rest) =
      ['\n'] :: pieces (maxLen - 1) [] rest := by
    rw [pieces, if_pos (Or.inl rfl)]
    rfl
  refine ⟨mem₃, params, hiff, ?_⟩
  rw [hwrite, hline, hparams, hitems, hpieces, hblank]
  rfl

/-! ## Lines as sections -/

namespace LpFile

variable {c d : LpFile}

theorem readLines_content (state : LpFile × Option LpText) (lines : List LpLine) :
    readLines state (content lines) = readLines state lines := by
  induction lines generalizing state with
  | nil => rfl
  | cons line lines ih =>
      rw [content_cons]
      cases line with
      | other =>
          obtain ⟨c, cur⟩ := state
          have hother : readLines (c, cur) (.other :: lines) = readLines (c, cur) lines := by
            cases cur <;> rfl
          rw [hother, ← ih]
          rfl
      | header name params => exact ih _
      | comment text => exact ih _
      | pair key value => exact ih _

theorem readLines_append (state : LpFile × Option LpText) (lines lines' : List LpLine) :
    readLines state (lines ++ lines') = readLines (readLines state lines) lines' :=
  List.foldl_append

/-- The last section is changed, when no other has its name. -/
theorem modifySection_concat {s : LpFileSection} (hnot : s.name ∉ d.names)
    (f : LpFileSection → LpFileSection) :
    modifySection s.name f (d ++ [s]) = d ++ [f s] := by
  induction d with
  | nil =>
      rw [List.nil_append, modifySection, if_pos rfl]
      rfl
  | cons first d ih =>
      obtain ⟨hne, hrest⟩ := not_or.mp fun heq => hnot (List.mem_cons.mpr heq)
      rw [List.cons_append, modifySection, if_neg fun heq => hne heq.symm, ih hrest]
      rfl

/-- Lines with other keys add their items at the end of the last section. -/
theorem readLines_items {s : LpFileSection} (hnot : s.name ∉ d.names) {items : List LpItem}
    (hkeys : (LpItem.keys (s.items ++ items)).Nodup) :
    readLines (d ++ [s], some s.name) (items.map LpItem.line) =
      (d ++ [{ s with items := s.items ++ items }], some s.name) := by
  induction items generalizing s with
  | nil => rw [List.append_nil]; rfl
  | cons item items ih =>
      have hstep : readLine (d ++ [s], some s.name) item.line =
          (d ++ [{ s with items := s.items ++ [item] }], some s.name) := by
        cases item with
        | comment text =>
            show (modifySection s.name (·.addComment text) (d ++ [s]), some s.name) = _
            rw [modifySection_concat hnot]
            rfl
        | entry key value =>
            show (modifySection s.name (·.setItem key value) (d ++ [s]), some s.name) = _
            rw [LpItem.keys_append, LpItem.keys_entry] at hkeys
            have hnew : key ∉ LpItem.keys s.items := fun hmem =>
              (List.nodup_append.mp hkeys).2.2 key hmem key List.mem_cons_self rfl
            have hput : s.setItem key value =
                { s with items := s.items ++ [.entry key value] } := by
              unfold LpFileSection.setItem
              rw [LpItem.put_eq (List.nodup_append.mp hkeys).1, if_neg hnew]
            rw [modifySection_concat hnot, hput]
      have hmore : (LpItem.keys
          (({ s with items := s.items ++ [item] } : LpFileSection).items ++ items)).Nodup := by
        show (LpItem.keys ((s.items ++ [item]) ++ items)).Nodup
        rw [List.append_assoc]
        exact hkeys
      have hnext := ih (s := { s with items := s.items ++ [item] }) hnot hmore
      rw [List.map_cons]
      show readLines (readLine (d ++ [s], some s.name) item.line) (items.map LpItem.line) = _
      rw [hstep, hnext]
      simp

/-- The lines of a section with a new name add it. -/
theorem readLines_section {name : LpText} {params : List LpSectionParam} {items : List LpItem}
    (cur : Option LpText) (hnot : name ∉ d.names) (hkeys : (LpItem.keys items).Nodup) :
    readLines (d, cur) (.header name params :: items.map LpItem.line) =
      (d ++ [{ name := name, params := params, items := items }], some name) := by
  have hopen : openSection d name = d ++ [{ name := name }] := by
    unfold openSection
    rw [findSection_eq_none hnot]
  have hheader : readLine (d, cur) (.header name params) =
      (d ++ [{ name := name, params := params }], some name) := by
    show (modifySection name (·.addParams params) (openSection d name), some name) = _
    rw [hopen]
    exact congrArg (·, some name) (modifySection_concat (s := { name := name }) hnot _)
  show readLines (readLine (d, cur) (.header name params)) (items.map LpItem.line) = _
  rw [hheader]
  exact readLines_items (s := { name := name, params := params }) hnot hkeys

/-- What comes of a section that is saved and read again. -/
def ReadBack (sec sec' : LpFileSection) : Prop :=
  sec'.name = sec.name ∧ sec'.items = sec.items ∧ (sec'.params = sec.params ↔ sec.PlainParams)

/-- **All sections are read back**, after the ones that are there. -/
theorem sync_parse (h : ∀ sec ∈ c, FromFile sec) (hgood : ∀ sec ∈ c, sec.GoodKeys)
    (hfits : ∀ sec ∈ c, sec.Fits) (hkeys : ∀ sec ∈ c, (LpItem.keys sec.items).Nodup)
    (hnames : names (d ++ c) |>.Nodup) (cur : Option LpText) (mem : LpText) :
    ∃ c', (readLines (d, cur) (scanPieces mem (pieces (maxLen - 1) [] (sync c)))).1 =
      d ++ c' ∧ List.Forall₂ ReadBack c c' := by
  induction c generalizing d cur mem with
  | nil => exact ⟨[], (List.append_nil d).symm, List.Forall₂.nil⟩
  | cons sec c ih =>
      have hsec := h sec List.mem_cons_self
      obtain ⟨mem', params, hiff, hcontent⟩ := content_section hsec
        (hgood sec List.mem_cons_self) (hfits sec List.mem_cons_self) mem (sync c)
      have hsync : sync (sec :: c) = sec.write ++ sync c := List.flatMap_cons
      unfold names at hnames
      rw [List.map_append, List.map_cons] at hnames
      have hnot : sec.name ∉ d.names := fun hmem =>
        (List.nodup_append.mp hnames).2.2 _ hmem _ List.mem_cons_self rfl
      obtain ⟨c', hc', hback⟩ := ih (fun s hs => h s (List.mem_cons_of_mem sec hs))
        (fun s hs => hgood s (List.mem_cons_of_mem sec hs))
        (fun s hs => hfits s (List.mem_cons_of_mem sec hs))
        (fun s hs => hkeys s (List.mem_cons_of_mem sec hs))
        (d := d ++ [{ name := sec.name, params := params, items := sec.items }])
        (by
          unfold names
          rw [List.map_append, List.map_append, List.append_assoc]
          exact hnames)
        (some sec.name) mem'
      refine ⟨{ name := sec.name, params := params, items := sec.items } :: c', ?_,
        List.Forall₂.cons ⟨rfl, rfl, hiff⟩ hback⟩
      rw [hsync, ← readLines_content, hcontent, readLines_append,
        readLines_section cur hnot (hkeys sec List.mem_cons_self), readLines_content, hc',
        List.append_assoc]
      rfl

end LpFile

/-! ## Keys that are read -/

/-- A text in which spaces are the only blanks. -/
theorem tame_of_spaces {p : LpText} (h : ∀ x ∈ p, isSpace x = true → x = ' ' ∨ x = '\n') :
    Tame p := by
  intro x hx hblank
  cases hdrop : p.dropWhile (· = ' ') with
  | nil =>
      rw [hdrop] at hx
      cases hx
  | cons y rest =>
      rw [hdrop] at hx
      have hyx : y = x := Option.some.inj hx
      have hne : p.dropWhile (· = ' ') ≠ [] := by
        rw [hdrop]
        exact List.cons_ne_nil y rest
      have hnot := List.head_dropWhile_not (· = ' ') hne
      have hin : x ∈ p := by
        have hmem : x ∈ p.dropWhile (· = ' ') := by
          rw [hdrop, hyx]
          exact List.mem_cons_self
        exact (List.dropWhile_sublist _).subset hmem
      refine (h x hin hblank).resolve_left fun hspace => ?_
      simp [hdrop, hyx, hspace] at hnot

/-- A text that begins with a character which is no blank, after spaces. -/
theorem tame_of_head {s rest : LpText} (hspaces : ∀ x ∈ s, x = ' ') {x : Char}
    (hx : isSpace x = false) : Tame (s ++ x :: rest) := by
  intro y hy hblank
  have hspace : x ≠ ' ' := by
    rintro rfl
    cases hx
  rw [List.dropWhile_append_of_pos fun z hz => decide_eq_true (hspaces z hz),
    List.dropWhile_cons_of_neg (by simpa using hspace)] at hy
  cases hy
  rw [hx] at hblank
  cases hblank

/-- The pieces of a line that fits. -/
theorem tame_pieces {w : LpText} (hfeed : '\n' ∉ w) (hfits : w.length ≤ maxLen - 1)
    (htame : ∀ after, Tame (w ++ after)) :
    ∀ piece ∈ pieces (maxLen - 1) [] (w ++ ['\n']), Tame piece := by
  have hblank : Tame ['\n'] := tame_of_spaces fun x hx _ => Or.inr (List.mem_singleton.mp hx)
  intro piece hpiece
  rcases Nat.lt_or_eq_of_le hfits with hlt | hfull
  · rw [pieces_line hfeed (by rw [List.length_nil, Nat.zero_add]; exact hlt)] at hpiece
    rw [List.mem_singleton.mp hpiece]
    exact htame ['\n']
  · have hne : w ≠ [] := by
      rintro rfl
      cases hfull
    rw [pieces_full hfeed hne (by rw [List.length_nil, Nat.zero_add]; exact hfull)] at hpiece
    rcases List.mem_cons.mp hpiece with rfl | hpiece
    · have hself := htame []
      rwa [List.append_nil] at hself
    · rw [pieces, if_pos (Or.inl rfl)] at hpiece
      rw [List.mem_singleton.mp hpiece]
      exact hblank

/-- What is asked of a section for its keys to begin lines. -/
structure TameSection (sec : LpFileSection) : Prop where
  noFeed : '\n' ∉ sec.header
  header : sec.header.length ≤ maxLen - 1 ∨ ∀ x ∈ sec.header, isSpace x = true → x = ' '
  items : ∀ item ∈ sec.items, item.Meets IsComment IsEntry

theorem header_eq (sec : LpFileSection) :
    sec.header = [] ++ '[' :: (sec.name ++ sec.params.flatMap LpSectionParam.write ++ [']']) := by
  unfold LpFileSection.header
  simp

theorem FromFile.tameSection {sec : LpFileSection} (h : FromFile sec) : TameSection sec where
  noFeed := not_feed_mem_header h.name h.params
  header := by
    refine Or.inr fun x hx hblank => ?_
    unfold LpFileSection.header at hx
    simp only [List.mem_append, List.mem_cons, List.mem_flatMap] at hx
    rcases hx with ((rfl | hx) | ⟨p, hp, hx⟩) | rfl | hx
    · cases hblank
    · exact absurd hx (h.name.word.not_mem hblank)
    · rw [(h.params p hp).write_eq] at hx
      simp only [List.mem_cons, List.mem_append] at hx
      rcases hx with hx | hx | rfl | hx
      · exact hx
      · exact absurd hx ((h.params p hp).key.not_mem hblank)
      · cases hblank
      · exact absurd hx ((h.params p hp).value.not_mem hblank)
    · cases hblank
    · cases hx
  items := h.items

theorem tame_header {sec : LpFileSection} (h : TameSection sec) :
    ∀ piece ∈ pieces (maxLen - 1) [] (sec.header ++ ['\n']), Tame piece := by
  rcases h.header with hfits | hblanks
  · refine tame_pieces h.noFeed hfits fun after => ?_
    rw [header_eq, List.append_assoc]
    exact tame_of_head (fun x hx => absurd hx List.not_mem_nil) rfl
  · intro piece hpiece
    refine tame_of_spaces fun x hx hblank => ?_
    rcases mem_of_mem_pieces hpiece hx with hnil | hin
    · cases hnil
    · rcases List.mem_append.mp hin with hin | hin
      · exact Or.inl (hblanks x hin hblank)
      · exact Or.inr (List.mem_singleton.mp hin)

theorem tame_item {item : LpItem} (h : item.Meets IsComment IsEntry) :
    ∃ w, item.write = w ++ ['\n'] ∧
      ∀ piece ∈ pieces (maxLen - 1) [] (w ++ ['\n']), Tame piece := by
  cases item with
  | comment text =>
      have hcomment : IsComment text := h
      obtain ⟨spaces, rest, rfl, hspaces⟩ := exists_sharp hcomment.comment
      refine ⟨_, rfl, tame_pieces hcomment.noFeed hcomment.fits fun after => ?_⟩
      rw [List.append_assoc]
      exact tame_of_head hspaces rfl
  | entry key value =>
      have hentry : IsEntry key value := h
      obtain ⟨x, key', rfl⟩ := List.exists_cons_of_ne_nil hentry.word.ne
      refine ⟨x :: key' ++ '=' :: value, ?_, tame_pieces ?_ ?_ fun after => ?_⟩
      · rw [LpItem.write, if_pos hentry.isValue.ne]
      · intro hmem
        rcases List.mem_append.mp hmem with hmem | hmem
        · exact not_feed_mem_word hentry.word hmem
        · rcases List.mem_cons.mp hmem with hmem | hmem
          · cases hmem
          · exact hentry.isValue.noFeed hmem
      · have hsum := hentry.fits
        rw [List.length_append, List.length_cons (a := '=')]
        omega
      · exact tame_of_head (s := []) (fun y hy => absurd hy List.not_mem_nil)
          (hentry.word.noSpace x List.mem_cons_self)

/-- **The pieces of what is saved.** -/
theorem tame_sync {c : LpFile} (h : ∀ sec ∈ c, TameSection sec) :
    ∀ piece ∈ pieces (maxLen - 1) [] (LpFile.sync c), Tame piece := by
  have hitems : ∀ (items : List LpItem) (rest : LpText),
      (∀ item ∈ items, item.Meets IsComment IsEntry) →
      (∀ piece ∈ pieces (maxLen - 1) [] rest, Tame piece) →
      ∀ piece ∈ pieces (maxLen - 1) [] (items.flatMap LpItem.write ++ rest), Tame piece := by
    intro items rest hmeets hrest
    induction items with
    | nil => exact hrest
    | cons item items ih =>
        obtain ⟨w, hwrite, htame⟩ := tame_item (hmeets item List.mem_cons_self)
        have hsplit : (item :: items).flatMap LpItem.write ++ rest =
            w ++ '\n' :: (items.flatMap LpItem.write ++ rest) := by
          rw [List.flatMap_cons, hwrite]
          simp
        intro piece hpiece
        rw [hsplit, pieces_append_line] at hpiece
        rcases List.mem_append.mp hpiece with hfirst | hmore
        · exact htame piece hfirst
        · exact ih (fun item' hitem' => hmeets item' (List.mem_cons_of_mem item hitem')) piece hmore
  induction c with
  | nil =>
      intro piece hpiece
      cases hpiece
  | cons sec c ih =>
      have hsec := h sec List.mem_cons_self
      have hsplit : LpFile.sync (sec :: c) =
          sec.header ++ '\n' :: (sec.items.flatMap LpItem.write ++ ('\n' :: LpFile.sync c)) := by
        unfold LpFile.sync
        rw [List.flatMap_cons, LpFileSection.write]
        simp
      intro piece hpiece
      rw [hsplit, pieces_append_line] at hpiece
      rcases List.mem_append.mp hpiece with hfirst | hmore
      · exact tame_header hsec piece hfirst
      · refine hitems sec.items _ hsec.items (fun piece' hpiece' => ?_) piece hmore
        rw [pieces, if_pos (Or.inl rfl)] at hpiece'
        rcases List.mem_cons.mp hpiece' with rfl | hpiece'
        · exact tame_of_spaces fun x hx _ => Or.inr (List.mem_singleton.mp hx)
        · exact ih (fun s hs => h s (List.mem_cons_of_mem sec hs)) piece' hpiece'

/-- **Keys that are read of what was saved** begin with neither a bracket nor a sharp. -/
theorem goodKeys_of_sync {c : LpFile} (h : ∀ sec ∈ c, TameSection sec) :
    ∀ sec ∈ LpFile.parse [] (LpFile.sync c), sec.GoodKeys := by
  have hmeets : ∀ sec ∈ LpFile.parse [] (LpFile.sync c),
      sec.Meets (fun _ => True) (fun _ => True) (fun _ => True) (fun key _ => GoodKey key) := by
    refine parse_meets fun piece hpiece tail => ?_
    cases hfound : (scanLine (piece ++ nul :: tail)).1 with
    | header name params => exact ⟨trivial, fun _ _ => trivial⟩
    | comment text => trivial
    | pair key value =>
        exact goodKey_of_tame (tame_sync h piece hpiece)
          (oneLine_of_mem_pieces List.not_mem_nil hpiece) hfound
    | other => trivial
  intro sec hsec key value hmem
  exact (hmeets sec hsec).items _ hmem

/-! ## A file that is read, saved and read again -/

theorem readBack_eq {c c' : LpFile} (h : List.Forall₂ LpFile.ReadBack c c') :
    c' = c ↔ ∀ sec ∈ c, sec.PlainParams := by
  induction h with
  | nil => exact ⟨fun _ sec hsec => absurd hsec List.not_mem_nil, fun _ => rfl⟩
  | @cons sec sec' c c' hsec _ ih =>
      obtain ⟨hname, hitems, hparams⟩ := hsec
      have hsame : sec' = sec ↔ sec.PlainParams := by
        rw [← hparams]
        constructor
        · exact fun heq => heq ▸ rfl
        · intro heq
          cases sec
          cases sec'
          cases hname
          cases hitems
          cases heq
          rfl
      rw [List.cons.injEq, hsame, ih, List.forall_mem_cons]

end Linphone
