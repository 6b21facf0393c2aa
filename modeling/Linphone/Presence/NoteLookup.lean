import Linphone.Presence.NoteLists

/-!
# Finding a note

`linphone_presence_model_get_note` searches three times: for the language, for a note without
language, and for any note. Each search runs over all persons and then over all services, and each
of them overwrites what the one before it has found. So a search is right if a note that can be
found is on the last person, or the last service.

`notes_kept` puts it together with the lists: in every run that meets the condition of `NotesMeet`,
the lists hold what was added to them, and the searches that meet theirs find what they should.
-/

namespace Linphone

namespace NotesWorld

variable {w w' : NotesWorld} {b : NoteBook} {m s p n : Nat} {lang : Option String}

/-! ## What should be found -/

/-- The notes of a field. -/
def notesOf (w : NotesWorld) (f : NoteList) : List Nat := (w.listed f).getD []

/-- The notes of the persons of a model, person by person, the activities notes first. -/
def personGroups (w : NotesWorld) (m : Nat) : List (List Nat) :=
  (w.persons m).map fun p => w.notesOf (.personActivities p) ++ w.notesOf (.person p)

def serviceGroups (w : NotesWorld) (m : Nat) : List (List Nat) :=
  (w.services m).map fun s => w.notesOf (.service s)

/-- The notes of the persons, those of the services and those of the model itself. -/
def tiers (w : NotesWorld) (m : Nat) : List (List Nat) :=
  [(w.personGroups m).flatten, (w.serviceGroups m).flatten, w.notesOf (.model m)]

def inLang (w : NotesWorld) (lang : Option String) (n : Nat) : Bool := w.langOf n = lang

/-- A note with the property, from the first tier that has one. -/
def Picked (q : Nat → Bool) : List (List Nat) → Option Nat → Prop
  | [], r => r = none
  | notes :: rest, r => if notes.any q then ∃ n ∈ notes, q n ∧ r = some n else Picked q rest r

/-- What `linphone_presence_model_get_note` should return. -/
def Answers (w : NotesWorld) (m : Nat) (lang : Option String) (r : Option Nat) : Prop :=
  if lang.isSome ∧ (w.tiers m).flatten.any (w.inLang lang) then
    Picked (w.inLang lang) (w.tiers m) r
  else if (w.tiers m).flatten.any (w.inLang none) then Picked (w.inLang none) (w.tiers m) r
  else r = (w.tiers m).flatten.head?

/-- If any of the groups holds such a note, the last one does. -/
def LastHolds (q : Nat → Bool) (groups : List (List Nat)) : Prop :=
  groups.flatten.any q → ∃ notes ∈ groups.getLast?, notes.any q

/-- The services matter only if no person holds such a note. -/
def SearchMeets (q : Nat → Bool) (persons services : List (List Nat)) : Prop :=
  LastHolds q persons ∧ (persons.flatten.any q = false → LastHolds q services)

/-- No group but the last one holds anything. -/
def LastOnly (groups : List (List Nat)) : Prop := ∀ notes ∈ groups.dropLast, notes = []

/-- **What the search can do**: in the turn that finds a note, the last person holds one if any
person does, and else the last service if any service does. In the last turn the other ones are
empty. -/
def LookupMeets (w : NotesWorld) (m : Nat) (lang : Option String) : Prop :=
  if lang.isSome ∧ (w.tiers m).flatten.any (w.inLang lang) then
    SearchMeets (w.inLang lang) (w.personGroups m) (w.serviceGroups m)
  else if (w.tiers m).flatten.any (w.inLang none) then
    SearchMeets (w.inLang none) (w.personGroups m) (w.serviceGroups m)
  else LastOnly (w.personGroups m) ∧
    ((w.personGroups m).flatten = [] → LastOnly (w.serviceGroups m))

/-! ## One search -/

/-- What is left after every group has overwritten the one before it. -/
def lastFind (q : Nat → Bool) (groups : List (List Nat)) : Option Nat :=
  groups.getLast?.bind (List.find? q)

/-- What one search over the persons, the services and the model finds. -/
def pick (w : NotesWorld) (m : Nat) (q : Nat → Bool) : Option Nat :=
  (lastFind q (w.personGroups m)).or
    ((lastFind q (w.serviceGroups m)).or ((w.notesOf (.model m)).find? q))

theorem foldlM_overwrite {α : Type} (g : α → Option Nat) (l : List α) : ∀ note : Option Nat,
    l.foldlM (fun _ a => some (g a)) note = some ((l.getLast?.map g).getD note) := by
  induction l with
  | nil => exact fun _ => rfl
  | cons a l ih =>
      intro note
      rw [List.foldlM_cons]
      change l.foldlM (fun _ a => some (g a)) (g a) = _
      rw [ih]
      cases l with
      | nil => rfl
      | cons a' l => rw [List.getLast?_cons_cons, List.getLast?_cons]; rfl

theorem orElse_some (note note' : Option Nat) :
    orElse (some note) (some note') = some (note.or note') := by
  cases note <;> rfl

theorem modelNote_eq {look : Option Nat → Option (Option Nat)} {q : Nat → Bool}
    (hlook : ∀ f, look (w.head f) = some ((w.notesOf f).find? q)) (m : Nat) :
    w.modelNote look m = some (w.pick m q) := by
  have hperson : (fun (_ : Option Nat) p => w.personNote look p) = fun _ p =>
      some ((w.notesOf (.personActivities p) ++ w.notesOf (.person p)).find? q) := by
    funext _ p
    rw [personNote, hlook, hlook, orElse_some, List.find?_append]
  have hservice : (fun (_ : Option Nat) s => w.serviceNote look s) = fun _ s =>
      some ((w.notesOf (.service s)).find? q) := by
    funext _ s
    rw [serviceNote, hlook]
  have hlast : ∀ (l : List Nat) (g : Nat → List Nat),
      ((l.getLast?.map fun a => (g a).find? q).getD none) = lastFind q (l.map g) := by
    intro l g
    rw [lastFind, List.getLast?_map]
    cases l.getLast? <;> rfl
  rw [modelNote, hperson, hservice, foldlM_overwrite, foldlM_overwrite, hlook, hlast, hlast,
    orElse_some, orElse_some]
  rfl

theorem lastFind_none {q : Nat → Bool} {groups : List (List Nat)}
    (h : groups.flatten.any q = false) : lastFind q groups = none := by
  rw [lastFind]
  cases hlast : groups.getLast? with
  | none => rfl
  | some notes =>
      have hmem : notes ∈ groups := List.mem_of_getLast? hlast
      refine List.find?_eq_none.mpr fun n hn => ?_
      exact List.any_eq_false.mp h n (List.mem_flatten.mpr ⟨notes, hmem, hn⟩)

theorem lastFind_some {q : Nat → Bool} {groups : List (List Nat)} (h : LastHolds q groups)
    (hany : groups.flatten.any q = true) :
    ∃ n ∈ groups.flatten, q n = true ∧ lastFind q groups = some n := by
  obtain ⟨notes, hlast, hnotes⟩ := h hany
  rw [lastFind, Option.mem_def.mp hlast]
  cases hfind : notes.find? q with
  | none =>
      obtain ⟨n, hn, hq⟩ := List.any_eq_true.mp hnotes
      exact absurd hq (List.find?_eq_none.mp hfind n hn)
  | some n =>
      refine ⟨n, List.mem_flatten.mpr ⟨notes, List.mem_of_getLast? hlast, ?_⟩, ?_, hfind⟩
      · exact List.mem_of_find?_eq_some hfind
      · exact List.find?_some hfind

theorem tiers_any (w : NotesWorld) (m : Nat) (q : Nat → Bool) : (w.tiers m).flatten.any q =
    ((w.personGroups m).flatten.any q ||
      ((w.serviceGroups m).flatten.any q || (w.notesOf (.model m)).any q)) := by
  simp only [tiers, List.flatten_cons, List.flatten_nil, List.any_append, List.any_nil,
    Bool.or_false]

theorem pick_none {q : Nat → Bool} (h : (w.tiers m).flatten.any q = false) :
    w.pick m q = none := by
  rw [tiers_any, Bool.or_eq_false_iff, Bool.or_eq_false_iff] at h
  rw [pick, lastFind_none h.1, lastFind_none h.2.1, List.find?_eq_none.mpr]
  · rfl
  · exact List.any_eq_false.mp h.2.2

theorem pick_picked {q : Nat → Bool}
    (h : SearchMeets q (w.personGroups m) (w.serviceGroups m)) :
    Picked q (w.tiers m) (w.pick m q) := by
  rw [tiers, Picked, pick]
  by_cases hpersons : (w.personGroups m).flatten.any q = true
  · rw [if_pos hpersons]
    obtain ⟨n, hn, hq, hlast⟩ := lastFind_some h.1 hpersons
    exact ⟨n, hn, hq, by rw [hlast]; rfl⟩
  · rw [if_neg hpersons]
    rw [Bool.not_eq_true] at hpersons
    rw [lastFind_none hpersons, Option.none_or, Picked]
    by_cases hservices : (w.serviceGroups m).flatten.any q = true
    · rw [if_pos hservices]
      obtain ⟨n, hn, hq, hlast⟩ := lastFind_some (h.2 hpersons) hservices
      exact ⟨n, hn, hq, by rw [hlast]; rfl⟩
    · rw [if_neg hservices]
      rw [Bool.not_eq_true] at hservices
      rw [lastFind_none hservices, Option.none_or, Picked]
      by_cases hmodel : (w.notesOf (.model m)).any q = true
      · rw [if_pos hmodel]
        cases hfind : (w.notesOf (.model m)).find? q with
        | none =>
            obtain ⟨n, hn, hq⟩ := List.any_eq_true.mp hmodel
            exact absurd hq (List.find?_eq_none.mp hfind n hn)
        | some n => exact ⟨n, List.mem_of_find?_eq_some hfind, List.find?_some hfind, rfl⟩
      · rw [if_neg hmodel, Picked, List.find?_eq_none]
        rw [Bool.not_eq_true] at hmodel
        exact List.any_eq_false.mp hmodel

/-- If there is such a note, it is one of the tiers. -/
theorem Picked.some_of_any {q : Nat → Bool} {r : Option Nat} {l : List (List Nat)}
    (h : Picked q l r) (hany : l.flatten.any q = true) : ∃ n, q n = true ∧ r = some n := by
  induction l with
  | nil => simp at hany
  | cons notes rest ih =>
      rw [Picked] at h
      by_cases hnotes : notes.any q = true
      · rw [if_pos hnotes] at h
        obtain ⟨n, -, hq, hr⟩ := h
        exact ⟨n, hq, hr⟩
      · rw [if_neg hnotes] at h
        refine ih h ?_
        rw [List.flatten_cons, List.any_append, Bool.or_eq_true] at hany
        exact hany.resolve_left hnotes

theorem lastFind_first {groups : List (List Nat)} (h : LastOnly groups) :
    lastFind (fun _ => true) groups = groups.flatten.head? := by
  rcases List.eq_nil_or_concat groups with hnil | ⟨before, notes, hgroups⟩
  · rw [hnil]
    rfl
  · rw [List.concat_eq_append] at hgroups
    subst hgroups
    rw [LastOnly, List.dropLast_concat] at h
    have hempty : before.flatten = [] := List.flatten_eq_nil_iff.mpr h
    rw [lastFind, List.getLast?_concat, List.flatten_append, hempty, List.nil_append,
      List.flatten_singleton]
    cases notes <;> rfl

theorem pick_first (hpersons : LastOnly (w.personGroups m))
    (hservices : (w.personGroups m).flatten = [] → LastOnly (w.serviceGroups m)) :
    w.pick m (fun _ => true) = (w.tiers m).flatten.head? := by
  have hhead : ∀ l : List Nat, l.find? (fun _ => true) = l.head? := by
    intro l
    cases l <;> rfl
  rw [pick, lastFind_first hpersons, hhead, tiers, List.flatten_cons, List.head?_append]
  by_cases hempty : (w.personGroups m).flatten = []
  · rw [lastFind_first (hservices hempty), List.flatten_cons, List.head?_append,
      List.flatten_singleton]
  · obtain ⟨n, rest, hcons⟩ := List.exists_cons_of_ne_nil hempty
    rw [hcons]
    rfl

/-! ## The three searches -/

theorem Sound.notesOf_eq (h : Sound w b) (f : NoteList) : w.notesOf f = noted b f := by
  rw [notesOf, h.listed]
  rfl

theorem Sound.getNote_eq (h : Sound w b) (m : Nat) (lang : Option String) :
    w.linphonePresenceModelGetNote (some m) lang =
      some ((if lang.isSome then w.pick m (w.inLang lang) else none).or
        ((w.pick m (w.inLang none)).or (w.pick m fun _ => true))) := by
  have hfind : ∀ lang, w.modelNote (w.findPresenceNoteInList lang) m =
      some (w.pick m (w.inLang lang)) := by
    intro lang
    refine modelNote_eq (fun f => ?_) m
    rw [h.find_eq, h.notesOf_eq]
    rfl
  have hfirst : w.modelNote w.getFirstPresenceNoteInList m = some (w.pick m fun _ => true) := by
    refine modelNote_eq (fun f => ?_) m
    rw [h.getFirst_eq, h.notesOf_eq]
  rw [linphonePresenceModelGetNote, hfind, hfind, hfirst, orElse_some]
  cases lang with
  | none => rfl
  | some l => exact orElse_some _ _

theorem Sound.getNote (h : Sound w b) (hmeets : w.LookupMeets m lang) :
    Returns (w.linphonePresenceModelGetNote (some m) lang) (w.Answers m lang) := by
  refine ⟨_, h.getNote_eq m lang, ?_⟩
  rw [LookupMeets] at hmeets
  rw [Answers]
  by_cases hlang : lang.isSome ∧ (w.tiers m).flatten.any (w.inLang lang) = true
  · rw [if_pos hlang] at hmeets ⊢
    have hpicked := pick_picked hmeets
    obtain ⟨n, -, hn⟩ := hpicked.some_of_any hlang.2
    rw [if_pos hlang.1, hn, Option.some_or, ← hn]
    exact hpicked
  · have hnone : (if lang.isSome then w.pick m (w.inLang lang) else none) = none := by
      by_cases hsome : lang.isSome
      · rw [if_pos hsome]
        refine pick_none ?_
        rw [← Bool.not_eq_true]
        exact fun hany => hlang ⟨hsome, hany⟩
      · rw [if_neg hsome]
    rw [if_neg hlang] at hmeets ⊢
    rw [hnone, Option.none_or]
    by_cases hplain : (w.tiers m).flatten.any (w.inLang none) = true
    · rw [if_pos hplain] at hmeets ⊢
      have hpicked := pick_picked hmeets
      obtain ⟨n, -, hn⟩ := hpicked.some_of_any hplain
      rw [hn, Option.some_or, ← hn]
      exact hpicked
    · rw [if_neg hplain] at hmeets ⊢
      rw [Bool.not_eq_true] at hplain
      rw [pick_none hplain, Option.none_or]
      exact pick_first hmeets.1 hmeets.2

theorem Answers.inLang {r : Option Nat} (h : w.Answers m lang r)
    (hany : (w.tiers m).flatten.any (w.inLang lang) = true) :
    ∃ n, r = some n ∧ w.langOf n = lang := by
  have hpicked : Picked (w.inLang lang) (w.tiers m) r := by
    rw [Answers] at h
    cases lang with
    | none => rwa [if_neg (by simp), if_pos hany] at h
    | some l => rwa [if_pos ⟨rfl, hany⟩] at h
  obtain ⟨n, hq, hr⟩ := hpicked.some_of_any hany
  exact ⟨n, hr, by simpa [NotesWorld.inLang] using hq⟩

/-! ## Runs -/

theorem Sound.start : Sound {} {} where
  separated := ⟨fun _ _ _ h => (by cases h), fun _ _ h => (by cases h)⟩
  listed _ := rfl
  unused _ _ := rfl
  langs _ _ he := by cases he
  first _ := List.Pairwise.nil
  backed fs a := by simp [Shares.places, noted, refs]

theorem sound_of_run (run : NotesRun NotesMeet w b) : Sound w b := by
  induction run with
  | start => exact Sound.start
  | step op _ valid meets taken ih => exact (ih.step valid meets).of_eq taken

theorem Sound.others (h : Sound w b) {op : NoteOp} (h' : Sound w' (b.record w op)) {f : NoteList}
    (hf : f ∉ op.about w) : w'.listed f = w.listed f := by
  have hheld : (b.record w op).held f = b.held f := if_neg hf
  rw [h'.listed, h.listed, noted, noted, hheld]

theorem appendNote_services {f : NoteList} (h : w.appendNote f n = some w') :
    w'.services = w.services := by
  cases hf : w.head f with
  | none =>
      rw [appendNote, hf] at h
      cases h
      rfl
  | some c =>
      simp only [appendNote, hf, msListAppend, Option.bind_eq_bind, Option.bind_eq_some_iff] at h
      obtain ⟨_, ⟨l, -, ⟨⟩⟩, ⟨⟩⟩ := h
      rfl

theorem modelAddNote_services {content : String} {result : NotesWorld × Int} {rest : List Nat}
    (hservices : w.services m = s :: rest)
    (h : w.linphonePresenceModelAddNote (some m) (some content) lang = some result) :
    result.1.services = w.services := by
  simp only [linphonePresenceModelAddNote, hservices, Option.bind_eq_bind,
    Option.bind_eq_some_iff] at h
  obtain ⟨found, -, h⟩ := h
  cases found with
  | none =>
      simp only [Option.bind_eq_some_iff] at h
      obtain ⟨w₁, happend, ⟨⟩⟩ := h
      have hsame := appendNote_services happend
      exact hsame
  | some note =>
      simp only [Option.bind_eq_some_iff, noteSetContent, Option.bind_eq_bind] at h
      obtain ⟨_, ⟨_, -, ⟨⟩⟩, w₁, happend, ⟨⟩⟩ := h
      have hsame := appendNote_services happend
      exact hsame

/-- A note added through the model is on its first service. -/
theorem Sound.added (h : Sound w b) {content : String}
    (hmeets : NotesMeet w (.modelAddNote (some m) (some content) lang))
    (h' : Sound w' (b.record w (.modelAddNote (some m) (some content) lang)))
    (hsame : w'.services = w.services) : (w'.tiers m).flatten.any (w'.inLang lang) = true := by
  obtain ⟨s, rest, hservices, hlang⟩ := hmeets
  have hheld : (b.record w (.modelAddNote (some m) (some content) lang)).held (.service s) =
      b.held (.service s) ++ [{ note := w.nextNote, lang, viaModel := true }] := by
    rw [record_one (f := .service s) (by rw [NoteOp.about, hservices]; rfl) rfl]
    dsimp only
    rw [Function.update_self, NoteOp.onto, if_neg]
    rintro ⟨e, he, helang⟩
    refine hlang _ (h.listed _) e.note (List.mem_map_of_mem he) ?_
    rw [h.langOf he, helang]
  have hmem : ({ note := w.nextNote, lang, viaModel := true } : NoteEntry) ∈
      (b.record w (.modelAddNote (some m) (some content) lang)).held (.service s) := by
    rw [hheld]
    exact List.mem_append_right _ List.mem_cons_self
  have hn : w'.inLang lang w.nextNote = true := by
    rw [NotesWorld.inLang, decide_eq_true_iff]
    exact h'.langOf hmem
  have hgroup : (w'.serviceGroups m).flatten.any (w'.inLang lang) = true := by
    refine List.any_eq_true.mpr
      ⟨w.nextNote, List.mem_flatten.mpr ⟨w'.notesOf (.service s), ?_, ?_⟩, hn⟩
    · exact List.mem_map.mpr ⟨s, by rw [hsame, hservices]; exact List.mem_cons_self, rfl⟩
    · rw [h'.notesOf_eq]
      exact List.mem_map_of_mem (f := NoteEntry.note) hmem
  rw [tiers_any, hgroup, Bool.true_or, Bool.or_true]

/-! ## What is left out -/

/-- A note in a language that is there is in the list once more, with no more references. -/
theorem Sound.modelAdd_again {rest : List Nat} {content : String} (h : Sound w b)
    (hservices : w.services m = s :: rest)
    (hfound : (noted b (.service s)).find? (fun n => w.langOf n = lang) = some n) :
    Returns (w.linphonePresenceModelAddNote (some m) (some content) lang) fun r =>
      r.1.listed (.service s) = some (noted b (.service s) ++ [n]) ∧ r.1.refs n = w.refs n := by
  obtain ⟨note, hn⟩ := Option.isSome_iff_exists.mp
    (h.notes_live (.service s) n (List.mem_of_find?_eq_some hfound))
  have hcounts := @counts_update w n note (some { note with content }) 0 hn
    (by rintro _ ⟨⟩; exact ⟨rfl, (Int.add_zero _).symm⟩) (fun hnone => by cases hnone)
  have hkept := h.toKept.count b.own hcounts
  obtain ⟨w', hw', hrelists⟩ :=
    appendNote_returns (n := n) hkept.separated (hkept.listed (.service s))
  refine ⟨(w', 0), ?_, ?_, ?_⟩
  · simp only [linphonePresenceModelAddNote, hservices, h.find_eq, hfound, noteSetContent, hn,
      Option.bind_eq_bind, Option.bind_some, presenceServiceAddNote]
    exact congrArg (fun x => x.bind fun w => some (w, (0 : Int))) hw'
  · dsimp only
    rw [hrelists.listed, Function.update_self]
  · have hrefs := hcounts.refs n
    rw [if_pos rfl, Int.add_zero] at hrefs
    rw [← hrefs, hrelists.rest]
    rfl

/-- Without a service the note goes to a service that the model does not have. -/
theorem Sound.modelAdd_lost {content : String} (h : Sound w b) (hservices : w.services m = [])
    (hnew : b.held (.service w.nextService) = []) :
    Returns (w.linphonePresenceModelAddNote (some m) (some content) lang) fun r =>
      r.1.services m = [] ∧ ∀ f, f ≠ .service w.nextService → r.1.listed f = w.listed f := by
  have hempty : noted b (.service w.nextService) = [] := by rw [noted, hnew]; rfl
  have hread : w.elems (w.head (.service w.nextService)) = some [] := by
    rw [← hempty]
    exact h.listed _
  obtain ⟨w', hw', hrelists⟩ := appendNote_returns (f := .service w.nextService) (n := w.nextNote)
    (w := { (w.noteNew content lang).1 with nextService := w.nextService + 1 }) (l := [])
    ⟨h.separated.apart, h.separated.old⟩ hread
  refine ⟨(w', 0), ?_, ?_, fun f hf => ?_⟩
  · simp only [linphonePresenceModelAddNote, hservices, findPresenceNoteInList, Option.bind_eq_bind]
    change Option.bind (Option.bind (w.elems _) _) _ = _
    rw [hread]
    exact congrArg (fun x => x.bind fun w => some (w, (0 : Int))) hw'
  · dsimp only
    rw [hrelists.rest]
    exact hservices
  · dsimp only
    rw [hrelists.listed, Function.update_of_ne hf]
    rfl

/-- As an activities note, a note goes to the list that `activities_notes` had, and `notes` becomes
this list: `activities_notes` itself stays as it was. -/
theorem activitiesNote_shared {result : NotesWorld × Int}
    (h : w.linphonePresencePersonAddActivitiesNote (some p) (some n) = some result) :
    result.1.head (.personActivities p) = w.head (.personActivities p) ∧
      ∀ c, w.head (.personActivities p) = some c → result.1.head (.person p) = some c := by
  simp only [linphonePresencePersonAddActivitiesNote, noteRef, Option.bind_eq_bind,
    Option.bind_eq_some_iff] at h
  obtain ⟨w₁, ⟨note, -, ⟨⟩⟩, ⟨w₂, list⟩, happend, ⟨⟩⟩ := h
  have hhead : w₂.head = w.head ∧ ∀ c, w.head (.personActivities p) = some c → list = some c := by
    cases hp : w.head (.personActivities p) with
    | none =>
        simp only [hp, msListAppend] at happend
        cases happend
        exact ⟨rfl, fun _ hc => by cases hc⟩
    | some c =>
        simp only [hp, msListAppend, Option.bind_eq_bind, Option.bind_eq_some_iff] at happend
        obtain ⟨l, -, ⟨⟩⟩ := happend
        exact ⟨rfl, fun _ hc => hc⟩
  constructor
  · simp [setHead, hhead.1]
  · intro c hc
    simp [setHead, hhead.2 c hc]

/-- What the last group does not hold is not found, whatever the other ones hold. -/
theorem lastFind_missed {q : Nat → Bool} {before : List (List Nat)} {last : List Nat}
    (h : last.any q = false) : lastFind q (before ++ [last]) = none := by
  rw [lastFind, List.getLast?_concat]
  exact List.find?_eq_none.mpr (List.any_eq_false.mp h)

end NotesWorld

/-- **In a run that meets the condition each list holds the notes added since it was last cleared,
no note is in more places than it has references, an operation touches no other list, and a search
that meets its condition finds what it should.** -/
theorem notes_kept {w : NotesWorld} {b : NoteBook} (run : NotesRun NotesMeet w b) :
    (∀ f, w.listed f = some ((b.held f).map NoteEntry.note)) ∧
    (∀ s, (b.held (.service s)).Pairwise fun a e =>
      e.viaModel = true → w.langOf a.note ≠ w.langOf e.note) ∧
    (∀ (fs : Finset NoteList) (n : Nat), (Shares.places w.notesOf fs n : Int) ≤ w.refs n) ∧
    (∀ op : NoteOp, op.Valid w b → NotesMeet w op →
      ∃ w', w.step op = some w' ∧ ∀ f ∉ op.about w, w'.listed f = w.listed f) ∧
    (∀ m lang, w.LookupMeets m lang →
      ∃ r, w.linphonePresenceModelGetNote (some m) lang = some r ∧ w.Answers m lang r) ∧
    ∀ m content lang w', NotesMeet w (.modelAddNote (some m) (some content) lang) →
      w.step (.modelAddNote (some m) (some content) lang) = some w' → w'.LookupMeets m lang →
      ∃ n, w'.linphonePresenceModelGetNote (some m) lang = some (some n) ∧ w'.langOf n = lang := by
  have h := NotesWorld.sound_of_run run
  refine ⟨h.listed, fun s => ?_, fun fs n => ?_, fun op hvalid hmeets => ?_,
    fun m lang hmeets => h.getNote hmeets, ?_⟩
  · refine (h.first (.service s)).imp_of_mem fun {a e} ha he hfirst hvia => ?_
    rw [h.langOf ha, h.langOf he]
    exact hfirst hvia
  · rw [funext h.notesOf_eq]
    exact h.backed.places_le fs n
  · obtain ⟨w', htaken, h'⟩ := h.step hvalid hmeets
    exact ⟨w', htaken, fun f hf => h.others h' hf⟩
  · intro m content lang w' hmeets htaken hlookup
    have hvalid : NoteOp.Valid w b (.modelAddNote (some m) (some content) lang) := trivial
    have h' := (h.step hvalid hmeets).of_eq htaken
    obtain ⟨r, hr, hanswers⟩ := h'.getNote hlookup
    have hsame : w'.services = w.services := by
      obtain ⟨s, rest, hservices, -⟩ := hmeets
      obtain ⟨result, hresult, hfst⟩ := Option.map_eq_some_iff.mp htaken
      rw [← hfst]
      exact NotesWorld.modelAddNote_services hservices hresult
    obtain ⟨n, rfl, hn⟩ := hanswers.inLang (h.added hmeets h' hsame)
    exact ⟨n, hr, hn⟩

/-- A note without language is added to a model with one service, and found there. -/
theorem note_kept_once : ∃ w b, NotesRun NotesMeet w b ∧ w.listed (.service 0) = some [0] ∧
    (Shares.places w.notesOf {.service 0} 0 : Int) ≤ w.refs 0 ∧
    ∃ r, w.linphonePresenceModelGetNote (some 0) (some "fr") = some r ∧
      w.Answers 0 (some "fr") r := by
  have created : NotesRun NotesMeet _ _ :=
    .step .serviceNew .start trivial trivial rfl
  have attached : NotesRun NotesMeet _ _ :=
    .step (.modelAddService 0 0) created Nat.zero_lt_one trivial rfl
  have added : NotesRun NotesMeet _ _ :=
    .step (.modelAddNote (some 0) (some "here") none) attached trivial
      ⟨0, [], rfl, by simp [NotesWorld.listed, NotesWorld.elems]⟩ rfl
  have hkept := notes_kept added
  have hlisted := hkept.1 (.service 0)
  have hplaces := hkept.2.2.1 {.service 0} 0
  have hfound := hkept.2.2.2.2.1 0 (some "fr")
  refine ⟨_, _, added, hlisted, hplaces, hfound ?_⟩
  rw [NotesWorld.LookupMeets, if_neg (by decide), if_pos (by decide)]
  exact ⟨fun hany => absurd hany (by decide), fun _ _ => ⟨[0], rfl, by decide⟩⟩

/-- The second note in a language is appended once more, without a reference. -/
theorem note_twice : ¬ ∀ w b, NotesRun (fun _ _ => True) w b →
    ∀ f, w.listed f = some ((b.held f).map NoteEntry.note) := by
  intro h
  have created : NotesRun (fun _ _ => True) _ _ :=
    .step .serviceNew .start trivial trivial rfl
  have attached : NotesRun (fun _ _ => True) _ _ :=
    .step (.modelAddService 0 0) created Nat.zero_lt_one trivial rfl
  have added : NotesRun (fun _ _ => True) _ _ :=
    .step (.modelAddNote (some 0) (some "here") none) attached trivial trivial rfl
  have again : NotesRun (fun _ _ => True) _ _ :=
    .step (.modelAddNote (some 0) (some "there") none) added trivial trivial rfl
  exact absurd (h _ _ again (.service 0)) (by decide)

end Linphone
