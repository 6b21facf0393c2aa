import Linphone.Lib.Returns
import Linphone.Lib.Shares

/-!
# Notes of a presence model

Four structure fields of `coreapi/presence.c` are lists of notes: `notes` of a service, of a person
and of a model, and `activities_notes` of a person. A note counts its references and is freed with
the last one.

**Memory.** Notes and lists have addresses. A list is known by its first node, so that two fields
may hold the same list. A function that touches a note or a list that was freed returns nothing.

**Book.** Next to the memory a book is kept of what has been added to each list since it was last
cleared, and of the references the application holds.
-/

namespace Linphone

/-- The fields that hold a list of notes. -/
inductive NoteList
  | service (s : Nat)
  | personActivities (p : Nat)
  | person (p : Nat)
  | model (m : Nat)
deriving DecidableEq

/-- `struct _LinphonePresenceNote` -/
structure CountedNote where
  refcnt : Int
  lang : Option String
  content : String

/-- The memory, with the services and persons of each model. Addresses are used once, so the fields
of a new service, person or model are NULL. -/
structure NotesWorld where
  notes : Nat → Option CountedNote := fun _ => none
  chains : Nat → Option (List Nat) := fun _ => none
  head : NoteList → Option Nat := fun _ => none
  services : Nat → List Nat := fun _ => []
  persons : Nat → List Nat := fun _ => []
  nextNote : Nat := 0
  nextChain : Nat := 0
  nextService : Nat := 0

namespace NotesWorld

/-! ## Lists -/

/-- The elements of a list, `none` being the empty one. -/
def elems (w : NotesWorld) (list : Option Nat) : Option (List Nat) :=
  match list with
  | none => some []
  | some c => w.chains c

/-- `ms_list_append`: the list, which is a new one if there was none. -/
def msListAppend (w : NotesWorld) (list : Option Nat) (n : Nat) :
    Option (NotesWorld × Option Nat) :=
  match list with
  | none =>
      some ({ w with
        chains := Function.update w.chains w.nextChain (some [n])
        nextChain := w.nextChain + 1 }, some w.nextChain)
  | some c => do
      let l ← w.chains c
      return ({ w with chains := Function.update w.chains c (some (l ++ [n])) }, some c)

/-- `ms_list_free` -/
def msListFree (w : NotesWorld) (list : Option Nat) : NotesWorld :=
  match list with
  | none => w
  | some c => { w with chains := Function.update w.chains c none }

/-- The assignment of a list to a field. -/
def setHead (w : NotesWorld) (f : NoteList) (list : Option Nat) : NotesWorld :=
  { w with head := Function.update w.head f list }

/-! ## Notes -/

/-- `linphone_presence_note_new` -/
def noteNew (w : NotesWorld) (content : String) (lang : Option String) : NotesWorld × Nat :=
  ({ w with
    notes := Function.update w.notes w.nextNote (some { refcnt := 1, lang, content })
    nextNote := w.nextNote + 1 }, w.nextNote)

/-- `linphone_presence_note_ref` -/
def noteRef (w : NotesWorld) (n : Nat) : Option NotesWorld := do
  let note ← w.notes n
  let counted := { note with refcnt := note.refcnt + 1 }
  return { w with notes := Function.update w.notes n (some counted) }

/-- `linphone_presence_note_unref` -/
def noteUnref (w : NotesWorld) (n : Nat) : Option NotesWorld := do
  let note ← w.notes n
  let left := if note.refcnt - 1 = 0 then none else some { note with refcnt := note.refcnt - 1 }
  return { w with notes := Function.update w.notes n left }

/-- `linphone_presence_note_set_content` -/
def noteSetContent (w : NotesWorld) (n : Nat) (content : String) : Option NotesWorld := do
  let note ← w.notes n
  return { w with notes := Function.update w.notes n (some { note with content }) }

/-! ## Adding -/

/-- The assignment of a field and of the field with a note appended. -/
def appendNote (w : NotesWorld) (f : NoteList) (n : Nat) : Option NotesWorld := do
  let (w, list) ← w.msListAppend (w.head f) n
  return w.setHead f list

/-- `presence_service_add_note` -/
def presenceServiceAddNote (w : NotesWorld) (s n : Nat) : Option NotesWorld :=
  w.appendNote (.service s) n

/-- `presence_person_add_activities_note` -/
def presencePersonAddActivitiesNote (w : NotesWorld) (p n : Nat) : Option NotesWorld :=
  w.appendNote (.personActivities p) n

/-- `presence_person_add_note` -/
def presencePersonAddNote (w : NotesWorld) (p n : Nat) : Option NotesWorld :=
  w.appendNote (.person p) n

/-- `presence_model_add_note` -/
def presenceModelAddNote (w : NotesWorld) (m n : Nat) : Option NotesWorld :=
  w.appendNote (.model m) n

/-- One note element of a received document: a new note, whose reference goes to the list. -/
def processPidfNote (w : NotesWorld) (f : NoteList) (content : String) (lang : Option String) :
    Option NotesWorld :=
  let (w, n) := w.noteNew content lang
  match f with
  | .service s => w.presenceServiceAddNote s n
  | .personActivities p => w.presencePersonAddActivitiesNote p n
  | .person p => w.presencePersonAddNote p n
  | .model m => w.presenceModelAddNote m n

/-- `linphone_presence_service_add_note` -/
def linphonePresenceServiceAddNote (w : NotesWorld) (service note : Option Nat) :
    Option (NotesWorld × Int) :=
  match service, note with
  | some s, some n => do
      let w ← w.noteRef n
      let w ← w.appendNote (.service s) n
      return (w, 0)
  | _, _ => some (w, -1)

/-- `linphone_presence_person_add_note` -/
def linphonePresencePersonAddNote (w : NotesWorld) (person note : Option Nat) :
    Option (NotesWorld × Int) :=
  match person, note with
  | some p, some n => do
      let w ← w.noteRef n
      let w ← w.appendNote (.person p) n
      return (w, 0)
  | _, _ => some (w, -1)

/-- `linphone_presence_person_add_activities_note`. It appends to `activities_notes` and assigns
the list to `notes`. -/
def linphonePresencePersonAddActivitiesNote (w : NotesWorld) (person note : Option Nat) :
    Option (NotesWorld × Int) :=
  match person, note with
  | some p, some n => do
      let w ← w.noteRef n
      let (w, list) ← w.msListAppend (w.head (.personActivities p)) n
      return (w.setHead (.person p) list, 0)
  | _, _ => some (w, -1)

/-! ## Looking for a note -/

/-- The loop of `find_presence_note_in_list`. -/
def findNoteLoop (w : NotesWorld) (lang : Option String) : List Nat → Option (Option Nat)
  | [] => some none
  | n :: rest => do
      let note ← w.notes n
      match lang, note.lang with
      | none, none => some (some n)
      | none, some _ => w.findNoteLoop none rest
      | some l, none => w.findNoteLoop (some l) rest
      | some l, some noteLang =>
          if l = noteLang then some (some n) else w.findNoteLoop (some l) rest

/-- `find_presence_note_in_list` -/
def findPresenceNoteInList (w : NotesWorld) (lang : Option String) (list : Option Nat) :
    Option (Option Nat) := do
  let notes ← w.elems list
  w.findNoteLoop lang notes

/-- `get_first_presence_note_in_list` -/
def getFirstPresenceNoteInList (w : NotesWorld) (list : Option Nat) : Option (Option Nat) := do
  let notes ← w.elems list
  return notes.head?

/-- `linphone_presence_model_add_note`. A service made for the note is not added to the model, and
a note found in the language is appended once more. -/
def linphonePresenceModelAddNote (w : NotesWorld) (model : Option Nat)
    (noteContent lang : Option String) : Option (NotesWorld × Int) :=
  match model, noteContent with
  | some m, some content => do
      let (w, service) :=
        match w.services m with
        | s :: _ => (w, s)
        | [] => ({ w with nextService := w.nextService + 1 }, w.nextService)
      let found ← w.findPresenceNoteInList lang (w.head (.service service))
      match found with
      | none =>
          let (w, note) := w.noteNew content lang
          let w ← w.presenceServiceAddNote service note
          return (w, 0)
      | some note =>
          let w ← w.noteSetContent note content
          let w ← w.presenceServiceAddNote service note
          return (w, 0)
  | _, _ => some (w, -1)

/-- What two lookups give one after the other, the second one only if the first found nothing. -/
def orElse (first second : Option (Option Nat)) : Option (Option Nat) := do
  let note ← first
  if note.isSome then return note else second

/-- `find_presence_person_note` and `get_first_presence_person_note`: the activities notes come
first. The parameter is the search in one list. -/
def personNote (w : NotesWorld) (look : Option Nat → Option (Option Nat)) (p : Nat) :
    Option (Option Nat) :=
  orElse (look (w.head (.personActivities p))) (look (w.head (.person p)))

/-- `find_presence_service_note` and `get_first_presence_service_note` -/
def serviceNote (w : NotesWorld) (look : Option Nat → Option (Option Nat)) (s : Nat) :
    Option (Option Nat) :=
  look (w.head (.service s))

/-- One of the three searches of `linphone_presence_model_get_note`. Each person overwrites what
the one before has found, and so does each service. -/
def modelNote (w : NotesWorld) (look : Option Nat → Option (Option Nat)) (m : Nat) :
    Option (Option Nat) :=
  orElse ((w.persons m).foldlM (fun _ p => w.personNote look p) none)
    (orElse ((w.services m).foldlM (fun _ s => w.serviceNote look s) none)
      (look (w.head (.model m))))

/-- `linphone_presence_model_get_note` -/
def linphonePresenceModelGetNote (w : NotesWorld) (model : Option Nat) (lang : Option String) :
    Option (Option Nat) :=
  match model with
  | none => some none
  | some m =>
      orElse (if lang.isSome then w.modelNote (w.findPresenceNoteInList lang) m else some none)
        (orElse (w.modelNote (w.findPresenceNoteInList none) m)
          (w.modelNote w.getFirstPresenceNoteInList m))

/-! ## Clearing -/

/-- A list given back note by note, freed and set to NULL. -/
def clearNotes (w : NotesWorld) (f : NoteList) : Option NotesWorld := do
  let notes ← w.elems (w.head f)
  let w ← notes.foldlM noteUnref w
  return (w.msListFree (w.head f)).setHead f none

/-- `linphone_presence_service_clear_notes` -/
def linphonePresenceServiceClearNotes (w : NotesWorld) (service : Option Nat) :
    Option (NotesWorld × Int) :=
  match service with
  | none => some (w, -1)
  | some s => (w.clearNotes (.service s)).map (·, 0)

/-- `linphone_presence_person_clear_notes` -/
def linphonePresencePersonClearNotes (w : NotesWorld) (person : Option Nat) :
    Option (NotesWorld × Int) :=
  match person with
  | none => some (w, -1)
  | some p => (w.clearNotes (.person p)).map (·, 0)

/-- `linphone_presence_person_clear_activities_notes` -/
def linphonePresencePersonClearActivitiesNotes (w : NotesWorld) (person : Option Nat) :
    Option (NotesWorld × Int) :=
  match person with
  | none => some (w, -1)
  | some p => (w.clearNotes (.personActivities p)).map (·, 0)

/-- `clear_presence_person_notes` -/
def clearPresencePersonNotes (w : NotesWorld) (p : Nat) : Option NotesWorld := do
  let w ← w.clearNotes (.personActivities p)
  w.clearNotes (.person p)

/-- `clear_presence_service_notes` -/
def clearPresenceServiceNotes (w : NotesWorld) (s : Nat) : Option NotesWorld :=
  w.clearNotes (.service s)

/-- `linphone_presence_model_clear_notes` -/
def linphonePresenceModelClearNotes (w : NotesWorld) (model : Option Nat) :
    Option (NotesWorld × Int) :=
  match model with
  | none => some (w, -1)
  | some m => do
      let w ← (w.persons m).foldlM clearPresencePersonNotes w
      let w ← (w.services m).foldlM clearPresenceServiceNotes w
      let w ← w.clearNotes (.model m)
      return (w, 0)

/-! ## Runs -/

/-- The references an address has left, none if nothing is there. -/
def refs (w : NotesWorld) (n : Nat) : Int :=
  match w.notes n with
  | none => 0
  | some note => note.refcnt

def langOf (w : NotesWorld) (n : Nat) : Option String := (w.notes n).bind CountedNote.lang

/-- What a field holds, if it can be read. -/
def listed (w : NotesWorld) (f : NoteList) : Option (List Nat) := w.elems (w.head f)

/-- The lists that belong to a model. -/
def listsOf (w : NotesWorld) (m : Nat) : List NoteList :=
  (w.persons m).flatMap (fun p => [.personActivities p, .person p]) ++
    ((w.services m).map .service ++ [.model m])

end NotesWorld

/-- What the application does, and what a received document does. -/
inductive NoteOp
  | noteNew (content lang : Option String)
  | noteRef (n : Nat)
  | noteUnref (n : Nat)
  | serviceNew
  | modelAddService (m s : Nat)
  | modelAddPerson (m p : Nat)
  | received (f : NoteList) (content : String) (lang : Option String)
  | serviceAddNote (service note : Option Nat)
  | personAddNote (person note : Option Nat)
  | personAddActivitiesNote (person note : Option Nat)
  | modelAddNote (model : Option Nat) (content lang : Option String)
  | serviceClearNotes (service : Option Nat)
  | personClearNotes (person : Option Nat)
  | personClearActivitiesNotes (person : Option Nat)
  | modelClearNotes (model : Option Nat)

def NotesWorld.step (w : NotesWorld) : NoteOp → Option NotesWorld
  | .noteNew none _ => some w
  | .noteNew (some content) lang => some (w.noteNew content lang).1
  | .noteRef n => w.noteRef n
  | .noteUnref n => w.noteUnref n
  | .serviceNew => some { w with nextService := w.nextService + 1 }
  | .modelAddService m s =>
      some { w with services := Function.update w.services m (w.services m ++ [s]) }
  | .modelAddPerson m p =>
      some { w with persons := Function.update w.persons m (w.persons m ++ [p]) }
  | .received f content lang => w.processPidfNote f content lang
  | .serviceAddNote service note => (w.linphonePresenceServiceAddNote service note).map Prod.fst
  | .personAddNote person note => (w.linphonePresencePersonAddNote person note).map Prod.fst
  | .personAddActivitiesNote person note =>
      (w.linphonePresencePersonAddActivitiesNote person note).map Prod.fst
  | .modelAddNote model content lang =>
      (w.linphonePresenceModelAddNote model content lang).map Prod.fst
  | .serviceClearNotes service => (w.linphonePresenceServiceClearNotes service).map Prod.fst
  | .personClearNotes person => (w.linphonePresencePersonClearNotes person).map Prod.fst
  | .personClearActivitiesNotes person =>
      (w.linphonePresencePersonClearActivitiesNotes person).map Prod.fst
  | .modelClearNotes model => (w.linphonePresenceModelClearNotes model).map Prod.fst

/-- A note that was added to a list, and whether that was through the model. -/
structure NoteEntry where
  note : Nat
  lang : Option String
  viaModel : Bool := false

/-- What each list should hold, and the references the application holds. -/
structure NoteBook where
  held : NoteList → List NoteEntry := fun _ => []
  own : Nat → Nat := fun _ => 0

/-- The lists an operation is about. -/
def NoteOp.about (w : NotesWorld) : NoteOp → List NoteList
  | .received f _ _ => [f]
  | .serviceAddNote (some s) (some _) => [.service s]
  | .personAddNote (some p) (some _) => [.person p]
  | .personAddActivitiesNote (some p) (some _) => [.personActivities p]
  | .modelAddNote (some m) (some _) _ => [.service ((w.services m).headD w.nextService)]
  | .serviceClearNotes (some s) => [.service s]
  | .personClearNotes (some p) => [.person p]
  | .personClearActivitiesNotes (some p) => [.personActivities p]
  | .modelClearNotes (some m) => w.listsOf m
  | _ => []

/-- What it should make of such a list. Through the model a note is added only if there is none in
its language. -/
def NoteOp.onto (w : NotesWorld) (entries : List NoteEntry) : NoteOp → List NoteEntry
  | .received _ _ lang => entries ++ [{ note := w.nextNote, lang }]
  | .serviceAddNote _ (some n) | .personAddNote _ (some n) | .personAddActivitiesNote _ (some n) =>
      entries ++ [{ note := n, lang := w.langOf n }]
  | .modelAddNote _ _ lang =>
      if ∃ e ∈ entries, e.lang = lang then entries
      else entries ++ [{ note := w.nextNote, lang, viaModel := true }]
  | _ => []

/-- The references of the application afterwards. -/
def NoteOp.owned (w : NotesWorld) (own : Nat → Nat) : NoteOp → Nat → Nat
  | .noteNew (some _) _ => Function.update own w.nextNote (own w.nextNote + 1)
  | .noteRef n => Function.update own n (own n + 1)
  | .noteUnref n => Function.update own n (own n - 1)
  | _ => own

/-- The book after an operation. -/
def NoteBook.record (b : NoteBook) (w : NotesWorld) (op : NoteOp) : NoteBook where
  held f := if f ∈ op.about w then op.onto w (b.held f) else b.held f
  own := op.owned w b.own

/-- The application hands in addresses of notes and services that exist, and gives back only
references it holds. -/
def NoteOp.Valid (w : NotesWorld) (b : NoteBook) : NoteOp → Prop
  | .noteRef n => (w.notes n).isSome
  | .noteUnref n => 0 < b.own n
  | .modelAddService _ s => s < w.nextService
  | .received (.service s) _ _ => s < w.nextService
  | .serviceAddNote service note =>
      (∀ s ∈ service, s < w.nextService) ∧ ∀ n ∈ note, (w.notes n).isSome
  | .personAddNote _ note | .personAddActivitiesNote _ note => ∀ n ∈ note, (w.notes n).isSome
  | .serviceClearNotes service => ∀ s ∈ service, s < w.nextService
  | _ => True

/-- A run in which every operation meets a condition. -/
inductive NotesRun (Meets : NotesWorld → NoteOp → Prop) : NotesWorld → NoteBook → Prop
  | start : NotesRun Meets {} {}
  | step {w w' : NotesWorld} {b : NoteBook} (op : NoteOp) (run : NotesRun Meets w b)
      (valid : op.Valid w b) (meets : Meets w op) (taken : w.step op = some w') :
      NotesRun Meets w' (b.record w op)

/-- **What the functions can do.** A note goes through the model only if it has a service and the
first one holds no note in the language. No note is added as an activities note. -/
def NotesMeet (w : NotesWorld) : NoteOp → Prop
  | .modelAddNote (some m) (some _) lang =>
      ∃ s rest, w.services m = s :: rest ∧
        ∀ notes ∈ w.listed (.service s), ∀ n ∈ notes, w.langOf n ≠ lang
  | .personAddActivitiesNote (some _) (some _) => False
  | _ => True

end Linphone
