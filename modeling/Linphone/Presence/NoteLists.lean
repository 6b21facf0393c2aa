import Linphone.Presence.Notes

/-!
# The lists of notes

As long as no note goes through a model without a service, or in a language that is there already,
and none is added as an activities note, the lists hold what the book says, no list shares its nodes
with another one, and no note is in more places than it has references. So nothing that was freed is
touched.
-/

namespace Linphone

open Shares

namespace NotesWorld

variable {w w' w'' : NotesWorld} {b : NoteBook} {f g : NoteList} {n m s p : Nat}

/-! ## Changes of notes -/

/-- Only references change, and no note that is left has another language. -/
structure Counts (w : NotesWorld) (change : Nat → Int) (w' : NotesWorld) : Prop where
  rest : w' = { w with notes := w'.notes }
  refs : ∀ k, w'.refs k = w.refs k + change k
  langs : ∀ k note', w'.notes k = some note' → ∃ note, w.notes k = some note ∧
    note.lang = note'.lang

theorem Counts.refl : Counts w (fun _ => 0) w where
  rest := rfl
  refs _ := (Int.add_zero _).symm
  langs _ note' h := ⟨note', h, rfl⟩

theorem Counts.trans {change change' : Nat → Int} (h : Counts w change w')
    (h' : Counts w' change' w'') : Counts w (fun k => change k + change' k) w'' where
  rest := by
    have hrest := h.rest
    rw [h'.rest]
    generalize w''.notes = notes
    rw [hrest]
  refs k := by rw [h'.refs, h.refs, Int.add_assoc]
  langs k note'' hnote := by
    obtain ⟨note', hnote', hlang'⟩ := h'.langs k note'' hnote
    obtain ⟨note, hnote, hlang⟩ := h.langs k note' hnote'
    exact ⟨note, hnote, hlang.trans hlang'⟩

theorem live_of_pos (h : 0 < w.refs n) :
    ∃ note, w.notes n = some note ∧ note.refcnt = w.refs n := by
  unfold refs at h ⊢
  cases hn : w.notes n with
  | none => simp [hn] at h
  | some note => exact ⟨note, rfl, rfl⟩

/-- One note is written again. -/
theorem counts_update {note : CountedNote} {left : Option CountedNote} {change : Int}
    (hn : w.notes n = some note)
    (hleft : ∀ note' ∈ left, note'.lang = note.lang ∧ note'.refcnt = note.refcnt + change)
    (hnone : left = none → note.refcnt + change = 0) :
    Counts w (fun k => if k = n then change else 0)
      { w with notes := Function.update w.notes n left } where
  rest := rfl
  refs k := by
    by_cases hk : k = n
    · subst hk
      rw [if_pos rfl]
      cases left with
      | none => simp [refs, hn, hnone rfl]
      | some note' => simp [refs, hn, hleft note' rfl]
    · simp [refs, hk]
  langs k note' hnote := by
    dsimp only at hnote
    by_cases hk : k = n
    · subst hk
      rw [Function.update_self] at hnote
      exact ⟨note, hn, (hleft note' hnote).1.symm⟩
    · rw [Function.update_of_ne hk] at hnote
      exact ⟨note', hnote, rfl⟩

theorem noteRef_returns (h : (w.notes n).isSome) :
    Returns (w.noteRef n) (Counts w fun k => if k = n then 1 else 0) := by
  obtain ⟨note, hn⟩ := Option.isSome_iff_exists.mp h
  refine ⟨_, by rw [noteRef, hn]; rfl, counts_update hn ?_ (fun h => by cases h)⟩
  rintro _ ⟨⟩
  exact ⟨rfl, rfl⟩

theorem noteUnref_returns (h : 0 < w.refs n) :
    Returns (w.noteUnref n) (Counts w fun k => if k = n then -1 else 0) := by
  obtain ⟨note, hn, hrefs⟩ := live_of_pos h
  refine ⟨_, by rw [noteUnref, hn]; rfl, counts_update hn ?_ ?_⟩
  · intro note' hnote'
    split at hnote'
    · cases hnote'
    · cases hnote'
      exact ⟨rfl, rfl⟩
  · intro hnone
    by_contra hne
    rw [if_neg (by omega)] at hnone
    cases hnone

/-- One reference given back for each place of the list. -/
theorem unrefs_returns (l : List Nat) (h : ∀ k, (l.count k : Int) ≤ w.refs k) :
    Returns (l.foldlM noteUnref w) (Counts w fun k => -(l.count k : Int)) := by
  have hloop := Returns.foldlM (f := noteUnref)
    (I := fun rest w' => (∀ k, (rest.count k : Int) ≤ w'.refs k) ∧
      Counts w (fun k => (rest.count k : Int) - l.count k) w') ?_ l w ?_
  · refine hloop.mono fun w' hw' => ?_
    simpa using hw'.2
  · rintro n rest w' ⟨hle, hcounts⟩
    have hn := hle n
    rw [List.count_cons_self] at hn
    refine (noteUnref_returns (by omega)).mono fun w'' hw'' => ⟨fun k => ?_, ?_⟩
    · have hk := hle k
      rw [hw''.refs]
      rw [List.count_cons] at hk
      by_cases hkn : k = n
      · subst hkn
        rw [if_pos rfl]
        simp only [BEq.rfl, if_true] at hk
        omega
      · rw [if_neg hkn]
        omega
    · have hall := hcounts.trans hw''
      refine { hall with refs := fun k => ?_ }
      rw [hall.refs, List.count_cons]
      by_cases hkn : k = n
      · subst hkn
        simp only [BEq.rfl, if_true]
        omega
      · have hnk : (n == k) = false := by simpa using Ne.symm hkn
        rw [if_neg hkn, hnk]
        simp
  · exact ⟨h, by simpa using Counts.refl⟩

/-! ## Changes of lists -/

/-- Every field has a list of its own. -/
structure Separated (w : NotesWorld) : Prop where
  apart : ∀ f g c, w.head f = some c → w.head g = some c → f = g
  old : ∀ f c, w.head f = some c → c < w.nextChain

/-- Only the list of one field changes. -/
structure Relists (w : NotesWorld) (f : NoteList) (l : List Nat) (w' : NotesWorld) : Prop where
  listed : w'.listed = Function.update w.listed f (some l)
  separated : Separated w'
  rest : w' = { w with chains := w'.chains, head := w'.head, nextChain := w'.nextChain }

theorem listed_of_head {c : Nat} (h : w.head f = some c) : w.listed f = w.chains c := by
  rw [listed, h, elems]

theorem listed_of_null (h : w.head f = none) : w.listed f = some [] := by
  rw [listed, h, elems]

theorem appendNote_returns {l : List Nat} (h : Separated w) (hl : w.listed f = some l) :
    Returns (w.appendNote f n) (Relists w f (l ++ [n])) := by
  cases hf : w.head f with
  | none =>
      refine ⟨_, by rw [appendNote, hf]; rfl, ?_⟩
      have hempty : l = [] := by
        rw [listed_of_null hf] at hl
        exact (Option.some.inj hl).symm
      subst hempty
      refine { listed := funext fun g => ?_, separated := ⟨?_, ?_⟩, rest := rfl }
      · by_cases hg : g = f
        · subst hg
          simp [listed, setHead, elems]
        · rw [Function.update_of_ne hg]
          cases hgc : w.head g with
          | none => simp [listed, setHead, elems, hg, hgc]
          | some c =>
              have hne : c ≠ w.nextChain := by
                have := h.old g c hgc
                omega
              simp [listed, setHead, elems, hg, hgc, hne]
      · intro g g' c hg hg'
        simp only [setHead] at hg hg'
        by_cases hgf : g = f
        · subst hgf
          by_cases hgf' : g' = g
          · exact hgf'.symm
          · rw [Function.update_self] at hg
            rw [Function.update_of_ne hgf'] at hg'
            have := h.old g' c hg'
            cases hg
            omega
        · rw [Function.update_of_ne hgf] at hg
          by_cases hgf' : g' = f
          · subst hgf'
            rw [Function.update_self] at hg'
            have := h.old g c hg
            cases hg'
            omega
          · rw [Function.update_of_ne hgf'] at hg'
            exact h.apart g g' c hg hg'
      · intro g c hg
        simp only [setHead] at hg ⊢
        by_cases hgf : g = f
        · subst hgf
          rw [Function.update_self] at hg
          cases hg
          omega
        · rw [Function.update_of_ne hgf] at hg
          have := h.old g c hg
          omega
  | some c =>
      have hc : w.chains c = some l := by rw [← listed_of_head hf, hl]
      have hhead : Function.update w.head f (some c) = w.head := by
        rw [← hf, Function.update_eq_self]
      refine ⟨_, by rw [appendNote, hf]; simp only [msListAppend, hc]; rfl, ?_⟩
      refine { listed := funext fun g => ?_, separated := ⟨?_, ?_⟩, rest := rfl }
      · by_cases hg : g = f
        · subst hg
          simp [listed, setHead, elems]
        · rw [Function.update_of_ne hg]
          cases hgc : w.head g with
          | none => simp [listed, setHead, elems, hg, hgc]
          | some c' =>
              have hne : c' ≠ c := fun heq => hg (h.apart g f c (heq ▸ hgc) hf)
              simp [listed, setHead, elems, hg, hgc, hne]
      · simp only [setHead, hhead]
        exact h.apart
      · simp only [setHead, hhead]
        exact h.old

theorem freed_relists {l : List Nat} (h : Separated w) (hl : w.listed f = some l) :
    Relists w f [] ((w.msListFree (w.head f)).setHead f none) := by
  have hseparated : ∀ w₁ : NotesWorld, w₁.head = w.head → w₁.nextChain = w.nextChain →
      Separated (w₁.setHead f none) := by
    intro w₁ hhead hnext
    have hold : ∀ g c, (w₁.setHead f none).head g = some c → w.head g = some c := by
      intro g c hg
      rw [setHead, hhead] at hg
      dsimp only at hg
      by_cases hgf : g = f
      · subst hgf
        simp at hg
      · rwa [Function.update_of_ne hgf] at hg
    refine ⟨fun g g' c hg hg' => h.apart g g' c (hold g c hg) (hold g' c hg'), ?_⟩
    intro g c hg
    have := h.old g c (hold g c hg)
    change c < w₁.nextChain
    omega
  cases hf : w.head f with
  | none =>
      refine { listed := funext fun g => ?_, separated := hseparated w rfl rfl, rest := rfl }
      by_cases hg : g = f
      · subst hg
        simp [listed, setHead, elems]
      · simp [listed, setHead, elems, msListFree, hg]
  | some c =>
      refine { listed := funext fun g => ?_, separated := hseparated _ rfl rfl, rest := rfl }
      by_cases hg : g = f
      · subst hg
        simp [listed, setHead, elems]
      · rw [Function.update_of_ne hg]
        cases hgc : w.head g with
        | none => simp [listed, setHead, elems, msListFree, hg, hgc]
        | some c' =>
            have hne : c' ≠ c := fun heq => hg (h.apart g f c (heq ▸ hgc) hf)
            simp [listed, setHead, elems, msListFree, hg, hgc, hne]

/-! ## Memory and book -/

/-- The notes of the entries of each list. -/
def noted (b : NoteBook) (f : NoteList) : List Nat := (b.held f).map NoteEntry.note

/-- The lists are those of the book. -/
structure Kept (w : NotesWorld) (b : NoteBook) : Prop where
  separated : Separated w
  listed : ∀ f, w.listed f = some (noted b f)
  unused : ∀ n, w.nextNote ≤ n → w.notes n = none
  langs : ∀ f, ∀ e ∈ b.held f, ∀ note, w.notes e.note = some note → note.lang = e.lang
  first : ∀ f, (b.held f).Pairwise fun a e => e.viaModel = true → a.lang ≠ e.lang

/-- **The memory holds what the book says**, and no note is in more places than it has
references. -/
structure Sound (w : NotesWorld) (b : NoteBook) : Prop extends Kept w b where
  backed : Backed (noted b) b.own w.refs

theorem noted_update {entries : List NoteEntry} {own : Nat → Nat} :
    noted { held := Function.update b.held f entries, own } =
      Function.update (noted b) f (entries.map NoteEntry.note) := by
  funext g
  by_cases hg : g = f
  · subst hg
    simp [noted]
  · simp [noted, hg]

theorem Sound.live (h : Sound w b) {e : NoteEntry} (he : e ∈ b.held f) :
    ∃ note, w.notes e.note = some note ∧ note.lang = e.lang := by
  have hpos : 0 < w.refs e.note :=
    h.backed.pos_of_mem (i := f) (List.mem_map_of_mem (f := NoteEntry.note) he)
  obtain ⟨note, hnote, -⟩ := live_of_pos hpos
  exact ⟨note, hnote, h.langs f e he note hnote⟩

theorem Sound.langOf (h : Sound w b) {e : NoteEntry} (he : e ∈ b.held f) :
    w.langOf e.note = e.lang := by
  obtain ⟨note, hnote, hlang⟩ := h.live he
  rw [NotesWorld.langOf, hnote]
  exact hlang

theorem Sound.not_held (h : Sound w b) (hn : w.notes n = none) : b.own n = 0 := by
  by_contra hne
  have hpos := h.backed.pos_of_own (a := n) (by omega)
  obtain ⟨note, hnote, -⟩ := live_of_pos hpos
  rw [hn] at hnote
  cases hnote

/-- Notes change, but not what is listed. -/
theorem Kept.count {change : Nat → Int} (own : Nat → Nat) (h : Kept w b)
    (hcounts : Counts w change w') : Kept w' { b with own } where
  separated := by
    rw [hcounts.rest]
    exact ⟨h.separated.apart, h.separated.old⟩
  listed f := by
    rw [hcounts.rest]
    exact h.listed f
  unused n hn := by
    cases hnote : w'.notes n with
    | none => rfl
    | some note' =>
        obtain ⟨note, hold, -⟩ := hcounts.langs n note' hnote
        rw [hcounts.rest] at hn
        rw [h.unused n hn] at hold
        cases hold
  langs f e he note' hnote' := by
    obtain ⟨note, hnote, hlang⟩ := hcounts.langs e.note note' hnote'
    exact hlang ▸ h.langs f e he note hnote
  first := h.first

/-- Notes change and the references of the application with them. -/
theorem Sound.count {change : Nat → Int} {own : Nat → Nat} (h : Sound w b)
    (hcounts : Counts w change w') (hown : ∀ k, (own k : Int) ≤ b.own k + change k) :
    Sound w' { b with own } := by
  refine { h.toKept.count own hcounts with backed := h.backed.owner fun k => ?_ }
  have hk := hown k
  rw [hcounts.refs]
  dsimp only
  omega

/-- One list changes. -/
theorem Kept.relist {entries : List NoteEntry} (own : Nat → Nat) (h : Kept w b)
    (hrelists : Relists w f (entries.map NoteEntry.note) w')
    (hlangs : ∀ e ∈ entries, ∀ note, w.notes e.note = some note → note.lang = e.lang)
    (hfirst : entries.Pairwise fun a e => e.viaModel = true → a.lang ≠ e.lang) :
    Kept w' { held := Function.update b.held f entries, own } where
  separated := hrelists.separated
  listed g := by
    rw [hrelists.listed, noted_update]
    by_cases hg : g = f
    · subst hg
      rw [Function.update_self, Function.update_self]
    · rw [Function.update_of_ne hg, Function.update_of_ne hg, h.listed]
  unused n hn := by
    rw [hrelists.rest] at hn ⊢
    exact h.unused n hn
  langs g e he := by
    rw [hrelists.rest]
    by_cases hg : g = f
    · subst hg
      dsimp only at he
      rw [Function.update_self] at he
      exact hlangs e he
    · dsimp only at he
      rw [Function.update_of_ne hg] at he
      exact h.langs g e he
  first g := by
    by_cases hg : g = f
    · subst hg
      dsimp only
      rw [Function.update_self]
      exact hfirst
    · dsimp only
      rw [Function.update_of_ne hg]
      exact h.first g

/-! ## The operations -/

theorem Sound.noteNew (h : Sound w b) (content : String) (lang : Option String) :
    Sound (w.noteNew content lang).1
      { b with own := Function.update b.own w.nextNote (b.own w.nextNote + 1) } := by
  have hfree := h.unused w.nextNote (Nat.le_refl _)
  have hown := h.not_held hfree
  have hrefs : ∀ k, (w.noteNew content lang).1.refs k =
      w.refs k + if k = w.nextNote then 1 else 0 := by
    intro k
    by_cases hk : k = w.nextNote
    · subst hk
      simp [refs, NotesWorld.noteNew, hfree]
    · simp [refs, NotesWorld.noteNew, hk]
  refine { h with separated := ⟨h.separated.apart, h.separated.old⟩, unused := ?_, langs := ?_,
                  backed := ?_ }
  · intro n hn
    have hne : n ≠ w.nextNote := by
      change w.nextNote + 1 ≤ n at hn
      omega
    change Function.update w.notes w.nextNote _ n = none
    rw [Function.update_of_ne hne]
    exact h.unused n (by change w.nextNote + 1 ≤ n at hn; omega)
  · intro f e he note hnote
    obtain ⟨note', hnote', hlang⟩ := h.live he
    have hne : e.note ≠ w.nextNote := by
      intro heq
      rw [heq, hfree] at hnote'
      cases hnote'
    change Function.update w.notes w.nextNote _ e.note = some note at hnote
    rw [Function.update_of_ne hne] at hnote
    exact h.langs f e he note hnote
  · refine h.backed.owner fun k => ?_
    rw [hrefs]
    dsimp only
    by_cases hk : k = w.nextNote
    · subst hk
      rw [Function.update_self, if_pos rfl]
      omega
    · rw [Function.update_of_ne hk, if_neg hk]
      omega

theorem Sound.noteRef (h : Sound w b) (hn : (w.notes n).isSome) :
    Returns (w.noteRef n) fun w' =>
      Counts w (fun k => if k = n then 1 else 0) w' ∧
        Sound w' { b with own := Function.update b.own n (b.own n + 1) } := by
  refine (noteRef_returns hn).mono fun w' hcounts => ⟨hcounts, h.count hcounts fun k => ?_⟩
  by_cases hk : k = n
  · subst hk
    simp
  · simp [hk]

theorem Sound.noteUnref (h : Sound w b) (hn : 0 < b.own n) :
    Returns (w.noteUnref n) fun w' =>
      Sound w' { b with own := Function.update b.own n (b.own n - 1) } := by
  refine (noteUnref_returns (h.backed.pos_of_own hn)).mono fun w' hcounts => ?_
  refine h.count hcounts fun k => ?_
  by_cases hk : k = n
  · subst hk
    rw [Function.update_self, if_pos rfl]
    omega
  · simp [hk]

/-- A note goes to a list, and a reference of the application with it. -/
theorem Sound.append {e : NoteEntry} (h : Sound w b) (hown : 0 < b.own e.note)
    (hlang : ∀ note, w.notes e.note = some note → note.lang = e.lang)
    (hfirst : e.viaModel = true → ∀ a ∈ b.held f, a.lang ≠ e.lang) :
    Returns (w.appendNote f e.note) fun w' =>
      Sound w' { held := Function.update b.held f (b.held f ++ [e])
                 own := Function.update b.own e.note (b.own e.note - 1) } := by
  refine (appendNote_returns h.separated (h.listed f)).mono fun w' hrelists => ?_
  refine { h.toKept.relist _ (by rwa [List.map_append]) ?_ ?_ with backed := ?_ }
  · intro a ha
    rcases List.mem_append.mp ha with ha | ha
    · exact h.langs f a ha
    · cases List.mem_singleton.mp ha
      exact hlang
  · rw [List.pairwise_append]
    refine ⟨h.first f, List.pairwise_singleton _ _, fun a ha e' he' hvia => ?_⟩
    cases List.mem_singleton.mp he'
    exact hfirst hvia a ha
  · rw [noted_update, List.map_append, hrelists.rest]
    exact h.backed.handOver hown

/-- The fields of the models stay. -/
structure SameModels (w w' : NotesWorld) : Prop where
  services : w'.services = w.services
  persons : w'.persons = w.persons

theorem msListFree_services (list : Option Nat) : (w.msListFree list).services = w.services := by
  cases list <;> rfl

theorem msListFree_persons (list : Option Nat) : (w.msListFree list).persons = w.persons := by
  cases list <;> rfl

theorem Sound.clear (h : Sound w b) (f : NoteList) :
    Returns (w.clearNotes f) fun w' =>
      Sound w' { b with held := Function.update b.held f [] } ∧ SameModels w w' := by
  have hunrefs := unrefs_returns (w := w) (noted b f) fun k => h.backed.count_le f k
  obtain ⟨w₁, hw₁, hcounts⟩ := hunrefs
  have hread : w.elems (w.head f) = some (noted b f) := h.listed f
  have hkept : Kept w₁ b := h.toKept.count b.own hcounts
  have hrelists := freed_relists hkept.separated (hkept.listed f)
  refine ⟨_, by rw [clearNotes, hread]; simp only [Option.bind_eq_bind, Option.bind_some, hw₁]; rfl,
    { hkept.relist b.own hrelists (fun e he => by cases he) List.Pairwise.nil with
      backed := ?_ }, ?_⟩
  · rw [noted_update, hrelists.rest]
    refine h.backed.clear f fun k => ?_
    change w₁.refs k = _
    rw [hcounts.refs]
    omega
  · constructor
    · rw [setHead, msListFree_services, hcounts.rest]
    · rw [setHead, msListFree_persons, hcounts.rest]

theorem Sound.clearAll (fs : List NoteList) : ∀ {w : NotesWorld} {b : NoteBook}, Sound w b →
    Returns (fs.foldlM clearNotes w) fun w' =>
      Sound w' { b with held := fun f => if f ∈ fs then [] else b.held f } ∧ SameModels w w' := by
  induction fs with
  | nil =>
      intro w b h
      exact ⟨w, rfl, by simpa using h, rfl, rfl⟩
  | cons f fs ih =>
      intro w b h
      rw [List.foldlM_cons]
      refine (h.clear f).bind fun w₁ ⟨h₁, hsame₁⟩ => ?_
      refine (ih h₁).mono fun w' ⟨h', hsame'⟩ => ⟨?_, ?_, ?_⟩
      · convert h' using 2
        funext g
        by_cases hg : g = f
        · subst hg
          simp
        · simp [hg]
      · rw [hsame'.services, hsame₁.services]
      · rw [hsame'.persons, hsame₁.persons]

theorem clearPersons_eq (l : List Nat) : ∀ w : NotesWorld, l.foldlM clearPresencePersonNotes w =
    (l.flatMap fun p => [NoteList.personActivities p, .person p]).foldlM clearNotes w := by
  induction l with
  | nil => exact fun _ => rfl
  | cons p l ih =>
      intro w
      rw [List.foldlM_cons, List.flatMap_cons, List.foldlM_append]
      have hone : clearPresencePersonNotes w p =
          [NoteList.personActivities p, .person p].foldlM clearNotes w := by
        simp [clearPresencePersonNotes]
      rw [hone]
      exact congrArg _ (funext ih)

theorem clearServices_eq (l : List Nat) (w : NotesWorld) :
    l.foldlM clearPresenceServiceNotes w = (l.map NoteList.service).foldlM clearNotes w := by
  rw [List.foldlM_map]
  rfl

theorem Sound.modelClear (h : Sound w b) (m : Nat) :
    Returns (w.linphonePresenceModelClearNotes (some m)) fun r =>
      Sound r.1 { b with held := fun f => if f ∈ w.listsOf m then [] else b.held f } := by
  obtain ⟨w₁, hw₁, h₁, hsame₁⟩ :=
    h.clearAll ((w.persons m).flatMap fun p => [NoteList.personActivities p, .person p])
  obtain ⟨w₂, hw₂, h₂, -⟩ := h₁.clearAll ((w.services m).map NoteList.service)
  obtain ⟨w₃, hw₃, h₃, -⟩ := h₂.clear (.model m)
  refine ⟨(w₃, 0), ?_, ?_⟩
  · rw [← clearPersons_eq] at hw₁
    rw [← hsame₁.services, ← clearServices_eq] at hw₂
    simp only [linphonePresenceModelClearNotes, Option.bind_eq_bind, hw₁, hw₂, hw₃,
      Option.bind_some]
    rfl
  · convert h₃ using 2
    funext f
    by_cases hf : f = .model m
    · subst hf
      simp [listsOf]
    · rw [Function.update_of_ne hf]
      simp only [listsOf, List.mem_append, List.mem_singleton, hf, or_false]
      by_cases hservice : f ∈ (w.services m).map NoteList.service
      · simp [hservice]
      · simp [hservice]

/-! ## Reading a list -/

theorem findNoteLoop_eq (lang : Option String) (l : List Nat) (h : ∀ n ∈ l, (w.notes n).isSome) :
    w.findNoteLoop lang l = some (l.find? fun n => w.langOf n = lang) := by
  induction l with
  | nil => rfl
  | cons n l ih =>
      rw [List.forall_mem_cons] at h
      obtain ⟨note, hn⟩ := Option.isSome_iff_exists.mp h.1
      have hlang : w.langOf n = note.lang := by rw [NotesWorld.langOf, hn]; rfl
      simp only [findNoteLoop, hn, Option.bind_eq_bind, Option.bind_some]
      cases lang with
      | none =>
          cases hnote : note.lang with
          | none => simp [hlang, hnote]
          | some l' => simp [hlang, hnote, ih h.2]
      | some l₀ =>
          cases hnote : note.lang with
          | none => simp [hlang, hnote, ih h.2]
          | some l' =>
              by_cases heq : l₀ = l'
              · simp [hlang, hnote, heq]
              · simp [hlang, hnote, heq, Ne.symm heq, ih h.2]

theorem Sound.notes_live (h : Sound w b) (f : NoteList) : ∀ n ∈ noted b f, (w.notes n).isSome := by
  intro n hn
  obtain ⟨e, he, rfl⟩ := List.mem_map.mp hn
  obtain ⟨note, hnote, -⟩ := h.live he
  rw [hnote]
  rfl

theorem Sound.find_eq (h : Sound w b) (lang : Option String) (f : NoteList) :
    w.findPresenceNoteInList lang (w.head f) =
      some ((noted b f).find? fun n => w.langOf n = lang) := by
  have hread : w.elems (w.head f) = some (noted b f) := h.listed f
  simp only [findPresenceNoteInList, hread, Option.bind_eq_bind, Option.bind_some]
  exact findNoteLoop_eq lang _ (h.notes_live f)

theorem Sound.getFirst_eq (h : Sound w b) (f : NoteList) :
    w.getFirstPresenceNoteInList (w.head f) = some ((noted b f).find? fun _ => true) := by
  have hread : w.elems (w.head f) = some (noted b f) := h.listed f
  simp only [getFirstPresenceNoteInList, hread, Option.bind_eq_bind, Option.bind_some]
  cases noted b f <;> rfl

/-! ## Every operation -/

theorem own_restored (own : Nat → Nat) (n : Nat) :
    Function.update (Function.update own n (own n + 1)) n
      (Function.update own n (own n + 1) n - 1) = own := by
  rw [Function.update_self, Nat.add_sub_cancel, Function.update_idem, Function.update_eq_self]

/-- A new note goes to a list. -/
theorem Sound.addNew (h : Sound w b) (f : NoteList) (content : String) (lang : Option String)
    (viaModel : Bool) (hfirst : viaModel = true → ∀ a ∈ b.held f, a.lang ≠ lang) :
    Returns ((w.noteNew content lang).1.appendNote f w.nextNote) fun w' =>
      Sound w'
        { b with
          held := Function.update b.held f
            (b.held f ++ [{ note := w.nextNote, lang, viaModel }]) } := by
  have happend := (h.noteNew content lang).append (f := f)
    (e := { note := w.nextNote, lang, viaModel }) (by simp) ?_ hfirst
  · refine happend.mono fun w' h' => ?_
    dsimp only at h'
    rwa [own_restored] at h'
  · intro note hnote
    change Function.update w.notes w.nextNote _ w.nextNote = some note at hnote
    rw [Function.update_self] at hnote
    cases hnote
    rfl

/-- A note of the application goes to a list with a reference of its own. -/
theorem Sound.addCounted (h : Sound w b) (f : NoteList) (hn : (w.notes n).isSome) :
    Returns (do let w ← w.noteRef n; let w ← w.appendNote f n; return (w, (0 : Int)))
      fun r => Sound r.1
        { b with
          held := Function.update b.held f (b.held f ++ [{ note := n, lang := w.langOf n }]) } := by
  refine (h.noteRef hn).bind fun w₁ ⟨hcounts, h₁⟩ => ?_
  have happend := h₁.append (f := f) (e := { note := n, lang := w.langOf n }) (by simp) ?_
    (fun hvia => by cases hvia)
  · refine happend.bind fun w' h' => Returns.some ?_
    dsimp only at h'
    rwa [own_restored] at h'
  · intro note' hnote'
    obtain ⟨note, hnote, hlang⟩ := hcounts.langs n note' hnote'
    rw [NotesWorld.langOf, hnote]
    exact hlang.symm

theorem Sound.clearOne (h : Sound w b) (f : NoteList) :
    Returns ((w.clearNotes f).map fun w' => (w', (0 : Int))) fun r =>
      Sound r.1 { b with held := Function.update b.held f [] } :=
  (h.clear f).map fun _ h' => h'.1

theorem record_one {op : NoteOp} (habout : op.about w = [f]) (howned : op.owned w b.own = b.own) :
    b.record w op = { b with held := Function.update b.held f (op.onto w (b.held f)) } := by
  rw [NoteBook.record, howned, habout]
  congr 1
  funext g
  by_cases hg : g = f
  · subst hg
    simp
  · simp [hg]

theorem record_none {op : NoteOp} (habout : op.about w = []) :
    b.record w op = { b with own := op.owned w b.own } := by
  rw [NoteBook.record, habout]
  simp

theorem Sound.receive (h : Sound w b) (f : NoteList) (content : String) (lang : Option String) :
    Returns (w.processPidfNote f content lang) fun w' =>
      Sound w' (b.record w (.received f content lang)) := by
  have hadd := h.addNew f content lang false fun hvia => by cases hvia
  rw [record_one rfl rfl]
  cases f <;> exact hadd

/-- Through the model, a note in a new language goes to the first service. -/
theorem Sound.modelAdd {rest : List Nat} {content : String} {lang : Option String} (h : Sound w b)
    (hservices : w.services m = s :: rest)
    (hlang : ∀ notes ∈ w.listed (.service s), ∀ n ∈ notes, w.langOf n ≠ lang) :
    Returns (w.linphonePresenceModelAddNote (some m) (some content) lang) fun r =>
      Sound r.1 (b.record w (.modelAddNote (some m) (some content) lang)) := by
  have hnone : ∀ n ∈ noted b (.service s), w.langOf n ≠ lang := hlang _ (h.listed _)
  have hentries : ∀ e ∈ b.held (.service s), e.lang ≠ lang := by
    intro e he
    rw [← h.langOf he]
    exact hnone e.note (List.mem_map_of_mem he)
  have hfind : w.findPresenceNoteInList lang (w.head (.service s)) = some none := by
    rw [h.find_eq, List.find?_eq_none.mpr]
    simpa using hnone
  obtain ⟨w', hw', h'⟩ := h.addNew (.service s) content lang true fun _ => hentries
  refine ⟨(w', 0), ?_, ?_⟩
  · simp only [linphonePresenceModelAddNote, hservices, hfind, Option.bind_eq_bind,
      Option.bind_some, presenceServiceAddNote]
    change (((w.noteNew content lang).1.appendNote _ w.nextNote).bind fun w => pure (w, 0)) = _
    rw [hw']
    rfl
  · rw [record_one (f := .service s) (by rw [NoteOp.about, hservices]; rfl) rfl]
    simp only [NoteOp.onto]
    rw [if_neg (by simpa using hentries)]
    exact h'

/-- **Each operation that meets the condition returns, and leaves what the book says.** -/
theorem Sound.step {op : NoteOp} (h : Sound w b) (hvalid : op.Valid w b) (hmeets : NotesMeet w op) :
    Returns (w.step op) fun w' => Sound w' (b.record w op) := by
  have hmodels : ∀ {w'' : NotesWorld}, w''.notes = w.notes → w''.chains = w.chains →
      w''.head = w.head → w''.nextNote = w.nextNote → w''.nextChain = w.nextChain →
      Sound w'' b := by
    intro w'' hnotes hchains hhead hnextNote hnextChain
    cases w''
    cases hnotes
    cases hchains
    cases hhead
    cases hnextNote
    cases hnextChain
    exact ⟨⟨⟨h.separated.apart, h.separated.old⟩, h.listed, h.unused, h.langs, h.first⟩, h.backed⟩
  cases op with
  | noteNew content lang =>
      cases content with
      | none => exact Returns.some h
      | some content =>
          rw [record_none rfl]
          exact Returns.some (h.noteNew content lang)
  | noteRef n =>
      rw [record_none rfl]
      exact (h.noteRef hvalid).mono fun w' h' => h'.2
  | noteUnref n =>
      rw [record_none rfl]
      exact h.noteUnref hvalid
  | serviceNew => exact Returns.some (hmodels rfl rfl rfl rfl rfl)
  | modelAddService m s => exact Returns.some (hmodels rfl rfl rfl rfl rfl)
  | modelAddPerson m p => exact Returns.some (hmodels rfl rfl rfl rfl rfl)
  | received f content lang => exact h.receive f content lang
  | serviceAddNote service note =>
      cases service with
      | none => exact Returns.some h
      | some s =>
          cases note with
          | none => exact Returns.some h
          | some n =>
              rw [record_one rfl rfl]
              exact (h.addCounted (.service s) (hvalid.2 n rfl)).map fun r h' => h'
  | personAddNote person note =>
      cases person with
      | none => exact Returns.some h
      | some p =>
          cases note with
          | none => exact Returns.some h
          | some n =>
              rw [record_one rfl rfl]
              exact (h.addCounted (.person p) (hvalid n rfl)).map fun r h' => h'
  | personAddActivitiesNote person note =>
      cases person with
      | none => exact Returns.some h
      | some p =>
          cases note with
          | none => exact Returns.some h
          | some n => exact hmeets.elim
  | modelAddNote model content lang =>
      cases model with
      | none => exact Returns.some h
      | some m =>
          cases content with
          | none => exact Returns.some h
          | some content =>
              obtain ⟨s, rest, hservices, hlang⟩ := hmeets
              exact (h.modelAdd hservices hlang).map fun r h' => h'
  | serviceClearNotes service =>
      cases service with
      | none => exact Returns.some h
      | some s =>
          rw [record_one rfl rfl]
          exact (h.clearOne (.service s)).map fun r h' => h'
  | personClearNotes person =>
      cases person with
      | none => exact Returns.some h
      | some p =>
          rw [record_one rfl rfl]
          exact (h.clearOne (.person p)).map fun r h' => h'
  | personClearActivitiesNotes person =>
      cases person with
      | none => exact Returns.some h
      | some p =>
          rw [record_one rfl rfl]
          exact (h.clearOne (.personActivities p)).map fun r h' => h'
  | modelClearNotes model =>
      cases model with
      | none => exact Returns.some h
      | some m => exact (h.modelClear m).map fun r h' => h'

end NotesWorld

end Linphone
