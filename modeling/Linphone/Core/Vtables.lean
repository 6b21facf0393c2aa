import Linphone.Lib.Notices

/-!
# Listeners of the core

The list of vtable references of `coreapi/vtables.c`. Every notification walks the list
(`NOTIFY_IF_EXIST`), calls the references that are valid and have the function, and cleans up
(`cleanup_dead_vtable_refs`): what `linphone_core_remove_listener` only marked is then taken out of
the list and freed. A listener that is called may do anything with the core, so the state keeps the
traversals under way, the innermost first; each stands on a node of the list.

`history_lawful`: listeners are notified as they should be as long as no notification ends while a
listener that is still being called is removed, none frees a reference that owns its vtable, and a
listener asks for the current vtable only while the last turn was its own.
-/

namespace Linphone

open Notices

/-- A node of `lc->vtable_refs` and its `VTableReference`, which are freed together. -/
structure VTableReference (Vtable : Type) where
  id : Nat
  vtable : Vtable
  valid : Bool := true
  autorelease : Bool := false
deriving DecidableEq

/-- A notification under way: the function, and the node `iterator` points to. -/
structure VtableTraversal (Function : Type) where
  key : Nat
  function : Function
  iterator : Nat
deriving DecidableEq

structure VtableCore (Vtable Function : Type) where
  vtableRefs : List (VTableReference Vtable) := []
  currentVtable : Option Vtable := none
  traversals : List (VtableTraversal Function) := []
  alive : Bool := true
  nextRef : Nat := 0
  nextKey : Nat := 0
  history : List (Item Vtable Function) := []
deriving DecidableEq

variable {Vtable Function : Type}

/-- `iterator->next` is what follows the node; nothing does when the node was freed. -/
def nextOf (iterator : Nat) : List (VTableReference Vtable) → Option (List (VTableReference Vtable))
  | [] => none
  | ref :: it => if ref.id = iterator then some it else nextOf iterator it

variable (exist : Vtable → Function → Bool)

/-- The loop of `NOTIFY_IF_EXIST` from a node on: whose turn it is, and who is called. -/
def nextTurn (f : Function) : List (VTableReference Vtable) →
    List (VTableReference Vtable) × Option (VTableReference Vtable)
  | [] => ([], none)
  | ref :: it =>
    if ref.valid then
      if exist ref.vtable f then ([ref], some ref)
      else (ref :: (nextTurn f it).1, (nextTurn f it).2)
    else nextTurn f it

namespace VtableCore

variable (lc : VtableCore Vtable Function)

/-- `_linphone_core_add_listener` -/
def addListener (vtable : Vtable) (autorelease : Bool) : VtableCore Vtable Function :=
  { lc with
    vtableRefs :=
      lc.vtableRefs ++ [{ id := lc.nextRef, vtable := vtable, autorelease := autorelease }]
    nextRef := lc.nextRef + 1
    history := lc.history ++ [.added lc.nextRef vtable autorelease] }

/-- `linphone_core_remove_listener` -/
def removeListener [DecidableEq Vtable] (vtable : Vtable) : VtableCore Vtable Function :=
  { lc with
    vtableRefs := lc.vtableRefs.map fun ref =>
      if ref.vtable = vtable then { ref with valid := false } else ref
    history := lc.history ++
      (lc.vtableRefs.filter fun ref => decide (ref.vtable = vtable) && ref.valid).map
        fun ref => .removed ref.id }

/-- `cleanup_dead_vtable_refs`: the references are freed, and only they. -/
def cleanupDeadVtableRefs : VtableCore Vtable Function :=
  { lc with
    vtableRefs := lc.vtableRefs.filter (·.valid)
    history := lc.history ++ (lc.vtableRefs.filter fun ref => !ref.valid).map
      fun ref => .freed ref.id false }

/-- The turns of the loop up to a call or the end; each sets `current_vtable`. -/
def turn (turned : List (VTableReference Vtable)) : VtableCore Vtable Function :=
  { lc with
    currentVtable := (turned.getLast?.map (·.vtable)).or lc.currentVtable
    history := lc.history ++ turned.map fun ref => .turned ref.id ref.vtable }

/-- `lc->current_vtable->function_name(...)`; the iterator stays on the reference. -/
def call (key : Nat) (f : Function) (outer : List (VtableTraversal Function))
    (ref : VTableReference Vtable) : VtableCore Vtable Function :=
  { lc with
    traversals := { key := key, function := f, iterator := ref.id } :: outer
    history := lc.history ++ [.called key ref.id] }

/-- The end of a notification. -/
def finish (key : Nat) (outer : List (VtableTraversal Function)) : VtableCore Vtable Function :=
  let lc := lc.cleanupDeadVtableRefs
  { lc with
    traversals := outer
    history := lc.history ++ [.finished key] }

/-- A notification goes on from node `it`, in the `outer` ones, up to a call or its end. -/
def advance (key : Nat) (f : Function) (it : List (VTableReference Vtable))
    (outer : List (VtableTraversal Function)) : VtableCore Vtable Function :=
  match nextTurn exist f it with
  | (turned, some ref) => (lc.turn turned).call key f outer ref
  | (turned, none) => (lc.turn turned).finish key outer

/-- `linphone_core_notify_...`, up to the first call or to its end. -/
def notify (f : Function) : VtableCore Vtable Function :=
  advance exist
    { lc with
      nextKey := lc.nextKey + 1
      history := lc.history ++ [.started lc.nextKey f] }
    lc.nextKey f lc.vtableRefs lc.traversals

/-- The listener that is called returns. -/
def callReturns : Option (VtableCore Vtable Function) :=
  match lc.traversals with
  | [] => none
  | t :: outer =>
    match nextOf t.iterator lc.vtableRefs with
    | some it => some (lc.advance exist t.key t.function it outer)
    | none => some { lc with alive := false, history := lc.history ++ [.usedFreed] }

/-- `linphone_core_get_current_vtable`, asked by the listener that is called. -/
def getCurrentVtable : Option (VtableCore Vtable Function) :=
  match lc.traversals, lc.currentVtable with
  | t :: _, some vtable =>
    some { lc with history := lc.history ++ [.answered t.iterator vtable] }
  | _, _ => none

/-- The end of the core: `v_table_reference_destroy` on each reference. -/
def uninit : Option (VtableCore Vtable Function) :=
  if lc.traversals = [] then
    some { lc with
      vtableRefs := []
      alive := false
      history := lc.history ++ .closed ::
        lc.vtableRefs.map fun ref => .freed ref.id ref.autorelease }
  else none

end VtableCore

/-- What an application does: anything, between calls and from within them. -/
inductive VtableEvent (Vtable Function : Type)
  | addListener (vtable : Vtable) (autorelease : Bool)
  | removeListener (vtable : Vtable)
  | notify (f : Function)
  | callReturns
  | getCurrentVtable
  | uninit

namespace VtableCore

def step [DecidableEq Vtable] (lc : VtableCore Vtable Function) (e : VtableEvent Vtable Function) :
    Option (VtableCore Vtable Function) :=
  if lc.alive then
    match e with
    | .addListener vtable autorelease => some (lc.addListener vtable autorelease)
    | .removeListener vtable => some (lc.removeListener vtable)
    | .notify f => some (lc.notify exist f)
    | .callReturns => lc.callReturns exist
    | .getCurrentVtable => lc.getCurrentVtable
    | .uninit => lc.uninit
  else none

/-! ## The condition -/

/-- The table of the last turn. -/
def lastTurn (l : List (Item Vtable Function)) : Option Vtable :=
  (l.filterMap fun item => match item with
    | .turned _ table => some table
    | _ => none).getLast?

/-- No listener that is being called in an outer notification is removed, and no removed reference
owns its vtable. -/
structure CleanupAllowed (lc : VtableCore Vtable Function)
    (outer : List (VtableTraversal Function)) : Prop where
  standing : ∀ t ∈ outer, ∀ ref ∈ lc.vtableRefs, ref.id = t.iterator → ref.valid = true
  owned : ∀ ref ∈ lc.vtableRefs, ref.valid = false → ref.autorelease = false

/-- A notification only ends when cleanup is allowed, and the current vtable is only asked for
while the last turn was the asking listener's. -/
def Meets (lc : VtableCore Vtable Function) : VtableEvent Vtable Function → Prop
  | .notify f =>
    (nextTurn exist f lc.vtableRefs).2 = none → CleanupAllowed lc lc.traversals
  | .callReturns =>
    ∀ t outer it, lc.traversals = t :: outer → nextOf t.iterator lc.vtableRefs = some it →
      (nextTurn exist t.function it).2 = none → CleanupAllowed lc outer
  | .getCurrentVtable =>
    ∀ t outer, lc.traversals = t :: outer → ∀ ref ∈ lc.vtableRefs, ref.id = t.iterator →
      lastTurn lc.history = some ref.vtable
  | _ => True

/-! ## The list -/

/-- The list says what the history says. -/
structure Listed (refs : List (VTableReference Vtable)) (nextRef : Nat)
    (l : List (Item Vtable Function)) : Prop where
  sorted : refs.Pairwise (·.id < ·.id)
  added_lt : ∀ n table released, .added n table released ∈ l → n < nextRef
  removed_lt : ∀ n, .removed n ∈ l → n < nextRef
  oneTable : ∀ n table released table' released', .added n table released ∈ l →
    .added n table' released' ∈ l → table = table' ∧ released = released'
  freed_removed : ∀ n withTable, .freed n withTable ∈ l → .removed n ∈ l
  known : ∀ ref ∈ refs, .added ref.id ref.vtable ref.autorelease ∈ l
  valid_iff : ∀ ref ∈ refs, ref.valid = true ↔ .removed ref.id ∉ l
  unfreed : ∀ ref ∈ refs, ∀ withTable, .freed ref.id withTable ∉ l
  listed : ∀ n table released, .added n table released ∈ l →
    (∃ ref ∈ refs, ref.id = n) ∨ .removed n ∈ l
  removed_listed : ∀ n, .removed n ∈ l →
    (∃ ref ∈ refs, ref.id = n) ∨ ∃ withTable, .freed n withTable ∈ l

/-- Items that add, remove or free. -/
def isListItem : Item Vtable Function → Bool
  | .added .. | .removed _ | .freed .. => true
  | _ => false

namespace Listed

variable {refs : List (VTableReference Vtable)} {nextRef : Nat} {l : List (Item Vtable Function)}

/-- Other items do not matter. -/
theorem append (h : Listed refs nextRef l) {items : List (Item Vtable Function)}
    (hitems : ∀ item ∈ items, isListItem item = false) : Listed refs nextRef (l ++ items) := by
  have hmem : ∀ item, isListItem item = true → (item ∈ l ++ items ↔ item ∈ l) := by
    intro item hitem
    rw [List.mem_append, or_iff_left]
    exact fun hmem => Bool.false_ne_true ((hitems item hmem).symm.trans hitem)
  have hadded := fun n table released => hmem (.added n table released) rfl
  have hremoved := fun n => hmem (.removed n) rfl
  have hfreed := fun n withTable => hmem (.freed n withTable) rfl
  obtain ⟨h1, h2, h3, h4, h5, h6, h7, h8, h9, h10⟩ := h
  constructor <;> simpa only [hadded, hremoved, hfreed]

/-- A new reference at the end. -/
theorem add (h : Listed refs nextRef l) (vtable : Vtable) (autorelease : Bool) :
    Listed (refs ++ [{ id := nextRef, vtable := vtable, autorelease := autorelease }])
      (nextRef + 1) (l ++ [.added nextRef vtable autorelease]) := by
  have hlt : ∀ ref ∈ refs, ref.id < nextRef := fun ref hr => h.added_lt _ _ _ (h.known ref hr)
  have hnew : ∀ table released, .added nextRef table released ∉ l :=
    fun table released hmem => Nat.lt_irrefl _ (h.added_lt _ _ _ hmem)
  have hunremoved : .removed nextRef ∉ l := fun hmem => Nat.lt_irrefl _ (h.removed_lt _ hmem)
  refine ⟨?_, ?_, ?_, ?_, ?_, ?_, ?_, ?_, ?_, ?_⟩
  · refine List.pairwise_append.mpr
      ⟨h.sorted, List.pairwise_singleton _ _, fun ref hr ref' hr' => ?_⟩
    obtain rfl := List.mem_singleton.mp hr'
    exact hlt ref hr
  · intro n table released hmem
    rcases List.mem_append.mp hmem with hmem | hmem
    · exact Nat.lt_succ_of_lt (h.added_lt n table released hmem)
    · cases List.mem_singleton.mp hmem
      exact Nat.lt_succ_self _
  · intro n hmem
    exact Nat.lt_succ_of_lt (h.removed_lt n (by simpa using hmem))
  · intro n table released table' released' hmem hmem'
    simp only [List.mem_append, List.mem_singleton, Item.added.injEq] at hmem hmem'
    rcases hmem with hmem | ⟨rfl, rfl, rfl⟩ <;> rcases hmem' with hmem' | ⟨heq, rfl, rfl⟩
    · exact h.oneTable n _ _ _ _ hmem hmem'
    · exact absurd hmem (heq ▸ hnew _ _)
    · exact absurd hmem' (hnew _ _)
    · exact ⟨rfl, rfl⟩
  · intro n withTable hmem
    exact List.mem_append_left _ (h.freed_removed n withTable (by simpa using hmem))
  · intro ref hr
    rcases List.mem_append.mp hr with hr | hr
    · exact List.mem_append_left _ (h.known ref hr)
    · obtain rfl := List.mem_singleton.mp hr
      exact List.mem_append_right _ List.mem_cons_self
  · intro ref hr
    rw [show .removed ref.id ∈ l ++ [.added nextRef vtable autorelease] ↔ .removed ref.id ∈ l by
      simp]
    rcases List.mem_append.mp hr with hr | hr
    · exact h.valid_iff ref hr
    · obtain rfl := List.mem_singleton.mp hr
      exact ⟨fun _ => hunremoved, fun _ => rfl⟩
  · intro ref hr withTable hmem
    have hmem : .freed ref.id withTable ∈ l := by simpa using hmem
    rcases List.mem_append.mp hr with hr | hr
    · exact h.unfreed ref hr withTable hmem
    · obtain rfl := List.mem_singleton.mp hr
      exact hunremoved (h.freed_removed _ _ hmem)
  · intro n table released hmem
    rcases List.mem_append.mp hmem with hmem | hmem
    · rcases h.listed n table released hmem with ⟨ref, hr, hid⟩ | hremoved
      · exact Or.inl ⟨ref, List.mem_append_left _ hr, hid⟩
      · exact Or.inr (List.mem_append_left _ hremoved)
    · cases List.mem_singleton.mp hmem
      exact Or.inl ⟨_, List.mem_append_right _ List.mem_cons_self, rfl⟩
  · intro n hmem
    rcases h.removed_listed n (by simpa using hmem) with ⟨ref, hr, hid⟩ | ⟨withTable, hfreed⟩
    · exact Or.inl ⟨ref, List.mem_append_left _ hr, hid⟩
    · exact Or.inr ⟨withTable, List.mem_append_left _ hfreed⟩

/-- References are marked. -/
theorem remove [DecidableEq Vtable] (h : Listed refs nextRef l) (vtable : Vtable) :
    Listed (refs.map fun ref => if ref.vtable = vtable then { ref with valid := false } else ref)
      nextRef (l ++ (refs.filter fun ref => decide (ref.vtable = vtable) && ref.valid).map
        fun ref => .removed ref.id) := by
  have hids : ∀ n, (∃ ref ∈ refs, ref.id = n) →
      ∃ ref ∈ refs.map fun ref => if ref.vtable = vtable then { ref with valid := false } else ref,
        ref.id = n := by
    rintro n ⟨ref, hr, rfl⟩
    exact ⟨_, List.mem_map_of_mem hr, by split <;> rfl⟩
  have hadded : ∀ n table released,
      .added n table released ∈ l ++ (refs.filter fun ref =>
        decide (ref.vtable = vtable) && ref.valid).map (fun ref => .removed ref.id) ↔
      .added n table released ∈ l := by simp
  have hfreed : ∀ n withTable,
      .freed n withTable ∈ l ++ (refs.filter fun ref =>
        decide (ref.vtable = vtable) && ref.valid).map (fun ref => .removed ref.id) ↔
      .freed n withTable ∈ l := by simp
  have hremoved : ∀ n,
      .removed n ∈ l ++ (refs.filter fun ref =>
        decide (ref.vtable = vtable) && ref.valid).map (fun ref => .removed ref.id) ↔
      .removed n ∈ l ∨ ∃ ref ∈ refs, ref.vtable = vtable ∧ ref.valid = true ∧ ref.id = n := by
    simp [and_assoc]
  have hsame : ∀ ref ∈ refs, ∀ ref' ∈ refs, ref.id = ref'.id → ref.vtable = ref'.vtable :=
    fun ref hr ref' hr' hid =>
      (h.oneTable ref.id _ _ _ _ (h.known ref hr) (hid ▸ h.known ref' hr')).1
  refine ⟨?_, ?_, ?_, ?_, ?_, ?_, ?_, ?_, ?_, ?_⟩
  · refine List.pairwise_map.mpr (h.sorted.imp fun {ref ref'} hlt => ?_)
    split <;> split <;> exact hlt
  · exact fun n table released hmem => h.added_lt n table released ((hadded _ _ _).mp hmem)
  · intro n hmem
    rcases (hremoved n).mp hmem with hmem | ⟨ref, hr, -, -, rfl⟩
    · exact h.removed_lt n hmem
    · exact h.added_lt _ _ _ (h.known ref hr)
  · exact fun n table released table' released' hmem hmem' =>
      h.oneTable n _ _ _ _ ((hadded _ _ _).mp hmem) ((hadded _ _ _).mp hmem')
  · exact fun n withTable hmem =>
      List.mem_append_left _ (h.freed_removed n withTable ((hfreed _ _).mp hmem))
  · intro ref' hr'
    obtain ⟨ref, hr, rfl⟩ := List.mem_map.mp hr'
    refine (hadded _ _ _).mpr ?_
    split <;> exact h.known ref hr
  · intro ref' hr'
    obtain ⟨ref, hr, rfl⟩ := List.mem_map.mp hr'
    by_cases hvtable : ref.vtable = vtable
    · simp only [hvtable, if_true, Bool.false_eq_true, false_iff, not_not]
      by_cases hvalid : ref.valid = true
      · exact (hremoved _).mpr (Or.inr ⟨ref, hr, hvtable, hvalid, rfl⟩)
      · refine (hremoved _).mpr (Or.inl ?_)
        by_contra hunremoved
        exact hvalid ((h.valid_iff ref hr).mpr hunremoved)
    · simp only [hvtable, if_false]
      rw [h.valid_iff ref hr, hremoved, not_or, iff_self_and]
      rintro - ⟨ref', hr', hvtable', -, hid⟩
      exact hvtable ((hsame ref hr ref' hr' hid.symm).trans hvtable')
  · intro ref' hr' withTable hmem
    obtain ⟨ref, hr, rfl⟩ := List.mem_map.mp hr'
    refine h.unfreed ref hr withTable ((hfreed _ _).mp ?_)
    split at hmem <;> exact hmem
  · intro n table released hmem
    rcases h.listed n table released ((hadded _ _ _).mp hmem) with hlisted | hmem
    · exact Or.inl (hids n hlisted)
    · exact Or.inr (List.mem_append_left _ hmem)
  · intro n hmem
    rcases (hremoved n).mp hmem with hmem | ⟨ref, hr, -, -, hid⟩
    · rcases h.removed_listed n hmem with hlisted | ⟨withTable, hmem⟩
      · exact Or.inl (hids n hlisted)
      · exact Or.inr ⟨withTable, List.mem_append_left _ hmem⟩
    · exact Or.inl (hids n ⟨ref, hr, hid⟩)

/-- Marked references are freed. -/
theorem cleanup (h : Listed refs nextRef l) :
    Listed (refs.filter (·.valid)) nextRef
      (l ++ (refs.filter fun ref => !ref.valid).map fun ref => .freed ref.id false) := by
  have hadded : ∀ n table released,
      .added n table released ∈ l ++ (refs.filter fun ref => !ref.valid).map
        (fun ref => .freed ref.id false) ↔ .added n table released ∈ l := by simp
  have hremoved : ∀ n,
      .removed n ∈ l ++ (refs.filter fun ref => !ref.valid).map
        (fun ref => .freed ref.id false) ↔ .removed n ∈ l := by simp
  have hmarked : ∀ ref ∈ refs, ref.valid = false → .removed ref.id ∈ l := by
    intro ref hr hvalid
    by_contra hunremoved
    exact Bool.false_ne_true (hvalid.symm.trans ((h.valid_iff ref hr).mpr hunremoved))
  have hfreed : ∀ n withTable,
      .freed n withTable ∈ l ++ (refs.filter fun ref => !ref.valid).map
        (fun ref => .freed ref.id false) →
      .freed n withTable ∈ l ∨ ∃ ref ∈ refs, ref.valid = false ∧ ref.id = n := by
    intro n withTable hmem
    rcases List.mem_append.mp hmem with hmem | hmem
    · exact Or.inl hmem
    · obtain ⟨ref, hr, heq⟩ := List.mem_map.mp hmem
      obtain ⟨hr, hvalid⟩ := List.mem_filter.mp hr
      cases heq
      exact Or.inr ⟨ref, hr, by simpa using hvalid, rfl⟩
  refine ⟨h.sorted.filter _, ?_, ?_, ?_, ?_, ?_, ?_, ?_, ?_, ?_⟩
  · exact fun n table released hmem => h.added_lt n table released ((hadded _ _ _).mp hmem)
  · exact fun n hmem => h.removed_lt n ((hremoved n).mp hmem)
  · exact fun n table released table' released' hmem hmem' =>
      h.oneTable n _ _ _ _ ((hadded _ _ _).mp hmem) ((hadded _ _ _).mp hmem')
  · intro n withTable hmem
    rcases hfreed n withTable hmem with hmem | ⟨ref, hr, hvalid, rfl⟩
    · exact List.mem_append_left _ (h.freed_removed n withTable hmem)
    · exact List.mem_append_left _ (hmarked ref hr hvalid)
  · exact fun ref hr => (hadded _ _ _).mpr (h.known ref (List.mem_filter.mp hr).1)
  · intro ref hr
    rw [h.valid_iff ref (List.mem_filter.mp hr).1, hremoved]
  · intro ref hr withTable hmem
    obtain ⟨hr, hvalid⟩ := List.mem_filter.mp hr
    rcases hfreed ref.id withTable hmem with hmem | ⟨ref', hr', hvalid', hid⟩
    · exact h.unfreed ref hr withTable hmem
    · exact (h.valid_iff ref hr).mp hvalid (hid ▸ hmarked ref' hr' hvalid')
  · intro n table released hmem
    rcases h.listed n table released ((hadded _ _ _).mp hmem) with ⟨ref, hr, rfl⟩ | hmem
    · by_cases hvalid : ref.valid = true
      · exact Or.inl ⟨ref, List.mem_filter.mpr ⟨hr, hvalid⟩, rfl⟩
      · exact Or.inr (List.mem_append_left _ (hmarked ref hr (by simpa using hvalid)))
    · exact Or.inr (List.mem_append_left _ hmem)
  · intro n hmem
    rcases h.removed_listed n ((hremoved n).mp hmem) with ⟨ref, hr, rfl⟩ | ⟨withTable, hmem⟩
    · by_cases hvalid : ref.valid = true
      · exact Or.inl ⟨ref, List.mem_filter.mpr ⟨hr, hvalid⟩, rfl⟩
      · exact Or.inr ⟨false, List.mem_append_right _
          (List.mem_map.mpr ⟨ref, List.mem_filter.mpr ⟨hr, by simpa using hvalid⟩, rfl⟩)⟩
    · exact Or.inr ⟨withTable, List.mem_append_left _ hmem⟩

end Listed

/-! ## The notifications under way -/

/-- A traversal stands on a reference of the list; up to there everybody was called. -/
structure Underway (refs : List (VTableReference Vtable)) (l : List (Item Vtable Function))
    (t : VtableTraversal Function) : Prop where
  standing : ∃ ref ∈ refs, ref.id = t.iterator
  began : .started t.key t.function ∈ l
  last : ∀ n, .called t.key n ∈ l → n ≤ t.iterator
  passed : ServedBelow exist l t.key (· ≤ t.iterator)

variable {exist}

/-- What happens elsewhere does not matter, as long as its reference stays in the list. -/
theorem Underway.append {refs refs' : List (VTableReference Vtable)}
    {l items : List (Item Vtable Function)} {t : VtableTraversal Function}
    (h : Underway exist refs l t) (hstanding : ∃ ref ∈ refs', ref.id = t.iterator)
    (hcalled : ∀ n, .called t.key n ∉ items) (hstarted : ∀ f, .started t.key f ∉ items)
    (hadded : ∀ n table released, .added n table released ∈ items → t.iterator < n) :
    Underway exist refs' (l ++ items) t := by
  refine ⟨hstanding, List.mem_append_left _ h.began, fun n hmem => ?_,
    fun f n table released hstart hn hmem htakes => ?_⟩
  · rcases List.mem_append.mp hmem with hmem | hmem
    · exact h.last n hmem
    · exact absurd hmem (hcalled n)
  · have hstart := (List.mem_append.mp hstart).resolve_right (hstarted f)
    have hmem := (List.mem_append.mp hmem).resolve_right fun hmem =>
      absurd (hadded n table released hmem) (Nat.not_lt.mpr hn)
    exact (h.passed f n table released hstart hn hmem htakes).imp
      (List.mem_append_left _) (List.mem_append_left _)

/-- The notifications the history tells of. -/
structure Keyed (nextKey : Nat) (l : List (Item Vtable Function)) : Prop where
  started_lt : ∀ k f, .started k f ∈ l → k < nextKey
  called_lt : ∀ k n, .called k n ∈ l → k < nextKey
  oneCall : ∀ k f f', .started k f ∈ l → .started k f' ∈ l → f = f'

theorem Keyed.append {nextKey : Nat} {l items : List (Item Vtable Function)} (h : Keyed nextKey l)
    (hstarted : ∀ k f, .started k f ∉ items) (hcalled : ∀ k n, .called k n ∈ items → k < nextKey) :
    Keyed nextKey (l ++ items) where
  started_lt k f hmem :=
    h.started_lt k f ((List.mem_append.mp hmem).resolve_right (hstarted k f))
  called_lt k n hmem := (List.mem_append.mp hmem).elim (h.called_lt k n) (hcalled k n)
  oneCall k f f' hmem hmem' :=
    h.oneCall k f f' ((List.mem_append.mp hmem).resolve_right (hstarted k f))
      ((List.mem_append.mp hmem').resolve_right (hstarted k f'))

variable (exist) in
/-- The state and its history agree, and all went well so far. -/
structure Consistent (lc : VtableCore Vtable Function) : Prop where
  listed : Listed lc.vtableRefs lc.nextRef lc.history
  keyed : Keyed lc.nextKey lc.history
  underway : ∀ t ∈ lc.traversals, Underway exist lc.vtableRefs lc.history t
  keys : lc.traversals.Pairwise (·.key ≠ ·.key)
  current : lc.currentVtable = lastTurn lc.history
  lawful : Lawful exist lc.history

variable (exist) in
/-- A notification on its way from node `it` on, in the `outer` ones. -/
structure Walking (lc : VtableCore Vtable Function) (key : Nat) (f : Function)
    (it : List (VTableReference Vtable)) (outer : List (VtableTraversal Function)) : Prop where
  rest : Consistent exist { lc with traversals := outer }
  fresh : ∀ t ∈ outer, t.key ≠ key
  began : .started key f ∈ lc.history
  ends : ∃ done, lc.vtableRefs = done ++ it
  ahead : ∀ n, .called key n ∈ lc.history → ∀ ref ∈ it, n < ref.id
  behind : ∀ n table released, .added n table released ∈ lc.history → exist table f = true →
    (∃ ref ∈ it, ref.id = n) ∨ .called key n ∈ lc.history ∨ .removed n ∈ lc.history

/-! ## Turns -/

theorem nextTurn_some {f : Function} {it turned : List (VTableReference Vtable)}
    {ref : VTableReference Vtable} (h : nextTurn exist f it = (turned, some ref)) :
    ref.valid = true ∧ ∃ skipped rest, it = skipped ++ ref :: rest ∧
      ∀ ref' ∈ skipped, ref'.valid = true → exist ref'.vtable f = false := by
  induction it generalizing turned with
  | nil => cases h
  | cons ref' it ih =>
    rw [nextTurn] at h
    split at h
    · next hvalid =>
      split at h
      · cases h
        exact ⟨hvalid, [], it, rfl, fun _ hmem => absurd hmem List.not_mem_nil⟩
      · next htakes =>
        obtain ⟨hturned, hcalled⟩ := Prod.mk.inj h
        obtain ⟨hv, skipped, rest, rfl, hskipped⟩ := ih (Prod.ext rfl hcalled)
        refine ⟨hv, ref' :: skipped, rest, rfl, fun r hr hvr => ?_⟩
        rcases List.mem_cons.mp hr with rfl | hr
        · simpa using htakes
        · exact hskipped r hr hvr
    · next hvalid =>
      obtain ⟨hv, skipped, rest, rfl, hskipped⟩ := ih h
      refine ⟨hv, ref' :: skipped, rest, rfl, fun r hr hvr => ?_⟩
      rcases List.mem_cons.mp hr with rfl | hr
      · exact absurd hvr hvalid
      · exact hskipped r hr hvr

theorem nextTurn_none {f : Function} {it : List (VTableReference Vtable)}
    (h : (nextTurn exist f it).2 = none) :
    ∀ ref ∈ it, ref.valid = true → exist ref.vtable f = false := by
  induction it with
  | nil => exact fun _ hmem => absurd hmem List.not_mem_nil
  | cons ref' it ih =>
    rw [nextTurn] at h
    intro ref hr hvalid
    split at h
    · split at h
      · cases h
      · next htakes =>
        rcases List.mem_cons.mp hr with rfl | hr
        · simpa using htakes
        · exact ih h ref hr hvalid
    · next hinvalid =>
      rcases List.mem_cons.mp hr with rfl | hr
      · exact absurd hvalid hinvalid
      · exact ih h ref hr hvalid

/-- The last turn after some more. -/
theorem lastTurn_append_turned (l : List (Item Vtable Function))
    (turned : List (VTableReference Vtable)) :
    lastTurn (l ++ turned.map fun ref => .turned ref.id ref.vtable) =
      (turned.getLast?.map (·.vtable)).or (lastTurn l) := by
  have hmap : (turned.map fun ref => (.turned ref.id ref.vtable : Item Vtable Function)).filterMap
      (fun item => match item with | .turned _ table => some table | _ => none) =
      turned.map (·.vtable) := by
    rw [List.filterMap_map]
    exact List.filterMap_eq_map.symm ▸ rfl
  rw [lastTurn, List.filterMap_append, hmap, List.getLast?_append, List.getLast?_map]
  rfl

theorem lastTurn_append {l items : List (Item Vtable Function)}
    (hitems : ∀ n table, .turned n table ∉ items) : lastTurn (l ++ items) = lastTurn l := by
  have hnil : items.filterMap
      (fun item => match item with | .turned _ table => some table | _ => none) = [] := by
    refine List.filterMap_eq_nil_iff.mpr fun item hmem => ?_
    split
    · exact absurd hmem (hitems _ _)
    · rfl
  rw [lastTurn, List.filterMap_append, hnil, List.append_nil]
  rfl

/-! ## One notification -/

/-- References may be freed that are removed, or when all is over; with the vtables they own. -/
theorem lawful_freed {refs : List (VTableReference Vtable)} {nextRef : Nat}
    {l : List (Item Vtable Function)} (h : Listed refs nextRef l) (hlawful : Lawful exist l)
    (dead withVtable : VTableReference Vtable → Bool)
    (hdead : ∀ ref ∈ refs, dead ref = true → .removed ref.id ∈ l ∨ .closed ∈ l)
    (hvtable : ∀ ref ∈ refs, dead ref = true → withVtable ref = ref.autorelease) :
    Lawful exist (l ++ (refs.filter dead).map fun ref => .freed ref.id (withVtable ref)) := by
  refine lawful_append exist hlawful fun before item hbegin => ?_
  obtain ⟨after, hitems⟩ := hbegin
  obtain ⟨first, others, hsplit, hfirst, -⟩ := List.map_eq_append_iff.mp hitems.symm
  obtain ⟨past, last, rfl, rfl, hlast⟩ := List.map_eq_append_iff.mp hfirst
  obtain ⟨ref, rfl, rfl⟩ := List.map_eq_singleton_iff.mp hlast
  have hmem : ref ∈ refs.filter dead := by simp [hsplit]
  obtain ⟨hr, hd⟩ := List.mem_filter.mp hmem
  have hsorted := h.sorted.filter dead
  rw [hsplit, List.append_assoc, List.pairwise_append] at hsorted
  refine ⟨(hdead ref hr hd).imp (List.mem_append_left _) (List.mem_append_left _),
    fun withTable hmem => ?_, fun table released hmem => ?_⟩
  · rcases List.mem_append.mp hmem with hmem | hmem
    · exact h.unfreed ref hr withTable hmem
    · obtain ⟨ref', hr', heq⟩ := List.mem_map.mp hmem
      have hlt := hsorted.2.2 ref' hr' ref (by simp)
      obtain ⟨hid, -⟩ := Item.freed.inj heq
      omega
  · have hmem : .added ref.id table released ∈ l := by simpa using hmem
    rw [(h.oneTable _ _ _ _ _ hmem (h.known ref hr)).2, hvtable ref hr hd]

namespace Walking

variable {lc : VtableCore Vtable Function} {key : Nat} {f : Function}
  {it : List (VTableReference Vtable)} {outer : List (VtableTraversal Function)}

theorem turn (h : Walking exist lc key f it outer) (turned : List (VTableReference Vtable)) :
    Walking exist (lc.turn turned) key f it outer := by
  have hmem : ∀ {item : Item Vtable Function}, (∀ n table, item ≠ .turned n table) →
      (item ∈ (lc.turn turned).history ↔ item ∈ lc.history) := by
    intro item hitem
    simp only [VtableCore.turn, List.mem_append, or_iff_left_iff_imp, List.mem_map]
    rintro ⟨ref, -, rfl⟩
    exact absurd rfl (hitem _ _)
  refine ⟨⟨?_, ?_, fun t ht => ?_, h.rest.keys, ?_, ?_⟩, h.fresh, (hmem (by simp)).mpr h.began,
    h.ends, fun n hcalled => h.ahead n ((hmem (by simp)).mp hcalled),
    fun n table released hadded htakes => ?_⟩
  · exact h.rest.listed.append (by simp [isListItem])
  · exact h.rest.keyed.append (by simp) (by simp)
  · have hunder := h.rest.underway t ht
    exact hunder.append hunder.standing (by simp) (by simp) (by simp)
  · exact (congrArg _ h.rest.current).trans (lastTurn_append_turned lc.history turned).symm
  · exact lawful_append_free exist h.rest.lawful (by simp [Ok])
  · rw [hmem (by simp), hmem (by simp)]
    exact h.behind n table released ((hmem (by simp)).mp hadded) htakes

/-- The references before the one whose turn it is are done with. -/
theorem servedBelow (h : Walking exist lc key f it outer) {bound : Nat → Prop}
    (hskipped : ∀ ref ∈ it, bound ref.id → ref.valid = true → exist ref.vtable f = false) :
    ServedBelow exist lc.history key bound := by
  intro f' n table released hstarted hn hadded htakes
  obtain rfl := h.rest.keyed.oneCall key f' f hstarted h.began
  rcases h.behind n table released hadded htakes with ⟨ref, hr, rfl⟩ | hdone
  · refine Or.inr ?_
    obtain ⟨done, hends⟩ := h.ends
    have hmem : ref ∈ lc.vtableRefs := hends ▸ List.mem_append_right done hr
    have htable := (h.rest.listed.oneTable _ _ _ _ _ hadded (h.rest.listed.known ref hmem)).1
    by_contra hunremoved
    have hnot := hskipped ref hr hn ((h.rest.listed.valid_iff ref hmem).mpr hunremoved)
    rw [← htable, htakes] at hnot
    cases hnot
  · exact hdone

/-- A listener is called. -/
theorem call {ref : VTableReference Vtable} {skipped rest : List (VTableReference Vtable)}
    (h : Walking exist lc key f it outer) (hit : it = skipped ++ ref :: rest)
    (hvalid : ref.valid = true)
    (hskipped : ∀ ref' ∈ skipped, ref'.valid = true → exist ref'.vtable f = false) :
    Consistent exist (lc.call key f outer ref) := by
  obtain ⟨done, hends⟩ := h.ends
  have hmem : ref ∈ lc.vtableRefs := by simp [hends, hit]
  have hsorted := h.rest.listed.sorted
  have hbelow : ServedBelow exist lc.history key (· < ref.id) := by
    refine h.servedBelow fun ref' hr hlt hv => hskipped ref' ?_ hv
    simp only [hends, hit, ← List.append_assoc] at hsorted
    rw [List.pairwise_append, List.pairwise_cons] at hsorted
    rw [hit, List.mem_append, List.mem_cons] at hr
    rcases hr with hr | rfl | hr
    · exact hr
    · exact absurd hlt (Nat.lt_irrefl _)
    · exact absurd hlt (Nat.lt_asymm (hsorted.2.1.1 ref' hr))
  have hahead : ∀ n, .called key n ∈ lc.history → n < ref.id :=
    fun n hn => h.ahead n hn ref (by simp [hit])
  have hok : Ok exist lc.history (.called key ref.id) :=
    ⟨⟨⟨_, _, h.rest.listed.known ref hmem⟩, (h.rest.listed.valid_iff ref hmem).mp hvalid⟩,
      hahead, hbelow⟩
  have hkey : key < lc.nextKey := h.rest.keyed.started_lt key f h.began
  refine ⟨h.rest.listed.append (by simp [isListItem]), h.rest.keyed.append (by simp) ?_, ?_,
    List.pairwise_cons.mpr ⟨fun t ht => (h.fresh t ht).symm, h.rest.keys⟩, ?_,
    lawful_append_singleton exist h.rest.lawful hok⟩
  · intro k n hk
    cases List.mem_singleton.mp hk
    exact hkey
  · intro t ht
    rcases List.mem_cons.mp ht with rfl | ht
    · refine ⟨⟨ref, hmem, rfl⟩, List.mem_append_left _ h.began, fun n hn => ?_,
        fun f' n table released hstarted hle hadded htakes => ?_⟩
      · rcases List.mem_append.mp hn with hn | hn
        · exact Nat.le_of_lt (hahead n hn)
        · cases List.mem_singleton.mp hn
          exact Nat.le_refl _
      · rcases Nat.lt_or_eq_of_le hle with hlt | rfl
        · exact (hbelow f' n table released (by simpa [VtableCore.call] using hstarted) hlt
            (by simpa [VtableCore.call] using hadded) htakes).imp
            (List.mem_append_left _) (List.mem_append_left _)
        · exact Or.inl (List.mem_append_right _ (List.mem_singleton_self _))
    · have hunder := h.rest.underway t ht
      have hne := h.fresh t ht
      exact hunder.append hunder.standing (by simp [hne]) (by simp) (by simp)
  · exact h.rest.current.trans (lastTurn_append (by simp)).symm

/-- A notification ends. -/
theorem finish (h : Walking exist lc key f it outer)
    (hnone : ∀ ref ∈ it, ref.valid = true → exist ref.vtable f = false)
    (hallowed : CleanupAllowed lc outer) : Consistent exist (lc.finish key outer) := by
  have hlisted := h.rest.listed.cleanup
  have hlawful : Lawful exist lc.cleanupDeadVtableRefs.history := by
    refine lawful_freed h.rest.listed h.rest.lawful _ _ (fun ref hr hdead => Or.inl ?_)
      fun ref hr hdead => (hallowed.owned ref hr (by simpa using hdead)).symm
    by_contra hunremoved
    have hvalid := (h.rest.listed.valid_iff ref hr).mpr hunremoved
    simp [hvalid] at hdead
  have hbelow : ServedBelow exist lc.history key fun _ => True :=
    h.servedBelow fun ref hr _ => hnone ref hr
  have hok : Ok exist lc.cleanupDeadVtableRefs.history (.finished key) := by
    refine ⟨fun f' n table released hstarted _ hadded htakes => ?_, fun n hmem => ?_⟩
    · exact (hbelow f' n table released (by simpa [cleanupDeadVtableRefs] using hstarted) trivial
        (by simpa [cleanupDeadVtableRefs] using hadded) htakes).imp
        (List.mem_append_left _) (List.mem_append_left _)
    · rcases hlisted.removed_listed n hmem with ⟨ref, hr, rfl⟩ | hfreed
      · exact absurd hmem ((hlisted.valid_iff ref hr).mp (List.mem_filter.mp hr).2)
      · exact hfreed
  refine ⟨hlisted.append (by simp [isListItem]),
    (h.rest.keyed.append (by simp) (by simp)).append (by simp) (by simp), fun t ht => ?_,
    h.rest.keys, ?_, lawful_append_singleton exist hlawful hok⟩
  · have hunder := h.rest.underway t ht
    obtain ⟨ref, hr, hid⟩ := hunder.standing
    have hstanding : ∃ ref ∈ lc.vtableRefs.filter (·.valid), ref.id = t.iterator :=
      ⟨ref, List.mem_filter.mpr ⟨hr, hallowed.standing t ht ref hr hid⟩, hid⟩
    exact (hunder.append hstanding (by simp) (by simp) (by simp)).append hstanding
      (by simp) (by simp) (by simp)
  · exact h.rest.current.trans
      ((lastTurn_append (by simp)).trans (lastTurn_append (by simp))).symm

/-- A notification goes on. -/
theorem advance (h : Walking exist lc key f it outer)
    (hallowed : (nextTurn exist f it).2 = none → CleanupAllowed lc outer) :
    Consistent exist (lc.advance exist key f it outer) := by
  unfold VtableCore.advance
  split
  · next turned ref heq =>
    obtain ⟨hvalid, skipped, rest, hit, hskipped⟩ := nextTurn_some heq
    exact (h.turn turned).call hit hvalid hskipped
  · next turned heq =>
    have hnone : (nextTurn exist f it).2 = none := by rw [heq]
    obtain ⟨hstanding, howned⟩ := hallowed hnone
    exact (h.turn turned).finish (nextTurn_none hnone) ⟨hstanding, howned⟩

end Walking

/-! ## What the application does -/

section Operations

variable {lc lc' : VtableCore Vtable Function}

theorem init_consistent : Consistent exist ({} : VtableCore Vtable Function) where
  listed := by constructor <;> simp
  keyed := by constructor <;> simp
  underway := by simp
  keys := List.Pairwise.nil
  current := rfl
  lawful := lawful_nil exist

theorem addListener_consistent (h : Consistent exist lc) (vtable : Vtable) (autorelease : Bool) :
    Consistent exist (lc.addListener vtable autorelease) := by
  have hlt : ∀ ref ∈ lc.vtableRefs, ref.id < lc.nextRef :=
    fun ref hr => h.listed.added_lt _ _ _ (h.listed.known ref hr)
  refine ⟨h.listed.add vtable autorelease, h.keyed.append (by simp) (by simp), fun t ht => ?_,
    h.keys, h.current.trans (lastTurn_append (by simp)).symm,
    lawful_append_singleton exist h.lawful fun n' table released hmem =>
      h.listed.added_lt n' table released hmem⟩
  have hunder := h.underway t ht
  obtain ⟨ref, hr, hid⟩ := hunder.standing
  refine hunder.append ⟨ref, List.mem_append_left _ hr, hid⟩ (by simp) (by simp)
    fun n table released hmem => ?_
  cases List.mem_singleton.mp hmem
  exact hid ▸ hlt ref hr

theorem removeListener_consistent [DecidableEq Vtable] (h : Consistent exist lc)
    (vtable : Vtable) : Consistent exist (lc.removeListener vtable) := by
  refine ⟨h.listed.remove vtable, h.keyed.append (by simp) (by simp), fun t ht => ?_, h.keys,
    h.current.trans (lastTurn_append (by simp)).symm,
    lawful_append_free exist h.lawful fun item hitem l => ?_⟩
  · have hunder := h.underway t ht
    obtain ⟨ref, hr, hid⟩ := hunder.standing
    refine hunder.append ⟨_, List.mem_map_of_mem hr, ?_⟩ (by simp) (by simp) (by simp)
    split <;> exact hid
  · obtain ⟨ref, -, rfl⟩ := List.mem_map.mp hitem
    trivial

theorem notify_consistent (h : Consistent exist lc) (f : Function)
    (hmeets : Meets exist lc (.notify f)) : Consistent exist (lc.notify exist f) := by
  have hkey : ∀ f', .started lc.nextKey f' ∉ lc.history :=
    fun f' hmem => Nat.lt_irrefl _ (h.keyed.started_lt _ _ hmem)
  refine Walking.advance ⟨⟨h.listed.append (by simp [isListItem]), ⟨?_, ?_, ?_⟩,
    fun t ht => ?_, h.keys, h.current.trans (lastTurn_append (by simp)).symm,
    lawful_append_singleton exist h.lawful trivial⟩, fun t ht => ?_, by simp, ⟨[], rfl⟩,
    fun n hmem => ?_, fun n table released hmem htakes => ?_⟩ fun hnone => ?_
  · intro k f' hmem
    rcases List.mem_append.mp hmem with hmem | hmem
    · exact Nat.lt_succ_of_lt (h.keyed.started_lt k f' hmem)
    · cases List.mem_singleton.mp hmem
      exact Nat.lt_succ_self _
  · intro k n hmem
    exact Nat.lt_succ_of_lt (h.keyed.called_lt k n (by simpa using hmem))
  · intro k f₁ f₂ hmem₁ hmem₂
    simp only [List.mem_append, List.mem_singleton, Item.started.injEq] at hmem₁ hmem₂
    rcases hmem₁ with hmem₁ | ⟨rfl, rfl⟩ <;> rcases hmem₂ with hmem₂ | ⟨heq, rfl⟩
    · exact h.keyed.oneCall k f₁ f₂ hmem₁ hmem₂
    · exact absurd hmem₁ (heq ▸ hkey f₁)
    · exact absurd hmem₂ (hkey f₂)
    · rfl
  · have hunder := h.underway t ht
    have hne : t.key ≠ lc.nextKey :=
      Nat.ne_of_lt (h.keyed.started_lt _ _ hunder.began)
    exact hunder.append hunder.standing (by simp) (by simp [hne]) (by simp)
  · exact Nat.ne_of_lt (h.keyed.started_lt _ _ (h.underway t ht).began)
  · exact absurd (h.keyed.called_lt _ _ (by simpa using hmem)) (Nat.lt_irrefl _)
  · rcases h.listed.listed n table released (by simpa using hmem) with hlisted | hmem
    · exact Or.inl hlisted
    · exact Or.inr (Or.inr (List.mem_append_left _ hmem))
  · obtain ⟨hstanding, howned⟩ := hmeets hnone
    exact ⟨hstanding, howned⟩

/-- A node of the list has a next. -/
theorem nextOf_of_mem {iterator : Nat} {refs : List (VTableReference Vtable)}
    (h : ∃ ref ∈ refs, ref.id = iterator) :
    ∃ it done ref, nextOf iterator refs = some it ∧ refs = done ++ ref :: it ∧
      ref.id = iterator := by
  induction refs with
  | nil => simp at h
  | cons ref' refs ih =>
    rw [nextOf]
    by_cases hid : ref'.id = iterator
    · exact ⟨refs, [], ref', if_pos hid, rfl, hid⟩
    · obtain ⟨ref, hr, href⟩ := h
      have hr : ref ∈ refs := (List.mem_cons.mp hr).resolve_left fun heq => hid (heq ▸ href)
      obtain ⟨it, done, ref'', hnext, rfl, hid'⟩ := ih ⟨ref, hr, href⟩
      exact ⟨it, ref' :: done, ref'', by rw [if_neg hid, hnext], rfl, hid'⟩

theorem callReturns_consistent (h : Consistent exist lc) (hmeets : Meets exist lc .callReturns)
    (hstep : lc.callReturns exist = some lc') : Consistent exist lc' := by
  unfold callReturns at hstep
  cases htraversals : lc.traversals with
  | nil => simp [htraversals] at hstep
  | cons t outer =>
    have hunder := h.underway t (by simp [htraversals])
    have hkeys := h.keys
    rw [htraversals, List.pairwise_cons] at hkeys
    obtain ⟨it, done, ref, hnext, hrefs, hid⟩ := nextOf_of_mem hunder.standing
    simp only [htraversals, hnext, Option.some.injEq] at hstep
    subst hstep
    have hsorted := h.listed.sorted
    rw [hrefs, List.pairwise_append, List.pairwise_cons] at hsorted
    refine Walking.advance ⟨⟨h.listed, h.keyed,
      fun t' ht' => h.underway t' (by simp [htraversals, ht']), hkeys.2, h.current, h.lawful⟩,
      fun t' ht' => (hkeys.1 t' ht').symm, hunder.began, ⟨done ++ [ref], by simp [hrefs]⟩,
      fun n hmem ref' hr' => ?_, fun n table released hadded htakes => ?_⟩
        (hmeets t outer it htraversals hnext)
    · exact Nat.lt_of_le_of_lt (hunder.last n hmem) (hid ▸ hsorted.2.1.1 ref' hr')
    · rcases h.listed.listed n table released hadded with ⟨ref', hr', rfl⟩ | hmem
      · rw [hrefs, List.mem_append, List.mem_cons] at hr'
        rcases hr' with hr' | rfl | hr'
        · exact Or.inr (hunder.passed _ _ _ _ hunder.began
            (hid ▸ Nat.le_of_lt (hsorted.2.2 ref' hr' ref List.mem_cons_self)) hadded htakes)
        · exact Or.inr (hunder.passed _ _ _ _ hunder.began (Nat.le_of_eq hid) hadded htakes)
        · exact Or.inl ⟨ref', hr', rfl⟩
      · exact Or.inr (Or.inr hmem)

theorem getCurrentVtable_consistent (h : Consistent exist lc)
    (hmeets : Meets exist lc .getCurrentVtable) (hstep : lc.getCurrentVtable = some lc') :
    Consistent exist lc' := by
  unfold getCurrentVtable at hstep
  split at hstep
  · next t outer vtable htraversals hcurrent =>
    cases hstep
    have hunder := h.underway t (by simp [htraversals])
    obtain ⟨ref, hr, hid⟩ := hunder.standing
    have hown : some vtable = some ref.vtable :=
      hcurrent.symm.trans (h.current.trans (hmeets t outer htraversals ref hr hid))
    refine ⟨h.listed.append (by simp [isListItem]), h.keyed.append (by simp) (by simp),
      fun t' ht' => ?_, h.keys, h.current.trans (lastTurn_append (by simp)).symm,
      lawful_append_singleton exist h.lawful ⟨ref.autorelease, ?_⟩⟩
    · have hunder' := h.underway t' ht'
      exact hunder'.append hunder'.standing (by simp) (by simp) (by simp)
    · rw [Option.some.inj hown, ← hid]
      exact h.listed.known ref hr
  · cases hstep

/-- At the end of the core everything is freed. -/
theorem uninit_lawful (h : Consistent exist lc) (hstep : lc.uninit = some lc') :
    Lawful exist lc'.history := by
  unfold uninit at hstep
  split at hstep
  · cases hstep
    have hclosed : Lawful exist (lc.history ++ [.closed]) :=
      lawful_append_singleton exist h.lawful trivial
    have hlisted : Listed lc.vtableRefs lc.nextRef (lc.history ++ [.closed]) :=
      h.listed.append (by simp [isListItem])
    have hfreed := lawful_freed hlisted hclosed (fun _ => true) (·.autorelease)
      (fun ref _ _ => Or.inr (by simp)) fun ref _ _ => rfl
    have hall : (lc.vtableRefs.filter fun _ => true) = lc.vtableRefs :=
      List.filter_eq_self.mpr fun _ _ => rfl
    simpa [hall] using hfreed
  · cases hstep

/-- What is kept from step to step. -/
theorem step_consistent [DecidableEq Vtable] {e : VtableEvent Vtable Function}
    (h : Consistent exist lc) (hmeets : Meets exist lc e) (hstep : lc.step exist e = some lc') :
    Lawful exist lc'.history ∧ (lc'.alive = true → Consistent exist lc') := by
  have hboth : ∀ {lc' : VtableCore Vtable Function}, Consistent exist lc' →
      Lawful exist lc'.history ∧ (lc'.alive = true → Consistent exist lc') :=
    fun h' => ⟨h'.lawful, fun _ => h'⟩
  unfold step at hstep
  split at hstep
  · cases e with
    | addListener vtable autorelease =>
      cases hstep
      exact hboth (addListener_consistent h vtable autorelease)
    | removeListener vtable =>
      cases hstep
      exact hboth (removeListener_consistent h vtable)
    | notify f =>
      cases hstep
      exact hboth (notify_consistent h f hmeets)
    | callReturns => exact hboth (callReturns_consistent h hmeets hstep)
    | getCurrentVtable => exact hboth (getCurrentVtable_consistent h hmeets hstep)
    | uninit =>
      refine ⟨uninit_lawful h hstep, fun halive => ?_⟩
      simp only [uninit] at hstep
      split at hstep
      · cases hstep
        cases halive
      · cases hstep
  · cases hstep

end Operations

/-! ## Runs -/

/-- A run from a new core whose steps all meet `cond`. -/
inductive Run [DecidableEq Vtable] (exist : Vtable → Function → Bool)
    (cond : VtableCore Vtable Function → VtableEvent Vtable Function → Prop) :
    VtableCore Vtable Function → Prop
  | init : Run exist cond {}
  | step {lc lc' : VtableCore Vtable Function} (e : VtableEvent Vtable Function)
      (h : Run exist cond lc) (hcond : cond lc e) (hstep : lc.step exist e = some lc') :
      Run exist cond lc'

theorem Run.consistent [DecidableEq Vtable] {lc : VtableCore Vtable Function}
    (h : Run exist (Meets exist) lc) :
    Lawful exist lc.history ∧ (lc.alive = true → Consistent exist lc) := by
  induction h with
  | init => exact ⟨lawful_nil exist, fun _ => init_consistent⟩
  | @step lc lc' e _ hcond hstep ih =>
    have halive : lc.alive = true := by
      by_contra hdead
      simp [VtableCore.step, hdead] at hstep
    exact step_consistent (ih.2 halive) hcond hstep

end VtableCore

/-- **Listeners are notified as they should be** in every run whose steps meet the condition. -/
theorem history_lawful [DecidableEq Vtable] (exist : Vtable → Function → Bool)
    (lc : VtableCore Vtable Function) (h : VtableCore.Run exist (VtableCore.Meets exist) lc) :
    Lawful exist lc.history := h.consistent.1

/-- One listener is called, asks for the current vtable and returns. -/
theorem history_lawful_called :
    Lawful (fun _ _ => true) ([.added 0 true false, .started 0 (), .turned 0 true, .called 0 0,
      .answered 0 true, .finished 0] : List (Item Bool Unit)) := by
  let exist : Bool → Unit → Bool := fun _ _ => true
  have hinit : VtableCore.Run exist (VtableCore.Meets exist) {} := .init
  have hadded := hinit.step (.addListener true false) trivial rfl
  have hcalled := hadded.step (.notify ()) (fun h => by cases h) rfl
  have hasked := hcalled.step .getCurrentVtable
    (by rintro t outer heq ref hr -; cases heq; cases List.mem_singleton.mp hr; rfl) rfl
  have hreturned := hasked.step .callReturns (by
    rintro t outer it heq hit -
    cases heq
    refine ⟨fun t ht => absurd ht List.not_mem_nil, fun ref hr hinvalid => ?_⟩
    cases List.mem_singleton.mp hr
    rfl) rfl
  exact history_lawful _ _ hreturned

/-- A listener removes itself and causes another notification: the list is cleaned up under it. -/
theorem listener_freed_while_called :
    ¬∀ lc : VtableCore Bool Unit, VtableCore.Run (fun _ _ => true) (fun _ _ => True) lc →
      Lawful (fun _ _ => true) lc.history := by
  intro h
  have hinit : VtableCore.Run (fun (_ : Bool) (_ : Unit) => true) (fun _ _ => True) {} := .init
  have hadded := hinit.step (.addListener true false) trivial rfl
  have hcalled := hadded.step (.notify ()) trivial rfl
  have hremoved := hcalled.step (.removeListener true) trivial rfl
  have hnested := hremoved.step (.notify ()) trivial rfl
  have hreturned := hnested.step .callReturns trivial rfl
  exact h _ hreturned _ .usedFreed ⟨[], List.append_nil _⟩

end Linphone
