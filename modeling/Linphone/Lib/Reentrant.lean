import Mathlib.Tactic.Common

/-!
# Components that are called back into

A component changes its state in atomic actions, asks its environment questions whose answers it
does not control, and notifies an application. The application may call any operation of the
component from inside a notification, to any depth, before it returns; so between a notification
and the next line of the program that sent it anything an operation can do may have happened.

A `Prog` is such a program. A `System` says which operations and which outside events there are,
and `Reachable` is everything a stack of interrupted programs can get to. The rule for proofs is
the one of rely and guarantee: a program is checked on its own with `Contract.wp`, where a
notification has to find the invariant and may assume afterwards only the invariant and the
relation that every operation guarantees. `Meets.inv_of_reachable` is its soundness: if all
operations and events are checked, the invariant holds whenever the application or the outside
gets to look.
-/

namespace Reentrant

/-- The vocabulary of a component. -/
structure Sig where
  State : Type
  Action : Type
  apply : Action → State → State
  Query : Type
  Answer : Query → Type
  Note : Type

/-- Programs over a vocabulary; `stuck` is undefined behaviour. -/
inductive Prog (S : Sig) (α : Type) : Type
  | pure (a : α)
  | act (x : S.Action) (k : Prog S α)
  | get (k : S.State → Prog S α)
  | ask (q : S.Query) (k : S.Answer q → Prog S α)
  | notify (n : S.Note) (k : Prog S α)
  | stuck

namespace Prog

variable {S : Sig} {α β γ : Type}
variable {A B : S.Action → Prop} {E : S.State → S.State → Prop} {p q : Prog S α} {f : α → Prog S β}

def bind : Prog S α → (α → Prog S β) → Prog S β
  | .pure a, f => f a
  | .act x k, f => .act x (k.bind f)
  | .get k, f => .get fun s => (k s).bind f
  | .ask q k, f => .ask q fun a => (k a).bind f
  | .notify n k, f => .notify n (k.bind f)
  | .stuck, _ => .stuck

instance : Monad (Prog S) where
  pure := .pure
  bind := .bind

/-- One action. -/
def perform (x : S.Action) : Prog S Unit := .act x (.pure ())

/-- The state now. -/
def current : Prog S S.State := .get .pure

/-- The answer to a question. -/
def query (q : S.Query) : Prog S (S.Answer q) := .ask q .pure

/-- Tell the application. -/
def tell (n : S.Note) : Prog S Unit := .notify n (.pure ())

/-- A statement under a condition. -/
def when (b : Bool) (p : Prog S Unit) : Prog S Unit := if b then p else .pure ()

/-- Only actions of a kind, and no notification. -/
def Only (A : S.Action → Prop) : Prog S α → Prop
  | .pure _ => True
  | .act x k => A x ∧ k.Only A
  | .get k => ∀ s, (k s).Only A
  | .ask _ k => ∀ a, (k a).Only A
  | .notify _ _ => False
  | .stuck => True

theorem Only.bind (hp : p.Only A) (hf : ∀ a, (f a).Only A) : (p >>= f).Only A := by
  induction p with
  | pure a => exact hf a
  | act x k ih => exact ⟨hp.1, ih hp.2⟩
  | get k ih => exact fun s => ih s (hp s)
  | ask q k ih => exact fun a => ih a (hp a)
  | notify n k => exact absurd hp id
  | stuck => trivial

theorem Only.ite {c : Prop} [Decidable c] (hp : p.Only A) (hq : q.Only A) :
    (if c then p else q).Only A := by
  split
  · exact hp
  · exact hq

theorem Only.when {b : Bool} {p : Prog S Unit} (hp : p.Only A) : (Prog.when b p).Only A :=
  Only.ite hp trivial

/-! ## Runs without an application -/

/-- The run of a program when the application does nothing in its notifications and the questions
have given answers. It ends nowhere when it is stuck or an action is not admitted. -/
def play (ok : S.Action → S.State → Bool) (answers : (q : S.Query) → S.Answer q) :
    Prog S α → S.State → Option (α × S.State)
  | .pure a, s => some (a, s)
  | .act x k, s => if ok x s then k.play ok answers (S.apply x s) else none
  | .get k, s => (k s).play ok answers s
  | .ask q k, s => (k (answers q)).play ok answers s
  | .notify _ k, s => k.play ok answers s
  | .stuck, _ => none

variable (ok : S.Action → S.State → Bool) (answers : (q : S.Query) → S.Answer q)

@[simp] theorem play_bind (p : Prog S α) (f : α → Prog S β) (s : S.State) :
    (p >>= f).play ok answers s =
      (p.play ok answers s).bind fun r => (f r.1).play ok answers r.2 := by
  induction p generalizing s with
  | pure a => rfl
  | act x k ih =>
      change (if ok x s then (k >>= f).play ok answers (S.apply x s) else none) = _
      rw [ih]
      simp only [play]
      split <;> rfl
  | get k ih => exact ih s s
  | ask q k ih => exact ih (answers q) s
  | notify n k ih => exact ih s
  | stuck => rfl

/-- A run of restricted actions stays within a preorder that the actions respect. -/
theorem rel_of_play {ok : S.Action → S.State → Bool} {answers : (q : S.Query) → S.Answer q}
    (hrefl : ∀ s, E s s) (htrans : ∀ {a b c}, E a b → E b c → E a c)
    (hact : ∀ x s, A x → E s (S.apply x s)) (hp : p.Only A) {a : α} {s s' : S.State}
    (h : p.play ok answers s = some (a, s')) : E s s' := by
  induction p generalizing s with
  | pure b =>
      cases h
      exact hrefl _
  | act x k ih =>
      simp only [play] at h
      split at h
      · exact htrans (hact x s hp.1) (ih hp.2 h)
      · cases h
  | get k ih => exact ih s (hp s) h
  | ask q k ih => exact ih (answers q) (hp _) h
  | notify n k => exact absurd hp id
  | stuck => cases h

/-- A run stays within a preorder that every action respects. -/
theorem rel_of_play_any {ok : S.Action → S.State → Bool} {answers : (q : S.Query) → S.Answer q}
    (hrefl : ∀ s, E s s) (htrans : ∀ {a b c}, E a b → E b c → E a c)
    (hact : ∀ x s, E s (S.apply x s)) {a : α} {s s' : S.State}
    (h : p.play ok answers s = some (a, s')) : E s s' := by
  induction p generalizing s with
  | pure b =>
      cases h
      exact hrefl _
  | act x k ih =>
      simp only [play] at h
      split at h
      · exact htrans (hact x s) (ih h)
      · cases h
  | get k ih => exact ih s h
  | ask q k ih => exact ih (answers q) h
  | notify n k ih => exact ih h
  | stuck => cases h

/-! ## Runs as far as they are defined -/

/-- How far a run gets when the application does no more in its notifications than to change the
state by itself: the state at the end, with the result, or where the run stops being defined. -/
def reached (answers : (q : S.Query) → S.Answer q) (react : S.Note → S.State → S.State) :
    Prog S α → S.State → Option α × S.State
  | .pure a, s => (some a, s)
  | .act x k, s => k.reached answers react (S.apply x s)
  | .get k, s => (k s).reached answers react s
  | .ask q k, s => (k (answers q)).reached answers react s
  | .notify n k, s => k.reached answers react (react n s)
  | .stuck, s => (none, s)

variable {answers : (q : S.Query) → S.Answer q} {react : S.Note → S.State → S.State}

theorem reached_bind (p : Prog S α) (f : α → Prog S β) (s : S.State) :
    (p >>= f).reached answers react s =
      match p.reached answers react s with
      | (some a, s') => (f a).reached answers react s'
      | (none, s') => (none, s') := by
  induction p generalizing s with
  | pure a => rfl
  | act x k ih => exact ih (S.apply x s)
  | get k ih => exact ih s s
  | ask q k ih => exact ih (answers q) s
  | notify n k ih => exact ih (react n s)
  | stuck => rfl

theorem reached_seq {s s' : S.State} {a : α} (h : p.reached answers react s = (some a, s')) :
    (p >>= f).reached answers react s = (f a).reached answers react s' := by
  rw [reached_bind, h]

theorem reached_stop {s s' : S.State} (h : p.reached answers react s = (none, s')) :
    (p >>= f).reached answers react s = (none, s') := by
  rw [reached_bind, h]

/-- Only actions of a kind, with any notifications. -/
def Acts (A : S.Action → Prop) : Prog S α → Prop
  | .pure _ => True
  | .act x k => A x ∧ k.Acts A
  | .get k => ∀ s, (k s).Acts A
  | .ask _ k => ∀ a, (k a).Acts A
  | .notify _ k => k.Acts A
  | .stuck => True

theorem Acts.bind (hp : p.Acts A) (hf : ∀ a, (f a).Acts A) : (p >>= f).Acts A := by
  induction p with
  | pure a => exact hf a
  | act x k ih => exact ⟨hp.1, ih hp.2⟩
  | get k ih => exact fun s => ih s (hp s)
  | ask q k ih => exact fun a => ih a (hp a)
  | notify n k ih => exact ih hp
  | stuck => trivial

theorem Acts.ite {c : Prop} [Decidable c] (hp : p.Acts A) (hq : q.Acts A) :
    (if c then p else q).Acts A := by
  split
  · exact hp
  · exact hq

theorem Acts.when {b : Bool} {p : Prog S Unit} (hp : p.Acts A) : (Prog.when b p).Acts A :=
  Acts.ite hp trivial

theorem Acts.mono (h : ∀ x, A x → B x) (hp : p.Acts A) : p.Acts B := by
  induction p with
  | pure a => trivial
  | act x k ih => exact ⟨h x hp.1, ih hp.2⟩
  | get k ih => exact fun s => ih s (hp s)
  | ask q k ih => exact fun a => ih a (hp a)
  | notify n k ih => exact ih hp
  | stuck => trivial

/-- A run of restricted actions stays within a preorder that they and the application respect. -/
theorem rel_of_reached (hrefl : ∀ s, E s s) (htrans : ∀ {a b c}, E a b → E b c → E a c)
    (hact : ∀ x s, A x → E s (S.apply x s)) (hreact : ∀ n s, E s (react n s)) (hp : p.Acts A)
    (s : S.State) : E s (p.reached answers react s).2 := by
  induction p generalizing s with
  | pure a => exact hrefl s
  | act x k ih => exact htrans (hact x s hp.1) (ih hp.2 _)
  | get k ih => exact ih s (hp s) s
  | ask q k ih => exact ih (answers q) (hp _) s
  | notify n k ih => exact htrans (hreact n s) (ih hp _)
  | stuck => exact hrefl s

/-! ## Runs in an environment that sees the state -/

/-- The run of a program when questions are answered from the state, and the application does no
more in its notifications than to change the state by itself. -/
def drive (answer : (q : S.Query) → S.State → S.Answer q) (react : S.Note → S.State → S.State) :
    Prog S α → S.State → Option α × S.State
  | .pure a, s => (some a, s)
  | .act x k, s => k.drive answer react (S.apply x s)
  | .get k, s => (k s).drive answer react s
  | .ask q k, s => (k (answer q s)).drive answer react s
  | .notify n k, s => k.drive answer react (react n s)
  | .stuck, s => (none, s)

variable {answer : (q : S.Query) → S.State → S.Answer q}

theorem drive_bind (p : Prog S α) (f : α → Prog S β) (s : S.State) :
    (p >>= f).drive answer react s =
      match p.drive answer react s with
      | (some a, s') => (f a).drive answer react s'
      | (none, s') => (none, s') := by
  induction p generalizing s with
  | pure a => rfl
  | act x k ih => exact ih (S.apply x s)
  | get k ih => exact ih s s
  | ask q k ih => exact ih (answer q s) s
  | notify n k ih => exact ih (react n s)
  | stuck => rfl

theorem rel_of_drive (hrefl : ∀ s, E s s) (htrans : ∀ {a b c}, E a b → E b c → E a c)
    (hact : ∀ x s, A x → E s (S.apply x s)) (hreact : ∀ n s, E s (react n s)) (hp : p.Acts A)
    (s : S.State) : E s (p.drive answer react s).2 := by
  induction p generalizing s with
  | pure a => exact hrefl s
  | act x k ih => exact htrans (hact x s hp.1) (ih hp.2 _)
  | get k ih => exact ih s (hp s) s
  | ask q k ih => exact ih (answer q s) (hp _) s
  | notify n k ih => exact htrans (hreact n s) (ih hp _)
  | stuck => exact hrefl s

end Prog

/-! ## Contracts -/

/-- An invariant, what operations guarantee of the states before and after them, what holds on top
of the invariant when nothing runs, and the condition under which actions are performed. -/
structure Contract (S : Sig) where
  Inv : S.State → Prop
  Rel : S.State → S.State → Prop
  Idle : S.State → Prop
  Ok : S.Action → S.State → Prop
  refl : ∀ s, Rel s s
  trans : ∀ {a b c}, Rel a b → Rel b c → Rel a c
  inv_of_idle : ∀ {s}, Idle s → Inv s
  idle_of_rel : ∀ {s s'}, Idle s → Inv s' → Rel s s' → Idle s'

namespace Contract

variable {S : Sig} {α β : Type} (C : Contract S)

/-- Weakest precondition: notifications find the invariant and leave what the contract says. -/
def wp : Prog S α → (α → S.State → Prop) → S.State → Prop
  | .pure a, post, s => post a s
  | .act x k, post, s => C.Ok x s → wp k post (S.apply x s)
  | .get k, post, s => wp (k s) post s
  | .ask _ k, post, s => ∀ a, wp (k a) post s
  | .notify _ k, post, s => C.Inv s ∧ ∀ s', C.Inv s' → C.Rel s s' → wp k post s'
  | .stuck, _, _ => True

variable {C}

@[simp] theorem wp_tell (n : S.Note) (post : Unit → S.State → Prop) (s : S.State) :
    C.wp (.tell n) post s ↔ C.Inv s ∧ ∀ s', C.Inv s' → C.Rel s s' → post () s' := Iff.rfl

@[simp] theorem wp_bind (p : Prog S α) (f : α → Prog S β) (post : β → S.State → Prop)
    (s : S.State) : C.wp (p >>= f) post s ↔ C.wp p (fun a s' => C.wp (f a) post s') s := by
  induction p generalizing s with
  | pure a => exact Iff.rfl
  | act x k ih => exact forall_congr' fun _ => ih _
  | get k ih => exact ih s s
  | ask q k ih => exact forall_congr' fun a => ih a s
  | notify n k ih =>
      exact and_congr Iff.rfl (forall_congr' fun s' => forall_congr' fun _ => forall_congr' fun _ =>
        ih s')
  | stuck => exact Iff.rfl

theorem wp_when {b : Bool} {p : Prog S Unit} {post : Unit → S.State → Prop} {s : S.State} :
    C.wp (.when b p) post s ↔ if b then C.wp p post s else post () s := by
  cases b <;> exact Iff.rfl

theorem wp_mono {p : Prog S α} {post post' : α → S.State → Prop} {s : S.State}
    (h : ∀ a s', post a s' → post' a s') (hp : C.wp p post s) : C.wp p post' s := by
  induction p generalizing s with
  | pure a => exact h a s hp
  | act x k ih => exact fun hok => ih (hp hok)
  | get k ih => exact ih s hp
  | ask q k ih => exact fun a => ih a (hp a)
  | notify n k ih => exact ⟨hp.1, fun s' hi hr => ih (hp.2 s' hi hr)⟩
  | stuck => trivial

/-- Programs of restricted actions are followed by a preorder that their actions respect. -/
theorem wp_of_only {A : S.Action → Prop} {E : S.State → S.State → Prop} (hrefl : ∀ s, E s s)
    (htrans : ∀ {a b c}, E a b → E b c → E a c) (hact : ∀ x s, A x → E s (S.apply x s))
    {p : Prog S α} {post : α → S.State → Prop} {s : S.State} (hp : p.Only A)
    (h : ∀ a s', E s s' → post a s') : C.wp p post s := by
  induction p generalizing s with
  | pure a => exact h a s (hrefl s)
  | act x k ih => exact fun _ => ih hp.2 fun a s' he => h a s' (htrans (hact x s hp.1) he)
  | get k ih => exact ih s (hp s) h
  | ask q k ih => exact fun a => ih a (hp a) h
  | notify n k => exact absurd hp id
  | stuck => trivial

variable (C)

/-- The obligation of an operation: from the invariant and a precondition, back to the invariant
within the guarantee. -/
def Keeps (P : S.State → Prop) (p : Prog S α) : Prop :=
  ∀ s, C.Inv s → P s → C.wp p (fun _ s' => C.Inv s' ∧ C.Rel s s') s

/-- A precondition that no operation destroys. -/
def Stable (P : S.State → Prop) : Prop := ∀ s s', C.Rel s s' → P s → P s'

variable {C} {P Q : S.State → Prop}

theorem Keeps.weaken {p : Prog S α} (h : C.Keeps Q p) (hPQ : ∀ s, P s → Q s) : C.Keeps P p :=
  fun s hs hP => h s hs (hPQ s hP)

theorem keeps_pure (a : α) : C.Keeps P (pure a : Prog S α) := fun s hs _ => ⟨hs, C.refl s⟩

theorem keeps_query (q : S.Query) : C.Keeps P (.query q) := fun s hs _ _ => ⟨hs, C.refl s⟩

theorem keeps_stuck : C.Keeps P (.stuck : Prog S α) := fun _ _ _ => trivial

theorem keeps_perform {x : S.Action}
    (h : ∀ s, C.Inv s → P s → C.Ok x s → C.Inv (S.apply x s) ∧ C.Rel s (S.apply x s)) :
    C.Keeps P (.perform x) := fun s hs hP hok => h s hs hP hok

/-- Two programs in a row, over a precondition that outlives the first. -/
theorem Keeps.bind {p : Prog S α} {f : α → Prog S β} (hp : C.Keeps P p) (hP : C.Stable P)
    (hf : ∀ a, C.Keeps P (f a)) : C.Keeps P (p >>= f) := by
  intro s hs hPs
  rw [wp_bind]
  refine wp_mono (fun a s' hs' => ?_) (hp s hs hPs)
  exact wp_mono (fun _ _ h => ⟨h.1, C.trans hs'.2 h.2⟩) (hf a s' hs'.1 (hP _ _ hs'.2 hPs))

theorem keeps_current {f : S.State → Prog S β}
    (hf : ∀ s, C.Inv s → P s → C.wp (f s) (fun _ s' => C.Inv s' ∧ C.Rel s s') s) :
    C.Keeps P (.current >>= f) := by
  intro s hs hP
  rw [wp_bind]
  exact hf s hs hP

theorem Keeps.ite {c : Prop} [Decidable c] {p q : Prog S α} (hp : c → C.Keeps P p)
    (hq : ¬c → C.Keeps P q) : C.Keeps P (if c then p else q) := by
  split
  · exact hp ‹_›
  · exact hq ‹_›

variable (C) in
/-- Every action of a kind keeps the invariant within the guarantee, under a precondition. -/
def Respects (P : S.State → Prop) (A : S.Action → Prop) : Prop :=
  ∀ x s, A x → C.Inv s → P s → C.Ok x s → C.Inv (S.apply x s) ∧ C.Rel s (S.apply x s)

/-- A program of such actions, with any notifications. -/
theorem Respects.keeps {A : S.Action → Prop} (h : C.Respects P A) (hP : C.Stable P)
    {p : Prog S α} (hp : p.Acts A) : C.Keeps P p := by
  intro s hs hPs
  induction p generalizing s with
  | pure a => exact ⟨hs, C.refl s⟩
  | act x k ih =>
      intro hok
      obtain ⟨hinv, hrel⟩ := h x s hp.1 hs hPs hok
      exact wp_mono (fun _ _ h' => ⟨h'.1, C.trans hrel h'.2⟩) (ih hp.2 _ hinv (hP _ _ hrel hPs))
  | get k ih => exact ih s (hp s) s hs hPs
  | ask q k ih => exact fun a => ih a (hp a) s hs hPs
  | notify n k ih =>
      refine ⟨hs, fun s' hs' hrel => ?_⟩
      exact wp_mono (fun _ _ h' => ⟨h'.1, C.trans hrel h'.2⟩) (ih hp s' hs' (hP _ _ hrel hPs))
  | stuck => trivial

theorem stable_true : C.Stable fun _ => True := fun _ _ _ _ => trivial

/-- An event that is no more than an operation. -/
theorem Keeps.idle {p : Prog S α} (h : C.Keeps P p) {s : S.State} (hs : C.Idle s) (hP : P s) :
    C.wp p (fun _ s' => C.Idle s') s :=
  wp_mono (fun _ _ hs' => C.idle_of_rel hs hs'.1 hs'.2) (h s (C.inv_of_idle hs) hP)

theorem Keeps.when {b : Bool} {p : Prog S Unit} (hp : b = true → C.Keeps P p) :
    C.Keeps P (.when b p) :=
  Keeps.ite hp fun _ => keeps_pure ()

end Contract

/-! ## Systems -/

/-- Operations the application may call, events from outside, the actions that are admitted, and
the states to start from. -/
structure System (S : Sig) where
  api : S.State → Prog S Unit → Prop
  event : S.State → Prog S Unit → Prop
  ok : S.Action → S.State → Prop
  init : S.State → Prop

/-- Interrupted programs, the running one first. -/
structure Config (S : Sig) where
  stack : List (Prog S Unit)
  state : S.State

variable {S : Sig}

/-- The application looks, or nothing runs. -/
def Config.Observed (c : Config S) : Prop :=
  c.stack = [] ∨ ∃ n k st, c.stack = .notify n k :: st

inductive Step (M : System S) : Config S → Config S → Prop
  | act {x k st s} : M.ok x s → Step M ⟨.act x k :: st, s⟩ ⟨k :: st, S.apply x s⟩
  | get {k st s} : Step M ⟨.get k :: st, s⟩ ⟨k s :: st, s⟩
  | ask {q k st s} (a : S.Answer q) : Step M ⟨.ask q k :: st, s⟩ ⟨k a :: st, s⟩
  /-- The application calls an operation from inside a notification. -/
  | enter {n k st s p} : M.api s p → Step M ⟨.notify n k :: st, s⟩ ⟨p :: .notify n k :: st, s⟩
  /-- The application returns from a notification. -/
  | resume {n k st s} : Step M ⟨.notify n k :: st, s⟩ ⟨k :: st, s⟩
  | finish {st s} : Step M ⟨.pure () :: st, s⟩ ⟨st, s⟩
  | api {s p} : M.api s p → Step M ⟨[], s⟩ ⟨[p], s⟩
  | event {s p} : M.event s p → Step M ⟨[], s⟩ ⟨[p], s⟩

inductive Reachable (M : System S) : Config S → Prop
  | init {s} : M.init s → Reachable M ⟨[], s⟩
  | step {c c'} : Reachable M c → Step M c c' → Reachable M c'

/-- Every operation and event of a system meets a contract. -/
structure Meets (C : Contract S) (M : System S) : Prop where
  init : ∀ s, M.init s → C.Idle s
  ok : ∀ x s, M.ok x s → C.Ok x s
  api : ∀ s p, M.api s p → C.Inv s → C.wp p (fun _ s' => C.Inv s' ∧ C.Rel s s') s
  event : ∀ s p, M.event s p → C.Idle s → C.wp p (fun _ s' => C.Idle s') s

namespace Meets

variable {C : Contract S} {M : System S}

/-- What a stack still owes: each program its postcondition to the one it interrupts. -/
def Good (C : Contract S) : List (Prog S Unit) → S.State → Prop
  | [], s => C.Idle s
  | p :: st, s => C.wp p (fun _ s' => Good C st s') s

theorem good_step (h : Meets C M) {c c' : Config S} (hs : Step M c c')
    (hg : Good C c.stack c.state) : Good C c'.stack c'.state := by
  cases hs with
  | act hok => exact hg (h.ok _ _ hok)
  | get => exact hg
  | ask a => exact hg a
  | @enter n k st s p hp =>
      obtain ⟨hinv, hk⟩ := hg
      -- the interrupted notification may be resumed from wherever the operation ends
      refine Contract.wp_mono (fun _ s' hs' => ?_) (h.api s p hp hinv)
      exact ⟨hs'.1, fun s'' hi hr => hk s'' hi (C.trans hs'.2 hr)⟩
  | @resume n k st s => exact hg.2 s hg.1 (C.refl s)
  | finish => exact hg
  | @api s p hp =>
      exact Contract.wp_mono (fun _ _ hs' => C.idle_of_rel hg hs'.1 hs'.2)
        (h.api s p hp (C.inv_of_idle hg))
  | @event s p hp => exact h.event s p hp hg

theorem good_of_reachable (h : Meets C M) {c : Config S} (hr : Reachable M c) :
    Good C c.stack c.state := by
  induction hr with
  | init hi => exact h.init _ hi
  | step _ hs ih => exact h.good_step hs ih

/-- **Soundness.** The invariant holds of every state that can be looked at. -/
theorem inv_of_reachable (h : Meets C M) {c : Config S} (hr : Reachable M c) (ho : c.Observed) :
    C.Inv c.state := by
  have hg := h.good_of_reachable hr
  rcases ho with hst | ⟨n, k, st, hst⟩
  · rw [hst] at hg
    exact C.inv_of_idle hg
  · rw [hst] at hg
    exact hg.1

theorem idle_of_reachable (h : Meets C M) {c : Config S} (hr : Reachable M c)
    (ho : c.stack = []) : C.Idle c.state := by
  have hg := h.good_of_reachable hr
  rwa [ho] at hg

end Meets

/-- A run without an application is one of the runs of the system. -/
theorem reachable_of_play {M : System S} {ok : S.Action → S.State → Bool}
    (hok : ∀ x s, ok x s = true → M.ok x s) {answers : (q : S.Query) → S.Answer q}
    {p : Prog S Unit} {st : List (Prog S Unit)} {s s' : S.State}
    (hr : Reachable M ⟨p :: st, s⟩) (h : p.play ok answers s = some ((), s')) :
    Reachable M ⟨st, s'⟩ := by
  induction p generalizing s with
  | pure a =>
      cases h
      exact hr.step .finish
  | act x k ih =>
      simp only [Prog.play] at h
      split at h
      · exact ih (hr.step (.act (hok x s ‹_›))) h
      · cases h
  | get k ih => exact ih s (hr.step .get) h
  | ask q k ih => exact ih (answers q) (hr.step (.ask (answers q))) h
  | notify n k ih => exact ih (hr.step .resume) h
  | stuck => cases h

end Reentrant
