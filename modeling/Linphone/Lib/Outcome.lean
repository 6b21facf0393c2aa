import Mathlib.Tactic.Common

/-!
# Outcomes of a function in C

A call returns a value, returns an error code, or leaves the defined behaviour of the language (a
missing object is followed, a buffer is overrun, an indeterminate value is used).  The three are
kept apart, so that a statement about what a call returns says nothing of a call that returns
nothing.
-/

/-- What a call does: `ok` and `error` return to the caller, `undefined` does not. -/
inductive Outcome (ε α : Type) where
  | ok (value : α)
  | error (code : ε)
  | undefined
deriving DecidableEq

namespace Outcome

variable {ε α β : Type}

/-- The next statement runs on the value of the one before. -/
protected def bind : Outcome ε α → (α → Outcome ε β) → Outcome ε β
  | ok a, f => f a
  | error e, _ => error e
  | undefined, _ => undefined

instance : Monad (Outcome ε) where
  pure := ok
  bind := Outcome.bind

/-- A value that exists only where the access to it is defined. -/
def ofOption : Option α → Outcome ε α
  | some a => ok a
  | none => undefined

/-- The caller reports another error code. -/
def mapError {δ : Type} (g : ε → δ) : Outcome ε α → Outcome δ α
  | ok a => ok a
  | error e => error (g e)
  | undefined => undefined

@[simp] theorem mapError_ok {δ : Type} (g : ε → δ) (a : α) :
    (ok a : Outcome ε α).mapError g = ok a := rfl

theorem mapError_eq_ok {δ : Type} {g : ε → δ} {x : Outcome ε α} {a : α} :
    x.mapError g = ok a ↔ x = ok a := by
  cases x with
  | ok b => simp
  | error e => simp [mapError]
  | undefined => simp [mapError]

@[simp] theorem pure_eq (a : α) : (pure a : Outcome ε α) = ok a := rfl

@[simp] theorem ok_bind (a : α) (f : α → Outcome ε β) : (ok a : Outcome ε α) >>= f = f a := rfl

@[simp] theorem error_bind (e : ε) (f : α → Outcome ε β) :
    (error e : Outcome ε α) >>= f = error e := rfl

@[simp] theorem undefined_bind (f : α → Outcome ε β) :
    (undefined : Outcome ε α) >>= f = undefined := rfl

@[simp] theorem ofOption_some (a : α) : (ofOption (some a) : Outcome ε α) = ok a := rfl

@[simp] theorem ofOption_none : (ofOption none : Outcome ε α) = undefined := rfl

theorem ofOption_eq_ok {o : Option α} {a : α} :
    (ofOption o : Outcome ε α) = ok a ↔ o = some a := by
  cases o with
  | none => simp
  | some b => simp

theorem bind_eq_ok {x : Outcome ε α} {f : α → Outcome ε β} {b : β} :
    x >>= f = ok b ↔ ∃ a, x = ok a ∧ f a = ok b := by
  cases x with
  | ok a => simp
  | error e => simp
  | undefined => simp

instance : LawfulMonad (Outcome ε) :=
  LawfulMonad.mk' _ (fun x => by cases x <;> rfl) (fun _ _ => rfl) (fun x _ _ => by cases x <;> rfl)

end Outcome
