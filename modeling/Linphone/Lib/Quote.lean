import Mathlib.Tactic.Common

/-!
# Quoted text

A text between quotes, with its own quotes doubled, as a query language writes it. `scan_quote`
reads it back, and `eq_of_scan` says that nothing else is read: a text that was cut inside its
quotes never gives the whole back.
-/

namespace Quote

/-- The quotes of a text are doubled. -/
def escape (s : List Char) : List Char := s.flatMap fun c => if c = '\'' then ['\'', '\''] else [c]

/-- A text in quotes. -/
def quote (s : List Char) : List Char := '\'' :: escape s ++ ['\'']

/-- What follows the first quote, up to the closing one, and the rest. -/
def body : List Char → Option (List Char × List Char)
  | '\'' :: '\'' :: s => (body s).map fun r => ('\'' :: r.1, r.2)
  | '\'' :: s => some ([], s)
  | c :: s => (body s).map fun r => (c :: r.1, r.2)
  | [] => none

/-- The text in quotes at the start, and what follows it. -/
def scan : List Char → Option (List Char × List Char)
  | '\'' :: s => body s
  | _ => none

theorem escape_cons (c : Char) (s : List Char) :
    escape (c :: s) = (if c = '\'' then ['\'', '\''] else [c]) ++ escape s := rfl

theorem length_le_escape (s : List Char) : s.length ≤ (escape s).length := by
  induction s with
  | nil => exact Nat.le_refl 0
  | cons c s ih =>
      rw [escape_cons, List.length_append, List.length_cons]
      split
      · simp only [List.length_cons, List.length_nil]
        omega
      · simp only [List.length_cons, List.length_nil]
        omega

theorem length_quote (s : List Char) : (quote s).length = (escape s).length + 2 := by
  simp [quote]

theorem body_cons {c : Char} (hc : c ≠ '\'') (s : List Char) :
    body (c :: s) = (body s).map fun r => (c :: r.1, r.2) := by
  rw [body]
  · intro s' heq
    exact absurd heq hc
  · intro heq
    exact absurd heq hc

theorem body_close {s : List Char} (hs : s.head? ≠ some '\'') :
    body ('\'' :: s) = some ([], s) := by
  rw [body]
  intro s' heq
  exact absurd (by rw [heq]; rfl) hs

theorem body_escape (s : List Char) {rest : List Char} (hrest : rest.head? ≠ some '\'') :
    body (escape s ++ '\'' :: rest) = some (s, rest) := by
  induction s with
  | nil => exact body_close hrest
  | cons c s ih =>
      rw [escape_cons]
      by_cases hc : c = '\''
      · subst hc
        change body ('\'' :: '\'' :: (escape s ++ '\'' :: rest)) = _
        rw [body, ih]
        rfl
      · rw [if_neg hc]
        change body (c :: (escape s ++ '\'' :: rest)) = _
        rw [body_cons hc, ih]
        rfl

/-- **A quoted text is read back**, when what follows is not one more quote. -/
theorem scan_quote (s : List Char) {rest : List Char} (hrest : rest.head? ≠ some '\'') :
    scan (quote s ++ rest) = some (s, rest) := by
  have hquote : quote s ++ rest = '\'' :: (escape s ++ '\'' :: rest) := by
    simp [quote]
  rw [hquote]
  exact body_escape s hrest

theorem eq_of_body {s t rest : List Char} (h : body s = some (t, rest)) :
    s = escape t ++ '\'' :: rest := by
  induction s using body.induct generalizing t with
  | case1 s ih =>
      rw [body] at h
      obtain ⟨r, hr, heq⟩ := Option.map_eq_some_iff.mp h
      obtain ⟨rfl, rfl⟩ := Prod.mk.inj heq
      rw [ih hr]
      rfl
  | case2 s hne =>
      rw [body_close (fun hs => ?_)] at h
      · obtain ⟨rfl, rfl⟩ := Prod.mk.inj (Option.some.inj h)
        rfl
      · obtain ⟨s', rfl⟩ := List.head?_eq_some_iff.mp hs
        exact hne s' rfl
  | case3 c s hne hc ih =>
      rw [body_cons (fun heq => hc heq)] at h
      obtain ⟨r, hr, heq⟩ := Option.map_eq_some_iff.mp h
      obtain ⟨rfl, rfl⟩ := Prod.mk.inj heq
      rw [ih hr, escape_cons, if_neg (fun heq => hc heq)]
      rfl
  | case4 => exact absurd h (by simp [body])

/-- **What is read was written**: nothing is left out of a text that gives `t`. -/
theorem eq_of_scan {s t rest : List Char} (h : scan s = some (t, rest)) : s = quote t ++ rest := by
  unfold scan at h
  split at h
  · rename_i s
    rw [eq_of_body h]
    simp [quote]
  · exact absurd h (by simp)

end Quote
