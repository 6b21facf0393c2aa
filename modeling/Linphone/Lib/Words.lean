import Mathlib.Data.List.Basic
import Mathlib.Data.List.TakeWhile

/-!
# Words between separators

The words of a text are its pieces between separators that are not empty. A loop takes them one by
one: the piece up to the first separator, then what is left behind all separators that follow it.
A text that starts with a separator has an empty piece first.

`filterMap_pieces`: for a function that has nothing for the empty piece, the loop sees the words.
-/

namespace Words

variable {α β : Type} (sep : α → Bool)

/-- The pieces between separators that are not empty. -/
def words (s : List α) : List (List α) := (s.splitOnP sep).filter (· ≠ [])

/-- The piece up to the first separator. -/
def first (s : List α) : List α := s.takeWhile (!sep ·)

/-- What is left behind the first piece and the separators after it. -/
def rest (s : List α) : List α := (s.dropWhile (!sep ·)).dropWhile sep

variable {sep} {s : List α} {c : α}

theorem length_rest_lt (hs : s ≠ []) : (rest sep s).length < s.length := by
  obtain ⟨c, t, rfl⟩ := List.exists_cons_of_ne_nil hs
  rw [rest, List.length_cons, Nat.lt_succ_iff]
  by_cases hc : sep c = true
  · rw [List.dropWhile_cons_of_neg (by simp [hc]), List.dropWhile_cons_of_pos hc]
    exact (List.dropWhile_suffix sep).length_le
  · rw [List.dropWhile_cons_of_pos (by simpa using hc)]
    exact (List.dropWhile_suffix _).length_le.trans (List.dropWhile_suffix _).length_le

/-- The pieces the loop takes. -/
def pieces (sep : α → Bool) (s : List α) : List (List α) :=
  if h : s = [] then [] else first sep s :: pieces sep (rest sep s)
termination_by s.length
decreasing_by exact length_rest_lt h

theorem pieces_nil : pieces sep [] = [] := by
  rw [pieces, dif_pos rfl]

theorem pieces_of_ne (hs : s ≠ []) : pieces sep s = first sep s :: pieces sep (rest sep s) := by
  rw [pieces, dif_neg hs]

theorem words_cons_sep (hc : sep c = true) (s : List α) : words sep (c :: s) = words sep s := by
  rw [words, List.splitOnP_cons_eq_if_modifyHead, if_pos hc, List.filter_cons_of_neg (by simp),
    words]

theorem words_dropWhile (s : List α) : words sep (s.dropWhile sep) = words sep s := by
  induction s with
  | nil => rfl
  | cons c s ih =>
    by_cases hc : sep c = true
    · rw [List.dropWhile_cons_of_pos hc, words_cons_sep hc, ih]
    · rw [List.dropWhile_cons_of_neg hc]

/-- The words are the first piece, unless it is empty, and those of the rest. -/
theorem words_eq (s : List α) :
    words sep s = [first sep s].filter (· ≠ []) ++ words sep (rest sep s) := by
  have hfirst : ∀ c ∈ first sep s, sep c = false := fun c hc => by
    simpa using List.mem_takeWhile_imp hc
  rw [rest, words_dropWhile]
  cases hdrop : s.dropWhile (!sep ·) with
  | nil =>
    have hs : first sep s = s := by
      rw [first, ← List.append_nil (s.takeWhile _), ← hdrop, List.takeWhile_append_dropWhile]
    rw [hs] at hfirst ⊢
    rw [words, List.splitOnP_eq_singleton hfirst, words]
    simp [List.splitOnP_nil]
  | cons c t =>
    have hs : s = first sep s ++ c :: t := by
      rw [first, ← hdrop, List.takeWhile_append_dropWhile]
    have hc : sep c = true := by
      have := List.head?_dropWhile_not (!sep ·) s
      rw [hdrop] at this
      simpa using this
    conv_lhs => rw [hs]
    rw [words, List.splitOnP_append_cons _ _ hc, List.splitOnP_eq_singleton hfirst,
      List.filter_append, words_cons_sep hc]
    rfl

/-- A word has characters of the text only. -/
theorem mem_of_mem_words {w : List α} (hw : w ∈ words sep s) : ∀ c ∈ w, c ∈ s := by
  induction s using pieces.induct sep with
  | case1 => simp [words, List.splitOnP_nil] at hw
  | case2 s hs ih =>
    rw [words_eq s, List.mem_append] at hw
    intro c hc
    rcases hw with hfirst | hrest
    · rw [List.mem_singleton.mp (List.mem_of_mem_filter hfirst)] at hc
      exact (List.takeWhile_sublist _).subset hc
    · have hsuffix := (List.dropWhile_suffix sep).trans (List.dropWhile_suffix (l := s) (!sep ·))
      exact hsuffix.subset (ih hrest c hc)

/-- A word is not empty and has no separator. -/
theorem not_sep_of_mem_words {w : List α} (hw : w ∈ words sep s) :
    w ≠ [] ∧ ∀ c ∈ w, sep c = false := by
  induction s using pieces.induct sep with
  | case1 => simp [words, List.splitOnP_nil] at hw
  | case2 s hs ih =>
    rw [words_eq s, List.mem_append] at hw
    rcases hw with hfirst | hrest
    · have hne := List.of_mem_filter hfirst
      refine ⟨by simpa using hne, fun c hc => ?_⟩
      rw [List.mem_singleton.mp (List.mem_of_mem_filter hfirst)] at hc
      simpa using List.mem_takeWhile_imp hc
    · exact ih hrest

theorem words_eq_singleton {w : List α} (hw : ∀ c ∈ w, sep c = false) (hne : w ≠ []) :
    words sep w = [w] := by
  rw [words, List.splitOnP_eq_singleton hw, List.filter_cons_of_pos (by simpa using hne),
    List.filter_nil]

theorem words_append_cons {w : List α} (hw : ∀ c ∈ w, sep c = false) (hne : w ≠ [])
    (hc : sep c = true) (s : List α) : words sep (w ++ c :: s) = w :: words sep s := by
  rw [words, List.splitOnP_append_cons _ _ hc, List.filter_append, List.splitOnP_eq_singleton hw,
    List.filter_cons_of_pos (by simpa using hne), List.filter_nil, List.singleton_append, words]

/-- Words with separators between them are read back. -/
theorem words_intercalate (hc : sep c = true) {ws : List (List α)}
    (hws : ∀ w ∈ ws, w ≠ [] ∧ ∀ c ∈ w, sep c = false) :
    words sep ([c].intercalate ws) = ws := by
  induction ws with
  | nil => simp [words, List.splitOnP_nil]
  | cons w ws ih =>
    obtain ⟨hne, hw⟩ := hws w List.mem_cons_self
    cases ws with
    | nil => rw [List.intercalate_singleton, words_eq_singleton hw hne]
    | cons w' ws =>
      rw [List.intercalate_cons_cons, List.append_assoc, List.singleton_append,
        words_append_cons hw hne hc, ih fun v hv => hws v (List.mem_cons_of_mem _ hv)]

/-- **What the loop finds is found among the words.** -/
theorem filterMap_pieces {f : List α → Option β} (hf : f [] = none) (s : List α) :
    (pieces sep s).filterMap f = (words sep s).filterMap f := by
  induction s using pieces.induct sep with
  | case1 => rw [pieces_nil]; rfl
  | case2 s hs ih =>
    rw [pieces_of_ne hs, words_eq s, List.filterMap_append, List.filterMap_cons, ih]
    by_cases hfirst : first sep s = []
    · rw [hfirst, hf]
      simp
    · rw [List.filter_cons_of_pos (by simpa using hfirst)]
      cases hfound : f (first sep s) <;> simp [hfound]

end Words
