import Mathlib.Data.List.Basic
import Linphone.Lib.Scan

/-!
# Strings in memory

A string ends at its first NUL, and the memory goes on behind it: `strchr` and the words `sscanf`
reads, in a buffer that a program writes to. `pieces` are the strings in which `fgets` reads a file
into a buffer.
-/

namespace CString

open Scan (isSpace)

def nul : Char := '\x00'

/-- The string at the start of some memory. -/
def read (mem : List Char) : List Char := mem.takeWhile (· ≠ nul)

/-- `strchr`, for the string that starts at a position. -/
def strchr (mem : List Char) (start : Nat) (c : Char) : Option Nat :=
  if c ∈ read (mem.drop start) then some (start + (read (mem.drop start)).idxOf c) else none

/-- `%s` of `sscanf`: empty when there is no word. -/
def word (s : List Char) : List Char := (s.dropWhile isSpace).takeWhile (!isSpace ·)

/-- `%s %s` of `sscanf` -/
def twoWords (s : List Char) : Option (List Char × List Char) :=
  let second := word ((s.dropWhile isSpace).dropWhile (!isSpace ·))
  if second = [] then none else some (word s, second)

/-- Calls of `fgets` until the end of a file, each of which reads `n` characters at most and stops
after a line feed. -/
def pieces (n : Nat) (acc : List Char) : List Char → List (List Char)
  | [] => if acc = [] then [] else [acc]
  | c :: s =>
      if c = '\n' ∨ n ≤ acc.length + 1 then (acc ++ [c]) :: pieces n [] s
      else pieces n (acc ++ [c]) s

/-! ## Strings -/

theorem read_append {s rest : List Char} (h : nul ∉ s) : read (s ++ nul :: rest) = s := by
  unfold read
  refine Scan.takeWhile_append_of_ends (fun x hx => ?_) fun x hx => ?_
  · have hne : x ≠ nul := fun heq => h (heq ▸ hx)
    simpa using hne
  · cases hx
    simp

theorem read_of_nul_cons (rest : List Char) : read (nul :: rest) = [] := rfl

theorem not_nul_mem_read (mem : List Char) : nul ∉ read mem := by
  intro h
  have hne := List.mem_takeWhile_imp h
  simp at hne

theorem strchr_eq_none {mem : List Char} {start : Nat} {c : Char}
    (h : c ∉ read (mem.drop start)) : strchr mem start c = none := by
  unfold strchr
  rw [if_neg h]

/-- The first place of a character. -/
theorem strchr_append {a m b : List Char} {c : Char} (hmid : c ∉ m) (hnul : nul ∉ m)
    (hc : c ≠ nul) : strchr (a ++ (m ++ c :: b)) a.length c =
      some (a.length + m.length) := by
  have hread : read (m ++ c :: b) = m ++ read (c :: b) := by
    unfold read
    rw [List.takeWhile_append_of_pos]
    intro x hx
    have hne : x ≠ nul := fun heq => hnul (heq ▸ hx)
    simpa using hne
  have hcons : read (c :: b) = c :: read b := by
    unfold read
    rw [List.takeWhile_cons_of_pos]
    simpa using hc
  unfold strchr
  rw [List.drop_left, hread, hcons, if_pos (by simp),
    List.idxOf_append_of_notMem hmid, List.idxOf_cons_self, Nat.add_zero]

/-- What is before the first place of a character, and what is behind it. -/
theorem strchr_eq_some {mem : List Char} {start i : Nat} {c : Char}
    (h : strchr mem start c = some i) :
    ∃ mid rest, mem.drop start = mid ++ c :: rest ∧ c ∉ mid ∧ nul ∉ mid ∧
      i = start + mid.length := by
  unfold strchr at h
  split at h
  · rename_i hmem
    obtain ⟨mid, behind, hsplit, hfirst⟩ := List.eq_append_cons_of_mem hmem
    have hdrop : mem.drop start = mid ++ c :: (behind ++
        (mem.drop start).dropWhile (· ≠ nul)) := by
      have hall := List.takeWhile_append_dropWhile (p := (· ≠ nul)) (l := mem.drop start)
      unfold read at hsplit
      rw [hsplit] at hall
      rw [List.append_assoc, List.cons_append] at hall
      exact hall.symm
    refine ⟨mid, _, hdrop, hfirst, fun hnul => ?_, ?_⟩
    · exact not_nul_mem_read (mem.drop start) (by rw [hsplit]; exact List.mem_append_left _ hnul)
    · rw [← Option.some.inj h, hsplit, List.idxOf_append_of_notMem hfirst, List.idxOf_cons_self,
        Nat.add_zero]
  · cases h

/-- A text is split at the first place of a character in one way. -/
theorem first_split {c : Char} {p q p' q' : List Char} (hp : c ∉ p) (hp' : c ∉ p')
    (h : p ++ c :: q = p' ++ c :: q') : p = p' ∧ q = q' := by
  induction p generalizing p' with
  | nil =>
    cases p' with
    | nil => exact ⟨rfl, (List.cons.inj h).2⟩
    | cons x p' => exact absurd ((List.cons.inj h).1 ▸ List.mem_cons_self) hp'
  | cons x p ih =>
    cases p' with
    | nil => exact absurd ((List.cons.inj h).1 ▸ List.mem_cons_self) hp
    | cons y p' =>
      obtain ⟨rfl, hrest⟩ := List.cons.inj h
      obtain ⟨rfl, rfl⟩ := ih (fun hmem => hp (List.mem_cons_of_mem _ hmem))
        (fun hmem => hp' (List.mem_cons_of_mem _ hmem)) hrest
      exact ⟨rfl, rfl⟩

/-! ## Words -/

theorem not_isSpace_of_mem_word {s : List Char} {x : Char} (h : x ∈ word s) :
    isSpace x = false := by
  have hx := List.mem_takeWhile_imp h
  simpa using hx

theorem mem_of_mem_word {s : List Char} {x : Char} (h : x ∈ word s) : x ∈ s :=
  (List.dropWhile_sublist _).subset ((List.takeWhile_sublist _).subset h)

/-- A text without a word is blank. -/
theorem word_eq_nil {s : List Char} (h : word s = []) : ∀ x ∈ s, isSpace x = true := by
  unfold word at h
  cases hdrop : s.dropWhile isSpace with
  | nil => exact List.dropWhile_eq_nil_iff.mp hdrop
  | cons x t =>
    have hne : s.dropWhile isSpace ≠ [] := by
      rw [hdrop]
      exact List.cons_ne_nil x t
    have hx : isSpace x = false := by
      have hnot := List.head_dropWhile_not isSpace hne
      simpa [hdrop] using hnot
    rw [hdrop, List.takeWhile_cons_of_pos (by rw [hx]; rfl)] at h
    cases h

theorem dropWhile_isSpace {w s : List Char} (hw : ∀ x ∈ w, isSpace x = false) (hne : w ≠ []) :
    (w ++ s).dropWhile isSpace = w ++ s := by
  obtain ⟨x, w', rfl⟩ := List.exists_cons_of_ne_nil hne
  rw [List.cons_append, List.dropWhile_cons_of_neg]
  rw [hw x List.mem_cons_self]
  exact Bool.false_ne_true

theorem word_append {w s : List Char} (hw : ∀ x ∈ w, isSpace x = false) (hne : w ≠ [])
    (hs : ∀ x ∈ s.head?, isSpace x = true) : word (w ++ s) = w := by
  unfold word
  rw [dropWhile_isSpace hw hne]
  refine Scan.takeWhile_append_of_ends (fun x hx => by rw [hw x hx]; rfl) fun x hx => ?_
  rw [hs x hx]
  rfl

theorem word_self {w : List Char} (hw : ∀ x ∈ w, isSpace x = false) (hne : w ≠ []) :
    word w = w := by
  have h := word_append (s := []) hw hne (fun x hx => by cases hx)
  rwa [List.append_nil] at h

/-- Two words with a blank between them. -/
theorem twoWords_append {v w s : List Char} (hv : ∀ x ∈ v, isSpace x = false) (hv' : v ≠ [])
    (hw : ∀ x ∈ w, isSpace x = false) (hw' : w ≠ []) (hs : ∀ x ∈ s.head?, isSpace x = true) :
    twoWords (v ++ ' ' :: (w ++ s)) = some (v, w) := by
  have hfirst : word (v ++ ' ' :: (w ++ s)) = v := word_append hv hv' fun x hx => by cases hx; rfl
  have hdrop : (v ++ ' ' :: (w ++ s)).dropWhile (!isSpace ·) = ' ' :: (w ++ s) := by
    rw [List.dropWhile_append_of_pos fun x hx => by rw [hv x hx]; rfl]
    rfl
  have hsecond : word (' ' :: (w ++ s)) = w := by
    have hskip : word (' ' :: (w ++ s)) = word (w ++ s) := rfl
    rw [hskip]
    exact word_append hw hw' hs
  unfold twoWords
  rw [dropWhile_isSpace hv hv', hdrop, hsecond, hfirst]
  dsimp only
  rw [if_neg hw']

/-- Two words that were read are words of the string. -/
theorem twoWords_eq_some {s v w : List Char} (h : twoWords s = some (v, w)) :
    v = word s ∧ w ≠ [] ∧ v ≠ [] ∧ (∀ x ∈ w, x ∈ s ∧ isSpace x = false) := by
  unfold twoWords at h
  dsimp only at h
  split at h
  · cases h
  · rename_i hsecond
    obtain ⟨rfl, rfl⟩ := Prod.mk.inj (Option.some.inj h)
    refine ⟨rfl, hsecond, fun hempty => hsecond ?_, fun x hx => ⟨?_, not_isSpace_of_mem_word hx⟩⟩
    · -- without a first word there is nothing left after the blanks
      have hnone : s.dropWhile isSpace = [] :=
        List.dropWhile_eq_nil_iff.mpr (word_eq_nil hempty)
      rw [hnone]
      rfl
    · exact (List.dropWhile_sublist _).subset
        ((List.dropWhile_sublist _).subset (mem_of_mem_word hx))

theorem twoWords_replicate (n : Nat) (s : List Char) :
    twoWords (List.replicate n ' ' ++ s) = twoWords s := by
  induction n with
  | zero => rfl
  | succ n ih => exact ih

/-- A blank between two texts that are not blank separates two words. -/
theorem twoWords_ne_none {p q : List Char} {x y : Char} (hx : x ∈ p) (hx' : isSpace x = false)
    (hy : y ∈ q) (hy' : isSpace y = false) : twoWords (p ++ ' ' :: q) ≠ none := by
  have hne : p.dropWhile isSpace ≠ [] := fun h => by
    have hall := List.dropWhile_eq_nil_iff.mp h x hx
    rw [hx'] at hall
    cases hall
  intro h
  have hdrop : (p ++ ' ' :: q).dropWhile isSpace = p.dropWhile isSpace ++ ' ' :: q := by
    rw [List.dropWhile_append, if_neg]
    simpa using hne
  unfold twoWords at h
  dsimp only at h
  split at h
  · rename_i hword
    have hall := word_eq_nil hword y (by
      rw [hdrop, List.dropWhile_append]
      split
      · exact List.mem_cons_of_mem _ hy
      · exact List.mem_append_right _ (List.mem_cons_of_mem _ hy))
    rw [hy'] at hall
    cases hall
  · cases h

theorem twoWords_short {s : List Char} (h : s.length ≤ 2) : twoWords s = none := by
  match s, h with
  | [], _ => rfl
  | [x], _ => cases hx : isSpace x <;> simp [twoWords, word, hx]
  | [x, y], _ => cases hx : isSpace x <;> cases hy : isSpace y <;> simp [twoWords, word, hx, hy]

/-- The first word ends before a character that is no blank, or goes through it. -/
theorem word_append_cons {c : Char} (hc : isSpace c = false) (u s : List Char) :
    c ∈ word (u ++ c :: s) ∨ (word (u ++ c :: s)).Sublist u := by
  unfold word
  rw [List.dropWhile_append]
  split
  · rw [List.dropWhile_cons_of_neg (by simp [hc]), List.takeWhile_cons_of_pos (by simp [hc])]
    exact Or.inl List.mem_cons_self
  · rw [List.takeWhile_append]
    split
    · rw [List.takeWhile_cons_of_pos (by simp [hc])]
      exact Or.inl (List.mem_append_right _ List.mem_cons_self)
    · exact Or.inr ((List.takeWhile_sublist _).trans (List.dropWhile_sublist _))

/-! ## Files -/

variable {n : Nat} {acc line rest s : List Char}

/-- A line that fits is read at once. -/
theorem pieces_line (hline : '\n' ∉ line) (hfits : acc.length + line.length + 1 ≤ n) :
    pieces n acc (line ++ '\n' :: rest) = (acc ++ line ++ ['\n']) :: pieces n [] rest := by
  induction line generalizing acc with
  | nil =>
      rw [List.nil_append, List.append_nil, pieces, if_pos (Or.inl rfl)]
  | cons c line ih =>
      have hc : ¬ (c = '\n' ∨ n ≤ acc.length + 1) := by
        rintro (rfl | hn)
        · exact hline List.mem_cons_self
        · rw [List.length_cons] at hfits
          omega
      rw [List.cons_append, pieces, if_neg hc, ih (fun h => hline (List.mem_cons_of_mem c h))]
      · rw [List.append_assoc acc [c] line, List.singleton_append]
      · rw [List.length_append, List.length_singleton]
        rw [List.length_cons] at hfits
        omega

/-- A line that fills the buffer is read without its end. -/
theorem pieces_full (hline : '\n' ∉ line) (hne : line ≠ []) (hfull : acc.length + line.length = n) :
    pieces n acc (line ++ rest) = (acc ++ line) :: pieces n [] rest := by
  induction line generalizing acc with
  | nil => exact absurd rfl hne
  | cons c line ih =>
      rw [List.length_cons] at hfull
      by_cases hnil : line = []
      · subst hnil
        rw [List.length_nil] at hfull
        rw [List.cons_append, pieces, if_pos (Or.inr (by omega)), List.nil_append]
      · have hc : ¬ (c = '\n' ∨ n ≤ acc.length + 1) := by
          have hpos := List.length_pos_iff.mpr hnil
          rintro (rfl | hn)
          · exact hline List.mem_cons_self
          · omega
        rw [List.cons_append, pieces, if_neg hc,
          ih (fun h => hline (List.mem_cons_of_mem c h)) hnil]
        · rw [List.append_assoc acc [c] line, List.singleton_append]
        · rw [List.length_append, List.length_singleton]
          omega

/-- Lines are read one after the other. -/
theorem pieces_append_line :
    pieces n acc (s ++ '\n' :: rest) = pieces n acc (s ++ ['\n']) ++ pieces n [] rest := by
  induction s generalizing acc with
  | nil =>
      rw [List.nil_append, List.nil_append, pieces, pieces, if_pos (Or.inl rfl),
        if_pos (Or.inl rfl)]
      rfl
  | cons c s ih =>
      rw [List.cons_append, List.cons_append, pieces, pieces]
      split
      · rw [ih, List.cons_append]
      · exact ih

theorem mem_of_mem_pieces {p : List Char} (hp : p ∈ pieces n acc s) {x : Char} (hx : x ∈ p) :
    x ∈ acc ∨ x ∈ s := by
  induction s generalizing acc with
  | nil =>
      rw [pieces] at hp
      split at hp
      · cases hp
      · rw [List.mem_singleton.mp hp] at hx
        exact Or.inl hx
  | cons c s ih =>
      have hsplit : ∀ {acc' : List Char}, x ∈ acc' ++ [c] → x ∈ acc' ∨ x ∈ c :: s := by
        intro acc' h
        rcases List.mem_append.mp h with hold | hnew
        · exact Or.inl hold
        · rw [List.mem_singleton.mp hnew]
          exact Or.inr List.mem_cons_self
      rw [pieces] at hp
      split at hp
      · rcases List.mem_cons.mp hp with rfl | hp
        · exact hsplit hx
        · rcases ih hp with hnil | hs
          · cases hnil
          · exact Or.inr (List.mem_cons_of_mem c hs)
      · rcases ih hp with hacc | hs
        · exact hsplit hacc
        · exact Or.inr (List.mem_cons_of_mem c hs)

/-- No piece is longer than the buffer takes. -/
theorem length_le_of_mem_pieces {p : List Char} (hacc : acc.length < n)
    (hp : p ∈ pieces n acc s) : p.length ≤ n := by
  induction s generalizing acc with
  | nil =>
      rw [pieces] at hp
      split at hp
      · cases hp
      · rw [List.mem_singleton.mp hp]
        exact Nat.le_of_lt hacc
  | cons c s ih =>
      have hlength : (acc ++ [c]).length = acc.length + 1 := by
        rw [List.length_append, List.length_singleton]
      rw [pieces] at hp
      split at hp
      · rcases List.mem_cons.mp hp with rfl | hp
        · rw [hlength]
          exact hacc
        · have hempty : ([] : List Char).length < n := Nat.zero_lt_of_lt hacc
          exact ih hempty hp
      · rename_i hgoes
        refine ih ?_ hp
        rw [hlength]
        exact Nat.lt_of_not_le fun hn => hgoes (Or.inr hn)

end CString
