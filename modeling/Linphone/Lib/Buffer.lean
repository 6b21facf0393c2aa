import Linphone.Lib.CString

/-!
# Buffers

Memory of a fixed size that texts are copied into. A function gives `none` when it touches
something behind the end of the memory: a write that goes on too long, or the reading of a string
that has no NUL.
-/

namespace Buffer

open CString (nul read read_append not_nul_mem_read)

/-- What a `char*` argument points to. -/
abbrev CText : Type := { s : List Char // nul ∉ s }

/-- The string at a position. -/
def string (mem : List Char) (start : Nat) : Option (List Char) :=
  if nul ∈ mem.drop start then some (read (mem.drop start)) else none

/-- `strchr`: the search ends at the character or at the NUL. -/
def strchr (mem : List Char) (start : Nat) (c : Char) : Option (Option Nat) :=
  if c ∈ read (mem.drop start) then some (some (start + (read (mem.drop start)).idxOf c))
  else if nul ∈ mem.drop start then some none
  else none

/-- Characters stored from a position on. -/
def write (mem : List Char) (start : Nat) (s : List Char) : Option (List Char) :=
  if start + s.length ≤ mem.length then
    some (mem.take start ++ s ++ mem.drop (start + s.length))
  else none

/-- What `strncpy` stores: `n` characters, NULs where the text has no more of them. -/
def copied (s : List Char) (n : Nat) : List Char := (s ++ List.replicate n nul).take n

def strncpy (mem : List Char) (start : Nat) (s : List Char) (n : Nat) : Option (List Char) :=
  write mem start (copied s n)

/-- `snprintf` of a text: what fits into `n` characters with a NUL behind it. -/
def snprintf (mem : List Char) (start n : Nat) (s : List Char) : Option (List Char) :=
  if n = 0 then some mem else write mem start (s.take (n - 1) ++ [nul])

/-- `realloc`: nothing is known about the characters of the new part. -/
def realloc (junk : Nat → Char) (mem : List Char) (n : Nat) : List Char :=
  (mem ++ (List.range n).map junk).take n

variable {mem mem' s t : List Char} {start n : Nat}

@[simp] theorem length_realloc (junk : Nat → Char) : (realloc junk mem n).length = n := by
  rw [realloc, List.length_take, List.length_append, List.length_map, List.length_range]
  omega

theorem string_eq_some (h : string mem start = some s) :
    nul ∈ mem.drop start ∧ s = read (mem.drop start) := by
  unfold string at h
  split at h
  · rename_i hmem
    exact ⟨hmem, (Option.some.inj h).symm⟩
  · cases h

theorem not_nul_mem_string (h : string mem start = some s) : nul ∉ s := by
  rw [(string_eq_some h).2]
  exact not_nul_mem_read _

/-! ## Writing -/

theorem write_of_le (h : start + s.length ≤ mem.length) :
    write mem start s = some (mem.take start ++ s ++ mem.drop (start + s.length)) := if_pos h

theorem write_eq_none (h : mem.length < start + s.length) : write mem start s = none :=
  if_neg (Nat.not_le.mpr h)

theorem length_write (h : write mem start s = some mem') : mem'.length = mem.length := by
  unfold write at h
  split at h
  · rename_i hle
    rw [← Option.some.inj h, List.length_append, List.length_append, List.length_take,
      List.length_drop]
    omega
  · cases h

/-- What was stored is found again. -/
theorem drop_write (h : write mem start s = some mem') :
    mem'.drop start = s ++ mem.drop (start + s.length) := by
  unfold write at h
  split at h
  · rename_i hle
    have hlen : (mem.take start).length = start := by
      rw [List.length_take]
      omega
    rw [← Option.some.inj h, List.append_assoc, List.drop_append_of_le_length hlen.ge]
    conv_lhs => rw [← hlen]
    rw [List.length_take, Nat.min_eq_left (by omega), List.drop_eq_nil_of_le hlen.le,
      List.nil_append]
  · cases h

theorem string_of_drop (h : mem.drop start = s ++ nul :: t) (hs : nul ∉ s) :
    string mem start = some s := by
  rw [string, h, if_pos (List.mem_append_right _ List.mem_cons_self), read_append hs]

theorem string_write (h : write mem start (s ++ nul :: t) = some mem') (hs : nul ∉ s) :
    string mem' start = some s := by
  have hdrop := drop_write h
  rw [List.append_assoc, List.cons_append] at hdrop
  exact string_of_drop hdrop hs

theorem exists_write_string (hlen : s.length < mem.length) (hs : nul ∉ s) :
    ∃ mem', write mem 0 (s ++ [nul]) = some mem' ∧ mem'.length = mem.length ∧
      string mem' 0 = some s := by
  have hfits : 0 + (s ++ [nul]).length ≤ mem.length := by
    rw [List.length_append, List.length_singleton]
    omega
  have hwrite := write_of_le hfits
  exact ⟨_, hwrite, length_write hwrite, string_write hwrite hs⟩

/-- A NUL in the last place stays there. -/
theorem drop_write_string {k : Nat} (h : write mem 0 (s ++ [nul]) = some mem')
    (hk : s.length ≤ k) (hlast : mem.drop k = [nul]) : mem'.drop k = [nul] := by
  have hdrop := drop_write h
  rw [List.drop_zero, Nat.zero_add, List.length_append, List.length_singleton] at hdrop
  rw [hdrop, List.append_assoc, List.drop_append, List.drop_eq_nil_of_le hk, List.nil_append]
  rcases Nat.eq_or_lt_of_le hk with heq | hlt
  · subst heq
    rw [Nat.sub_self, List.drop_zero, List.singleton_append, ← List.drop_drop, hlast]
    rfl
  · obtain ⟨j, rfl⟩ := Nat.exists_eq_add_of_lt hlt
    have hback : s.length + j + 1 - s.length = j + 1 := by omega
    rw [hback, List.singleton_append, List.drop_succ_cons, List.drop_drop, ← hlast]
    congr 1
    omega

theorem write_middle (a b : List Char) (x y : Char) :
    write (a ++ x :: b) a.length [y] = some (a ++ y :: b) := by
  have hfits : a.length + [y].length ≤ (a ++ x :: b).length := by simp
  rw [write_of_le hfits, List.take_left, List.length_singleton, ← List.drop_drop, List.drop_left,
    List.drop_one, List.tail_cons, List.append_assoc, List.singleton_append]

/-! ## `snprintf` -/

theorem length_snprintf (h : snprintf mem start n s = some mem') :
    mem'.length = mem.length := by
  unfold snprintf at h
  split at h
  · rw [Option.some.inj h]
  · exact length_write h

/-- **`snprintf` stays within the memory it is given.** -/
theorem exists_snprintf (s : List Char) (h : start + n ≤ mem.length) :
    ∃ mem', snprintf mem start n s = some mem' := by
  unfold snprintf
  by_cases hn : n = 0
  · exact ⟨mem, if_pos hn⟩
  · rw [if_neg hn]
    refine ⟨_, write_of_le ?_⟩
    rw [List.length_append, List.length_take, List.length_singleton]
    omega

theorem string_snprintf (h : snprintf mem start n s = some mem') (hn : n ≠ 0) (hs : nul ∉ s) :
    string mem' start = some (s.take (n - 1)) := by
  rw [snprintf, if_neg hn] at h
  exact string_write h fun hmem => hs (List.mem_of_mem_take hmem)

/-! ## `strncpy` -/

@[simp] theorem length_copied : (copied s n).length = n := by
  rw [copied, List.length_take, List.length_append, List.length_replicate]
  omega

theorem copied_of_le (h : n ≤ s.length) : copied s n = s.take n := by
  rw [copied, List.take_append_of_le_length h]

theorem copied_of_lt (h : s.length < n) :
    copied s n = s ++ nul :: List.replicate (n - s.length - 1) nul := by
  have hle : s.length ≤ n := h.le
  rw [copied, List.take_append, List.take_of_length_le hle, List.take_replicate,
    Nat.min_eq_left (Nat.sub_le n _)]
  congr 1
  rw [← List.replicate_succ]
  congr 1
  omega

theorem length_strncpy (h : strncpy mem start s n = some mem') : mem'.length = mem.length :=
  length_write h

/-- **`strncpy` stays within the memory it is given.** -/
theorem exists_strncpy (s : List Char) (h : start + n ≤ mem.length) :
    ∃ mem', strncpy mem start s n = some mem' :=
  ⟨_, write_of_le (by rwa [length_copied])⟩

theorem string_strncpy (h : strncpy mem start s n = some mem') (hs : nul ∉ s)
    (hlen : s.length < n) : string mem' start = some s := by
  rw [strncpy, copied_of_lt hlen] at h
  exact string_write h hs

theorem string_strncpy_eq_none (h : strncpy mem 0 s mem.length = some mem') (hs : nul ∉ s)
    (hlen : mem.length ≤ s.length) : string mem' 0 = none := by
  have hdrop := drop_write h
  rw [length_copied, Nat.zero_add, List.drop_length, List.append_nil, copied_of_le hlen] at hdrop
  rw [string, hdrop, if_neg fun hmem => hs (List.mem_of_mem_take hmem)]

theorem string_strncpy_cut (h : strncpy mem start s n = some mem') (hs : nul ∉ s)
    (hnul : mem.drop (start + n) = nul :: t) : string mem' start = some (s.take n) := by
  by_cases hlen : s.length < n
  · rw [string_strncpy h hs hlen, List.take_of_length_le hlen.le]
  · have hdrop := drop_write h
    rw [length_copied, hnul, copied_of_le (Nat.not_lt.mp hlen)] at hdrop
    exact string_of_drop hdrop fun hmem => hs (List.mem_of_mem_take hmem)

/-- A text cut to what is stored, where a NUL is written behind it. -/
theorem exists_strncpy_nul (hs : nul ∉ s) (hlen : mem.length = n + 1) :
    ∃ mem' mem'', strncpy mem 0 s n = some mem' ∧ write mem' n [nul] = some mem'' ∧
      string mem'' 0 = some (s.take n) := by
  obtain ⟨mem', hcopy⟩ := exists_strncpy s (show 0 + n ≤ mem.length by omega)
  have hlen' : mem'.length = n + 1 := (length_strncpy hcopy).trans hlen
  have hwrite := write_of_le (show n + [nul].length ≤ mem'.length from hlen'.ge)
  refine ⟨mem', _, hcopy, hwrite, ?_⟩
  have hstart : mem'.take n = copied s n := by
    have hdrop := drop_write hcopy
    rw [List.drop_zero] at hdrop
    rw [hdrop, List.take_append_of_le_length length_copied.ge,
      List.take_of_length_le length_copied.le]
  rw [hstart, List.append_assoc]
  by_cases hshort : s.length < n
  · rw [copied_of_lt hshort, List.take_of_length_le hshort.le, List.append_assoc]
    exact string_of_drop rfl hs
  · rw [copied_of_le (Nat.not_lt.mp hshort)]
    exact string_of_drop rfl fun hmem => hs (List.mem_of_mem_take hmem)

/-! ## Searching -/

theorem read_padded (hs : nul ∉ s) (k : Nat) : read (s ++ List.replicate k nul) = s := by
  cases k with
  | zero =>
    rw [List.replicate_zero, List.append_nil]
    refine List.takeWhile_eq_self_iff.mpr fun c hc => ?_
    have hne : c ≠ nul := fun heq => hs (heq ▸ hc)
    simpa using hne
  | succ k => exact read_append hs

theorem string_padded {k : Nat} (h : mem.drop start = s ++ List.replicate k nul) (hs : nul ∉ s) :
    string mem start = if k = 0 then none else some s := by
  rw [string, h, read_padded hs]
  by_cases hk : k = 0
  · simp [hk, hs]
  · simp [hk]

theorem strchr_padded (hs : nul ∉ s) (k : Nat) (c : Char) :
    strchr (s ++ List.replicate k nul) 0 c =
      if c ∈ s then some (some (s.idxOf c)) else if k = 0 then none else some none := by
  unfold strchr
  rw [List.drop_zero, read_padded hs, Nat.zero_add]
  by_cases hk : k = 0
  · simp [hk, hs]
  · simp [hk]

end Buffer
