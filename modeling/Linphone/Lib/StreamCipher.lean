import Mathlib.Tactic.Common

/-!
# Stream ciphers fed piece by piece

A stream cipher XORs a text with a keystream. A library that is fed with pieces of the text works in
blocks: what it gives is right as long as all pieces but the last fill whole blocks. Nothing is said
about the other cuts, and a *tester* makes use of that: it spoils every piece that does not start at
a block, so it tells whether a text was cut well.
-/

namespace StreamCipher

/-- The text from a position on, XORed with the keystream. -/
def mask (keystream : Nat → UInt8) : Nat → List UInt8 → List UInt8
  | _, [] => []
  | pos, b :: text => (b ^^^ keystream pos) :: mask keystream (pos + 1) text

inductive Direction
  | encrypt | decrypt
deriving DecidableEq

/-- What a sequence of updates gives. -/
def outputs {State : Type} (update : State → List UInt8 → List UInt8 × State) :
    State → List (List UInt8) → List UInt8
  | _, [] => []
  | s, piece :: pieces => (update s piece).1 ++ outputs update (update s piece).2 pieces

/-- **A library that is right if all pieces but the last fill whole blocks.** -/
structure Library (Key State : Type) (block : Nat) where
  keystream : Key → Nat → UInt8
  starts : Direction → Key → State
  update : State → List UInt8 → List UInt8 × State
  length_update : ∀ s piece, (update s piece).1.length = piece.length
  whole_blocks : ∀ dir key pieces, (∀ piece ∈ pieces.dropLast, block ∣ piece.length) →
    outputs update (starts dir key) pieces = mask (keystream key) 0 pieces.flatten

variable {Key State : Type} {block pos : Nat} {ks : Nat → UInt8} {text text' : List UInt8}

/-! ## Masks -/

@[simp] theorem length_mask : (mask ks pos text).length = text.length := by
  induction text generalizing pos with
  | nil => rfl
  | cons b text ih => rw [mask, List.length_cons, ih, List.length_cons]

theorem mask_append :
    mask ks pos (text ++ text') = mask ks pos text ++ mask ks (pos + text.length) text' := by
  induction text generalizing pos with
  | nil => rfl
  | cons b text ih =>
    rw [List.cons_append, mask, ih, mask, List.cons_append, List.length_cons, Nat.add_assoc,
      Nat.add_comm 1]

theorem mask_mask : mask ks pos (mask ks pos text) = text := by
  induction text generalizing pos with
  | nil => rfl
  | cons b text ih =>
    rw [mask, mask, ih, UInt8.xor_assoc, UInt8.xor_self, UInt8.xor_zero]

theorem mask_zero : mask (fun _ => 0) pos text = text := by
  induction text generalizing pos with
  | nil => rfl
  | cons b text ih => rw [mask, ih, UInt8.xor_zero]

theorem xor_left_cancel {b x y : UInt8} (h : b ^^^ x = b ^^^ y) : x = y := by
  have hb : b ^^^ (b ^^^ x) = b ^^^ (b ^^^ y) := by rw [h]
  rwa [← UInt8.xor_assoc, ← UInt8.xor_assoc, UInt8.xor_self, UInt8.zero_xor, UInt8.zero_xor] at hb

theorem keystream_eq_of_mask {ks' : Nat → UInt8} {pos' : Nat} (hne : text ≠ [])
    (h : mask ks pos text <+: mask ks' pos' (text ++ text')) : ks pos = ks' pos' := by
  obtain ⟨b, text, rfl⟩ := List.exists_cons_of_ne_nil hne
  rw [List.cons_append, mask, mask, List.cons_prefix_cons] at h
  exact xor_left_cancel h.1

/-! ## Testing -/

/-- A library with a given keystream that changes every byte of a piece that does not start at a
block. -/
def tester (Key : Type) (block : Nat) (ks : Nat → UInt8) (flip : Direction → UInt8) :
    Library Key (Direction × Nat) block where
  keystream _ := ks
  starts dir _ := (dir, 0)
  update s piece :=
    (mask (fun i => ks i ^^^ if block ∣ s.2 then 0 else flip s.1) s.2 piece,
      (s.1, s.2 + piece.length))
  length_update _ _ := length_mask
  whole_blocks dir _ pieces h := by
    suffices haligned : ∀ pos, block ∣ pos → outputs (fun (s : Direction × Nat) piece =>
        (mask (fun i => ks i ^^^ if block ∣ s.2 then 0 else flip s.1) s.2 piece,
          (s.1, s.2 + piece.length))) (dir, pos) pieces = mask ks pos pieces.flatten from
      haligned 0 (Nat.dvd_zero block)
    induction pieces with
    | nil => exact fun _ _ => rfl
    | cons piece pieces ih =>
      intro pos hpos
      rw [outputs, List.flatten_cons, mask_append]
      simp only [hpos, if_true, UInt8.xor_zero]
      cases pieces with
      | nil => rfl
      | cons piece' pieces =>
        have hpiece : block ∣ piece.length := h piece List.mem_cons_self
        rw [ih (fun p hp => h p (List.mem_cons_of_mem _ hp)) _ (Nat.dvd_add hpos hpiece)]

variable {flip : Direction → UInt8} {dir : Direction}

theorem tester_update_aligned (hpos : block ∣ pos) (piece : List UInt8) :
    (tester Key block ks flip).update (dir, pos) piece =
      (mask ks pos piece, (dir, pos + piece.length)) := by
  simp [tester, hpos]

theorem tester_update_noFlip (piece : List UInt8) :
    (tester Key block ks fun _ => 0).update (dir, pos) piece =
      (mask ks pos piece, (dir, pos + piece.length)) := by
  simp [tester]

/-- **A text that the tester gets right was cut at blocks.** -/
theorem cut_of_tester (hflip : flip dir ≠ 0) {pieces : List (List UInt8)}
    (hne : ∀ piece ∈ pieces, piece ≠ []) (hpos : block ∣ pos)
    (h : outputs (tester Key block ks flip).update (dir, pos) pieces =
      mask ks pos pieces.flatten) :
    ∀ piece ∈ pieces.dropLast, block ∣ piece.length := by
  induction pieces generalizing pos with
  | nil => exact fun _ hp => by cases hp
  | cons piece pieces ih =>
    cases pieces with
    | nil => exact fun _ hp => by cases hp
    | cons piece' pieces =>
      rw [List.forall_mem_cons] at hne
      rw [outputs, tester_update_aligned hpos, List.flatten_cons, mask_append] at h
      have htail := List.append_cancel_left h
      have hpiece : block ∣ pos + piece.length := by
        by_contra hnot
        rw [outputs, List.flatten_cons] at htail
        have hbegin : mask (fun i => ks i ^^^ flip dir) (pos + piece.length) piece' <+:
            mask ks (pos + piece.length) (piece' ++ pieces.flatten) := by
          rw [← htail]
          simp [tester, hnot]
        have hsame := keystream_eq_of_mask (hne.2 piece' List.mem_cons_self) hbegin
        refine hflip (xor_left_cancel (b := ks (pos + piece.length)) ?_)
        rwa [UInt8.xor_zero]
      rw [List.dropLast_cons_of_ne_nil (List.cons_ne_nil _ _), List.forall_mem_cons]
      exact ⟨(Nat.dvd_add_right hpos).mp hpiece, ih hne.2 hpiece htail⟩

end StreamCipher
