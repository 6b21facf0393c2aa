import Mathlib.Data.List.Basic
import Mathlib.Algebra.Group.Nat.Defs
import Mathlib.Algebra.Group.Int.Defs

/-!
# Ports of a call

`port_config_set` of `coreapi/linphonecall.c` chooses the RTP port of a stream when a call is made.
For a range of ports, `select_random_port` draws a number before its loop of a hundred tries, and
what a try finds stays: all tries are about the same port. If another call uses it, the error value
is stored as the port, with an RTCP port derived from it.

An even port below the least one of the range is moved up by two, which makes an odd port if the
least one is odd.

`random_port_iff`: when what is drawn gives a port, and no error is stored as one.
-/

namespace Linphone

/-! ## Data -/

/-- `PortConfig` -/
structure PortConfig where
  rtpPort : Int32
  rtcpPort : Int32
deriving DecidableEq

/-- The ports of the calls there are, those of a call by the index of the stream. -/
abbrev MediaPorts := List (Fin 2 → PortConfig)

/-! ## Choosing a port -/

/-- A call has the port for a stream. -/
def portUsed (calls : MediaPorts) (streamIndex : Fin 2) (triedPort : Int32) : Bool :=
  calls.any fun call => (call streamIndex).rtpPort = triedPort

/-- The loop of `find_port_offset`, from an offset on. -/
def findPortOffsetLoop (calls : MediaPorts) (streamIndex : Fin 2) (basePort : Int32) :
    Nat → Int32 → Int32
  | 0, offset => offset
  | tries + 1, offset =>
      if portUsed calls streamIndex (basePort + offset) then
        findPortOffsetLoop calls streamIndex basePort tries (offset + 2)
      else offset

/-- `find_port_offset` -/
def findPortOffset (calls : MediaPorts) (streamIndex : Fin 2) (basePort : Int32) : Int32 :=
  let offset := findPortOffsetLoop calls streamIndex basePort 50 0
  if offset = 100 then -1 else offset

/-- The port that is tried for a number of `ortp_random`. -/
def drawnPort (minPort maxPort : Int32) (random : UInt32) : Int32 :=
  let triedPort :=
    ((random % (maxPort - minPort).toUInt32 + minPort.toUInt32) &&& ~~~1).toInt32
  if triedPort < minPort then minPort + 2 else triedPort

/-- The loop of `select_random_port`: the number of tries. -/
def selectRandomPortLoop (calls : MediaPorts) (streamIndex : Fin 2) (triedPort : Int32) :
    Nat → Nat → Bool → Nat
  | 0, nbTries, _ => nbTries
  | left + 1, nbTries, alreadyUsed =>
      let alreadyUsed := portUsed calls streamIndex triedPort || alreadyUsed
      if !alreadyUsed then nbTries
      else selectRandomPortLoop calls streamIndex triedPort left (nbTries + 1) alreadyUsed

/-- `select_random_port`, for the numbers that `ortp_random` gives one after the other. -/
def selectRandomPort (calls : MediaPorts) (streamIndex : Fin 2) (minPort maxPort : Int32)
    (random : Nat → UInt32) : Int32 :=
  let triedPort := drawnPort minPort maxPort (random 0)
  let nbTries := selectRandomPortLoop calls streamIndex triedPort 100 0 false
  if nbTries = 100 then -1 else triedPort

/-- `port_config_set_random` -/
def portConfigSetRandom : PortConfig := { rtpPort := -1, rtcpPort := -1 }

/-- `port_config_set` -/
def portConfigSet (calls : MediaPorts) (streamIndex : Fin 2) (minPort maxPort : Int32)
    (random : Nat → UInt32) : PortConfig :=
  if 0 < minPort ∧ 0 < maxPort then
    if minPort = maxPort then
      let portOffset := findPortOffset calls streamIndex minPort
      if portOffset = -1 then portConfigSetRandom
      else { rtpPort := minPort + portOffset, rtcpPort := minPort + portOffset + 1 }
    else
      let rtpPort := selectRandomPort calls streamIndex minPort maxPort random
      { rtpPort := rtpPort, rtcpPort := rtpPort + 1 }
  else portConfigSetRandom

/-! ## Words -/

theorem toInt_toInt32 (x : UInt32) : x.toInt32.toInt = (x.toNat : Int).bmod (2 ^ 32) :=
  BitVec.toInt_eq_toNat_bmod x.toBitVec

theorem toInt_toInt32_of_emod {x : UInt32} {n : Int} (h : (x.toNat : Int) = n % 2 ^ 32)
    (hmin : -2 ^ 31 ≤ n) (hmax : n < 2 ^ 31) : x.toInt32.toInt = n := by
  rw [toInt_toInt32, h]
  show (n % ((2 ^ 32 : Nat) : Int)).bmod (2 ^ 32) = n
  rw [Int.emod_bmod]
  exact Int.bmod_eq_of_le (by omega) (by omega)

theorem toNat_toUInt32 (x : Int32) : (x.toUInt32.toNat : Int) = x.toInt % 2 ^ 32 := by
  have h : x.toInt = (x.toUInt32.toNat : Int).bmod (2 ^ 32) :=
    BitVec.toInt_eq_toNat_bmod x.toBitVec
  have hlt := x.toUInt32.toNat_lt
  rw [h]
  show _ = (x.toUInt32.toNat : Int).bmod (2 ^ 32) % ((2 ^ 32 : Nat) : Int)
  rw [Int.bmod_emod]
  omega

/-- Without the last bit. -/
theorem toNat_and_not_one (x : UInt32) : (x &&& ~~~1).toNat = x.toNat / 2 * 2 := by
  have hmask : (~~~(1 : UInt32)).toNat = (2 ^ 31 - 1) <<< 1 := by decide
  have hhalf : x.toNat / 2 * 2 = (x.toNat >>> 1) <<< 1 := by
    rw [Nat.shiftLeft_eq, Nat.shiftRight_eq_div_pow]
  rw [UInt32.toNat_and, hmask, hhalf]
  refine Nat.eq_of_testBit_eq fun i => ?_
  rw [Nat.testBit_and, Nat.testBit_shiftLeft, Nat.testBit_shiftLeft, Nat.testBit_shiftRight,
    Nat.testBit_two_pow_sub_one]
  by_cases hi : 1 ≤ i
  · rw [Nat.add_sub_cancel' hi]
    by_cases hlast : i - 1 < 31
    · simp [hi, hlast]
    · have hhigh : x.toNat.testBit i = false :=
        Nat.testBit_lt_two_pow (Nat.lt_of_lt_of_le x.toNat_lt
          (Nat.pow_le_pow_right (by decide) (by omega)))
      simp [hhigh]
  · simp [hi]

/-! ## The port that is tried -/

variable {calls : MediaPorts} {streamIndex : Fin 2} {minPort maxPort port : Int32}
  {random : UInt32}

/-- The even port at a number drawn for the range, or below it. -/
def evenPort (minPort maxPort : Int32) (random : UInt32) : Int :=
  2 * ((minPort.toInt + random.toNat % (maxPort.toInt - minPort.toInt)) / 2)

/-- The least port of the range is odd, and was drawn. -/
def BelowRange (minPort maxPort : Int32) (random : UInt32) : Prop :=
  minPort.toInt % 2 = 1 ∧ maxPort.toInt - minPort.toInt ∣ random.toNat

instance (minPort maxPort : Int32) (random : UInt32) :
    Decidable (BelowRange minPort maxPort random) := by
  unfold BelowRange
  infer_instance

/-- Rounded down, or up to the next odd port. -/
def triedPort (minPort maxPort : Int32) (random : UInt32) : Int :=
  if BelowRange minPort maxPort random then minPort.toInt + 2
  else evenPort minPort maxPort random

theorem toInt_masked (h : minPort < maxPort) :
    ((random % (maxPort - minPort).toUInt32 + minPort.toUInt32) &&& ~~~1).toInt32.toInt =
      evenPort minPort maxPort random := by
  have hlt := Int32.lt_iff_toInt_lt.mp h
  have hmin := minPort.le_toInt
  have hmax := maxPort.toInt_lt
  have hwidth : ((maxPort - minPort).toUInt32.toNat : Int) = maxPort.toInt - minPort.toInt := by
    rw [toNat_toUInt32, Int32.toInt_sub]
    show Int.bmod _ (2 ^ 32) % ((2 ^ 32 : Nat) : Int) = _
    rw [Int.bmod_emod]
    omega
  have hleast := toNat_toUInt32 minPort
  have hdraw : ((random % (maxPort - minPort).toUInt32).toNat : Int) =
      random.toNat % (maxPort.toInt - minPort.toInt) := by
    rw [UInt32.toNat_mod, Int.natCast_emod, hwidth]
  have hnonneg : 0 ≤ (random.toNat : Int) % (maxPort.toInt - minPort.toInt) :=
    Int.emod_nonneg _ (by omega)
  have hless : (random.toNat : Int) % (maxPort.toInt - minPort.toInt) <
      maxPort.toInt - minPort.toInt := Int.emod_lt_of_pos _ (by omega)
  refine toInt_toInt32_of_emod ?_ ?_ ?_
  · rw [toNat_and_not_one, UInt32.toNat_add]
    unfold evenPort
    omega
  · unfold evenPort
    omega
  · unfold evenPort
    omega

theorem evenPort_lt (h : minPort < maxPort) :
    evenPort minPort maxPort random < minPort.toInt ↔ BelowRange minPort maxPort random := by
  have hlt := Int32.lt_iff_toInt_lt.mp h
  have hnonneg : 0 ≤ (random.toNat : Int) % (maxPort.toInt - minPort.toInt) :=
    Int.emod_nonneg _ (by omega)
  rw [BelowRange, Int.dvd_iff_emod_eq_zero, evenPort]
  omega

theorem toInt_drawnPort (h : minPort < maxPort) :
    (drawnPort minPort maxPort random).toInt = triedPort minPort maxPort random := by
  have hlt := Int32.lt_iff_toInt_lt.mp h
  have hmin := minPort.le_toInt
  have hmax := maxPort.toInt_lt
  rw [drawnPort, triedPort]
  simp only [Int32.lt_iff_toInt_lt, toInt_masked h, evenPort_lt h]
  split
  · next hbelow =>
    have hodd := hbelow.1
    rw [Int32.toInt_add]
    exact Int.bmod_eq_of_le (by show _ ≤ minPort.toInt + 2; omega)
      (by show minPort.toInt + 2 < _; omega)
  · exact toInt_masked h

theorem le_triedPort (h : minPort < maxPort) :
    minPort.toInt ≤ triedPort minPort maxPort random := by
  rw [triedPort]
  split
  · omega
  · next hbelow => exact Int.not_lt.mp fun hlt => hbelow ((evenPort_lt h).mp hlt)

theorem evenPort_lt_maxPort (h : minPort < maxPort) :
    evenPort minPort maxPort random < maxPort.toInt := by
  have hlt := Int32.lt_iff_toInt_lt.mp h
  have hless : (random.toNat : Int) % (maxPort.toInt - minPort.toInt) <
      maxPort.toInt - minPort.toInt := Int.emod_lt_of_pos _ (by omega)
  unfold evenPort
  omega

/-! ## What is chosen -/

/-- An even port of the range that no call uses for the stream. -/
structure FreePort (calls : MediaPorts) (streamIndex : Fin 2) (minPort maxPort port : Int32) :
    Prop where
  even : port.toInt % 2 = 0
  least : minPort ≤ port
  most : port ≤ maxPort
  free : ∀ call ∈ calls, (call streamIndex).rtpPort ≠ port

/-- No call uses a port for the stream. -/
def Unused (calls : MediaPorts) (streamIndex : Fin 2) (port : Int) : Prop :=
  ∀ call ∈ calls, (call streamIndex).rtpPort.toInt ≠ port

/-- A number gives an even port of the range that is not used. -/
def GivesPort (calls : MediaPorts) (streamIndex : Fin 2) (minPort maxPort : Int32)
    (random : UInt32) : Prop :=
  ¬BelowRange minPort maxPort random ∧
    Unused calls streamIndex (evenPort minPort maxPort random)

theorem unused_toInt :
    Unused calls streamIndex port.toInt ↔ ∀ call ∈ calls, (call streamIndex).rtpPort ≠ port := by
  simp only [Unused, ne_eq, Int32.toInt_inj]

theorem portUsed_eq_false : portUsed calls streamIndex port = false ↔
    Unused calls streamIndex port.toInt := by
  rw [unused_toInt, portUsed, List.any_eq_false]
  simp only [decide_eq_true_eq, ne_eq]

theorem freePort_drawnPort (h : minPort < maxPort) :
    FreePort calls streamIndex minPort maxPort (drawnPort minPort maxPort random) ↔
      GivesPort calls streamIndex minPort maxPort random := by
  have htried : (drawnPort minPort maxPort random).toInt = triedPort minPort maxPort random :=
    toInt_drawnPort h
  by_cases hbelow : BelowRange minPort maxPort random
  · rw [triedPort, if_pos hbelow] at htried
    refine ⟨fun hfree => ?_, fun hgives => absurd hbelow hgives.1⟩
    have heven := hfree.even
    have hodd := hbelow.1
    omega
  · have hle : minPort.toInt ≤ triedPort minPort maxPort random := le_triedPort h
    rw [triedPort, if_neg hbelow] at htried hle
    constructor
    · intro hfree
      exact ⟨hbelow, htried ▸ unused_toInt.mpr hfree.free⟩
    · intro hgives
      refine ⟨?_, Int32.le_iff_toInt_le.mpr (htried ▸ hle), Int32.le_iff_toInt_le.mpr ?_,
        unused_toInt.mp (htried ▸ hgives.2)⟩
      · rw [htried, evenPort]
        omega
      · rw [htried]
        exact Int.le_of_lt (evenPort_lt_maxPort h)

/-- The loop ends at once, or it ends after all tries. -/
theorem selectRandomPortLoop_eq (left nbTries : Nat) (alreadyUsed : Bool) :
    selectRandomPortLoop calls streamIndex port left nbTries alreadyUsed =
      if portUsed calls streamIndex port || alreadyUsed then nbTries + left else nbTries := by
  induction left generalizing nbTries alreadyUsed with
  | zero => rw [selectRandomPortLoop, Nat.add_zero, ite_self]
  | succ left ih =>
    rw [selectRandomPortLoop, ih]
    cases portUsed calls streamIndex port || alreadyUsed with
    | true =>
      rw [Bool.or_true, if_pos rfl, if_neg (by decide), if_pos rfl, Nat.add_assoc,
        Nat.add_comm 1 left]
    | false => rfl

theorem selectRandomPort_eq (random : Nat → UInt32) :
    selectRandomPort calls streamIndex minPort maxPort random =
      if portUsed calls streamIndex (drawnPort minPort maxPort (random 0)) then -1
      else drawnPort minPort maxPort (random 0) := by
  rw [selectRandomPort]
  simp only [selectRandomPortLoop_eq, Bool.or_false]
  cases portUsed calls streamIndex (drawnPort minPort maxPort (random 0)) with
  | true => rfl
  | false => rfl

/-- Only the first number counts. -/
theorem freePort_selectRandomPort (h : minPort < maxPort) (random : Nat → UInt32) :
    FreePort calls streamIndex minPort maxPort
        (selectRandomPort calls streamIndex minPort maxPort random) ↔
      GivesPort calls streamIndex minPort maxPort (random 0) := by
  rw [selectRandomPort_eq, ← freePort_drawnPort h]
  split
  · next hused =>
    constructor
    · intro hfree
      exact absurd hfree.even (by decide)
    · intro hfree
      rw [portUsed_eq_false.mpr (unused_toInt.mpr hfree.free)] at hused
      cases hused
  · exact Iff.rfl

/-- An error is stored as a port if the first number gives a port that is used. -/
theorem rtpPort_negative_iff (h : minPort < maxPort) (random : Nat → UInt32) :
    ((portConfigSet calls streamIndex minPort maxPort random).rtpPort < 0 ∧
        (portConfigSet calls streamIndex minPort maxPort random).rtcpPort =
          (portConfigSet calls streamIndex minPort maxPort random).rtpPort + 1) ↔
      0 < minPort ∧ ¬Unused calls streamIndex (triedPort minPort maxPort (random 0)) := by
  by_cases hpos : 0 < minPort
  · have hmax : 0 < maxPort := Int32.lt_trans hpos h
    have hne : minPort ≠ maxPort := fun heq => Int32.lt_irrefl (heq ▸ h)
    rw [portConfigSet, if_pos ⟨hpos, hmax⟩, if_neg hne]
    simp only [hpos, true_and, and_true, selectRandomPort_eq]
    rw [← toInt_drawnPort h, ← portUsed_eq_false]
    cases portUsed calls streamIndex (drawnPort minPort maxPort (random 0)) with
    | true =>
      have hnegative : (-1 : Int32) < 0 := by decide
      exact ⟨fun _ => by decide, fun _ => hnegative⟩
    | false =>
      have hle : minPort.toInt ≤ triedPort minPort maxPort (random 0) := le_triedPort h
      rw [← toInt_drawnPort h] at hle
      have hzero : (0 : Int32).toInt = 0 := by decide
      rw [Int32.lt_iff_toInt_lt, hzero] at hpos
      refine ⟨fun hneg => ?_, fun hfalse => absurd rfl hfalse⟩
      rw [if_neg (by decide), Int32.lt_iff_toInt_lt, hzero] at hneg
      omega
  · rw [portConfigSet, if_neg fun hboth => hpos hboth.1]
    exact ⟨fun hneg => absurd hneg.2 (by decide), fun hboth => absurd hboth.1 hpos⟩

/-- **The port of a range** is even, in the range and not used whenever one of a hundred numbers
gives such a port, and no error is stored as a port, exactly if the first number does not give a
port that is used, and it gives an even one unless none of the others gives one. -/
theorem random_port_iff (calls : MediaPorts) (streamIndex : Fin 2) (minPort maxPort : Int32)
    (random : Nat → UInt32) (h : minPort < maxPort) :
    (((∃ i < 100, FreePort calls streamIndex minPort maxPort
            (drawnPort minPort maxPort (random i))) →
          FreePort calls streamIndex minPort maxPort
            (selectRandomPort calls streamIndex minPort maxPort random)) ∧
        ¬((portConfigSet calls streamIndex minPort maxPort random).rtpPort < 0 ∧
          (portConfigSet calls streamIndex minPort maxPort random).rtcpPort =
            (portConfigSet calls streamIndex minPort maxPort random).rtpPort + 1)) ↔
      (GivesPort calls streamIndex minPort maxPort (random 0) ∨
          ∀ i < 100, ¬GivesPort calls streamIndex minPort maxPort (random i)) ∧
        (0 < minPort → Unused calls streamIndex (triedPort minPort maxPort (random 0))) := by
  rw [rtpPort_negative_iff h, freePort_selectRandomPort h]
  simp only [freePort_drawnPort h, not_and, not_not]
  refine and_congr_left fun _ => ?_
  by_cases hfirst : GivesPort calls streamIndex minPort maxPort (random 0)
  · simp only [hfirst, implies_true, true_or]
  · simp only [hfirst, imp_false, false_or, not_exists, not_and]

/-- The ports of a call from 7078 on. -/
def callAt7078 : Fin 2 → PortConfig := fun _ => { rtpPort := 7078, rtcpPort := 7079 }

theorem random_port_first_call :
    (7000 : Int32) < 7100 ∧
      FreePort [callAt7078] 0 7000 7100 (selectRandomPort [callAt7078] 0 7000 7100 fun _ => 0) := by
  have hlt : (7000 : Int32) < 7100 := by decide
  refine ⟨hlt, ((random_port_iff [callAt7078] 0 7000 7100 (fun _ => 0) hlt).mpr ?_).1 ?_⟩
  · refine ⟨.inl ⟨by decide, fun call hcall => ?_⟩, fun _ call hcall => ?_⟩
    · obtain rfl := List.mem_singleton.mp hcall
      decide
    · obtain rfl := List.mem_singleton.mp hcall
      decide
  · refine ⟨0, by decide, by decide, by decide, by decide, fun call hcall => ?_⟩
    obtain rfl := List.mem_singleton.mp hcall
    decide

/-- The port of the first number is used, and it is not drawn again: the error is the port. -/
theorem random_port_used :
    let random : Nat → UInt32 := fun i => if i = 0 then 78 else 10
    FreePort [callAt7078] 0 7000 7100 (drawnPort 7000 7100 (random 1)) ∧
      selectRandomPort [callAt7078] 0 7000 7100 random = -1 ∧
      portConfigSet [callAt7078] 0 7000 7100 random = { rtpPort := -1, rtcpPort := 0 } := by
  intro random
  have hselect : selectRandomPort [callAt7078] 0 7000 7100 random = -1 := by
    rw [selectRandomPort_eq]
    decide
  refine ⟨⟨by decide, by decide, by decide, fun call hcall => ?_⟩, hselect, ?_⟩
  · obtain rfl := List.mem_singleton.mp hcall
    decide
  · rw [portConfigSet, if_pos (by decide), if_neg (by decide), hselect]
    rfl

end Linphone
