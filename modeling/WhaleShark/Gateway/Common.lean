import Mathlib.Tactic.IntervalCases

/-!
# What every part of the gateway firmware shares

The bytes that frame its packets and lines, the messages its threads send each other, and the
two macros that swap the bytes of a half word and of a word. The microcontroller stores a word
with its low byte first (`leBytes32`), so a swapped word lies in memory with its high byte
first (`leBytes32_htonl`, `leBytes16_htons`).
-/

set_option autoImplicit false

namespace WhaleShark

/-! ## `appconfig.h` -/

/-- `CR` -/
def cr : UInt8 := 0x0D

/-- `LF` -/
def lf : UInt8 := 0x0A

/-- `STX` -/
def stx : UInt8 := 0x02

/-- `ETX` -/
def etx : UInt8 := 0x03

/-- `ENABLE` and `DISABLE` of the device library. -/
abbrev FunctionalState := Bool

abbrev enable : FunctionalState := true

abbrev disable : FunctionalState := false

/-- The bytes of a text literal of the source. Its texts are ASCII. -/
def text (s : String) : List UInt8 := s.toList.map fun c => c.toNat.toUInt8

/-- `p[i]`, for a byte inside the memory at `p`. -/
def byteAt (p : List UInt8) (i : ℕ) : UInt8 := p.getD i 0

theorem byteAt_eq (p : List UInt8) (i : ℕ) : byteAt p i = p[i]?.getD 0 := by
  rw [byteAt, List.getD_eq_getElem?_getD]

theorem byteAt_eq_getElem {p : List UInt8} {i : ℕ} (inside : i < p.length) :
    byteAt p i = p[i] := by
  rw [byteAt_eq, List.getElem?_eq_getElem inside, Option.getD_some]

theorem getElem?_eq_byteAt {p : List UInt8} {i : ℕ} (inside : i < p.length) :
    p[i]? = some (byteAt p i) := by
  rw [byteAt_eq_getElem inside, List.getElem?_eq_getElem inside]

theorem byteAt_mem {p : List UInt8} {i : ℕ} (inside : i < p.length) : byteAt p i ∈ p :=
  List.mem_of_getElem? (getElem?_eq_byteAt inside)

theorem byteAt_drop (p : List UInt8) (k i : ℕ) : byteAt (p.drop k) i = byteAt p (k + i) := by
  rw [byteAt_eq, byteAt_eq, List.getElem?_drop]

theorem byteAt_take {p : List UInt8} {k i : ℕ} (bound : i < k) :
    byteAt (p.take k) i = byteAt p i := by
  rw [byteAt_eq, byteAt_eq, List.getElem?_take, if_pos bound]

theorem byteAt_append_left {p q : List UInt8} {i : ℕ} (inside : i < p.length) :
    byteAt (p ++ q) i = byteAt p i := by
  rw [byteAt_eq, byteAt_eq, List.getElem?_append_left inside]

theorem byteAt_append_right {p q : List UInt8} {i : ℕ} (outside : p.length ≤ i) :
    byteAt (p ++ q) i = byteAt q (i - p.length) := by
  rw [byteAt_eq, byteAt_eq, List.getElem?_append_right outside]

/-! ## `common.h` -/

/-- `HTONS` -/
def htons (x : UInt16) : UInt16 :=
  ((x >>> 8) &&& (0x00ff : UInt16)) ||| ((x <<< 8) &&& (0xff00 : UInt16))

/-- `HTONL` -/
def htonl (x : UInt32) : UInt32 :=
  ((x >>> 24) &&& (0x000000ff : UInt32)) ||| ((x >>> 8) &&& (0x0000ff00 : UInt32)) |||
    ((x <<< 8) &&& (0x00ff0000 : UInt32)) ||| ((x <<< 24) &&& (0xff000000 : UInt32))

/-- A half word as it lies in memory. -/
def leBytes16 (x : UInt16) : List UInt8 := [x.toUInt8, (x >>> 8).toUInt8]

/-- A word as it lies in memory. -/
def leBytes32 (x : UInt32) : List UInt8 :=
  [x.toUInt8, (x >>> 8).toUInt8, (x >>> 16).toUInt8, (x >>> 24).toUInt8]

/-- The word that lies in memory as these four bytes. -/
def ofLeBytes32 (a b c d : UInt8) : UInt32 :=
  a.toUInt32 ||| (b.toUInt32 <<< 8) ||| (c.toUInt32 <<< 16) ||| (d.toUInt32 <<< 24)

@[simp] theorem length_leBytes16 (x : UInt16) : (leBytes16 x).length = 2 := rfl

/-- A swapped half word lies in memory with its high byte first. -/
theorem leBytes16_htons (x : UInt16) : leBytes16 (htons x) = [(x >>> 8).toUInt8, x.toUInt8] := by
  simp only [leBytes16, htons, List.cons.injEq, and_true]
  constructor <;>
  · apply UInt8.toBitVec_inj.mp
    ext i bound
    simp
    interval_cases i <;> simp

/-- A half word is told by its bytes. -/
theorem leBytes16_inj {x y : UInt16} : leBytes16 x = leBytes16 y ↔ x = y := by
  refine ⟨fun same => ?_, congrArg leBytes16⟩
  obtain ⟨low, high⟩ : x.toUInt8 = y.toUInt8 ∧ (x >>> 8).toUInt8 = (y >>> 8).toUInt8 := by
    simpa [leBytes16] using same
  have lowBits := congrArg UInt8.toNat low
  have highBits := congrArg UInt8.toNat high
  have small (z : UInt16) : z.toNat < 2 ^ 16 := z.toNat_lt
  have bigX := small x
  have bigY := small y
  simp only [UInt16.toNat_toUInt8, UInt16.toNat_shiftRight, Nat.shiftRight_eq_div_pow]
    at lowBits highBits
  have eight : (8 : UInt16).toNat % 16 = 8 := rfl
  rw [eight] at highBits
  apply UInt16.toNat_inj.mp
  omega

/-- A word loaded, swapped and stored lies in memory in reversed order. -/
theorem leBytes32_htonl (a b c d : UInt8) :
    leBytes32 (htonl (ofLeBytes32 a b c d)) = [d, c, b, a] := by
  simp only [leBytes32, htonl, ofLeBytes32, List.cons.injEq, and_true]
  refine ⟨?_, ?_, ?_, ?_⟩ <;>
  · apply UInt8.toBitVec_inj.mp
    ext i bound
    simp
    interval_cases i <;> simp

/-- The low byte of a word lies first. -/
theorem toUInt8_ofLeBytes32 (a b c d : UInt8) : (ofLeBytes32 a b c d).toUInt8 = a := by
  apply UInt8.toBitVec_inj.mp
  ext i bound
  simp [ofLeBytes32]

end WhaleShark
