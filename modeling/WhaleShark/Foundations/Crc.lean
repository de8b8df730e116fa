import Mathlib.Data.List.Basic

/-!
# Cyclic redundancy checks

A check register takes the bits of a message one by one, each byte with its low bit first, and
shifts right. Its polynomial is reflected.

Feeding a bit is linear in the register. So the bits of a word may be added to the register at once
and then shifted out (`crc_bits`), what shifts do to the high part of a register is to move it
down, and what they do to its low part is a table with an entry for each low part
(`crc_lowBits_table`). A register that is fed its own bits is zero (`crc_own`), which is how a
receiver checks a message that its check follows.
-/

set_option autoImplicit false

namespace Foundations

namespace Crc

variable {w : ℕ} (poly : BitVec w)

/-- One bit of the message. -/
def feed (c : BitVec w) (b : Bool) : BitVec w :=
  if (c.getLsbD 0 ^^ b) = true then (c >>> 1) ^^^ poly else c >>> 1

/-- The register after a message. -/
def crc (c : BitVec w) (message : List Bool) : BitVec w := message.foldl (feed poly) c

/-- The bits of a word, the low bit first. -/
def lowBits {k : ℕ} (x : BitVec k) : List Bool := (List.range k).map x.getLsbD

/-- The register after `k` shifts. -/
def shifts (k : ℕ) (c : BitVec w) : BitVec w := crc poly c (List.replicate k false)

/-- What `k` shifts do to a register whose high part is clear. -/
def table {k : ℕ} (x : BitVec k) : BitVec w := shifts poly k (x.setWidth w)

theorem crc_append (c : BitVec w) (front rest : List Bool) :
    crc poly c (front ++ rest) = crc poly (crc poly c front) rest := List.foldl_append

theorem shifts_succ (k : ℕ) (c : BitVec w) :
    shifts poly (k + 1) c = shifts poly k (feed poly c false) := rfl

/-- The bits of a word, in two parts. -/
theorem lowBits_add {j k : ℕ} (x : BitVec (j + k)) :
    lowBits x = lowBits (x.setWidth j) ++ lowBits ((x >>> j).setWidth k) := by
  rw [lowBits, List.range_add, List.map_append, List.map_map]
  congr 1
  · refine List.map_congr_left fun i member => ?_
    rw [BitVec.getLsbD_setWidth, decide_eq_true (List.mem_range.mp member), Bool.true_and]
  · refine List.map_congr_left fun i member => ?_
    rw [BitVec.getLsbD_setWidth, decide_eq_true (List.mem_range.mp member), Bool.true_and,
      BitVec.getLsbD_ushiftRight]
    rfl

/-! ## Linearity -/

/-- The polynomial, if the bit that leaves the register calls for it. -/
def overflow (b : Bool) : BitVec w := if b = true then poly else 0

theorem feed_eq (c : BitVec w) (b : Bool) :
    feed poly c b = (c >>> 1) ^^^ overflow poly (c.getLsbD 0 ^^ b) := by
  unfold feed overflow
  split
  · rfl
  · exact BitVec.xor_zero.symm

theorem overflow_xor (a b : Bool) :
    overflow poly (a ^^ b) = overflow poly a ^^^ overflow poly b := by
  unfold overflow
  cases a <;> cases b <;> simp

/-- Feeding a bit is linear in the register and the bit. -/
theorem feed_xor (a b : BitVec w) (i j : Bool) :
    feed poly (a ^^^ b) (i ^^ j) = feed poly a i ^^^ feed poly b j := by
  have bits : ((a ^^^ b).getLsbD 0 ^^ (i ^^ j)) = ((a.getLsbD 0 ^^ i) ^^ (b.getLsbD 0 ^^ j)) := by
    rw [BitVec.getLsbD_xor, Bool.xor_assoc, Bool.xor_left_comm (b.getLsbD 0), ← Bool.xor_assoc]
  rw [feed_eq, feed_eq, feed_eq, bits, overflow_xor, BitVec.ushiftRight_xor_distrib]
  ac_rfl

/-- A word that is fed its own low bit moves down. -/
theorem feed_own (x : BitVec w) : feed poly x (x.getLsbD 0) = x >>> 1 := by
  unfold feed
  simp

theorem shifts_xor (k : ℕ) (a b : BitVec w) :
    shifts poly k (a ^^^ b) = shifts poly k a ^^^ shifts poly k b := by
  induction k generalizing a b with
  | zero => rfl
  | succ k ih =>
      have fed := feed_xor poly a b false false
      rw [Bool.xor_false] at fed
      rw [shifts_succ, shifts_succ, shifts_succ, fed, ih]

/-! ## Words -/

/-- The bits of a word may be added to the register at once, and then be shifted out. -/
theorem crc_bits (k : ℕ) (c x : BitVec w) (fits : x >>> k = 0) :
    crc poly c ((List.range k).map x.getLsbD) = shifts poly k (c ^^^ x) := by
  induction k generalizing c x with
  | zero =>
      obtain rfl : x = 0 := by simpa using fits
      rw [BitVec.ofNat_eq_ofNat, BitVec.xor_zero]
      rfl
  | succ k ih =>
      have rest : (List.range k).map (x.getLsbD ∘ Nat.succ) =
          (List.range k).map (x >>> 1).getLsbD := by
        refine List.map_congr_left fun i _ => ?_
        rw [BitVec.getLsbD_ushiftRight, Nat.add_comm 1 i]
        rfl
      have below : (x >>> 1) >>> k = 0 := by
        rw [← BitVec.shiftRight_add, Nat.add_comm, fits]
      have first : feed poly c (x.getLsbD 0) ^^^ (x >>> 1) = feed poly (c ^^^ x) false := by
        rw [← feed_own poly x, ← feed_xor, Bool.xor_self]
      rw [List.range_succ_eq_map, List.map_cons, List.map_map, rest, shifts_succ, ← first,
        ← ih _ _ below]
      rfl

/-- A register with a clear low part only moves down. -/
theorem shifts_high (k : ℕ) (x : BitVec w) (clear : ∀ i < k, x.getLsbD i = false) :
    shifts poly k x = x >>> k := by
  induction k generalizing x with
  | zero => exact (BitVec.ushiftRight_zero x).symm
  | succ k ih =>
      have moved : feed poly x false = x >>> 1 := by
        rw [← feed_own poly x, clear 0 (Nat.zero_lt_succ k)]
      rw [shifts_succ, moved, ih, ← BitVec.shiftRight_add, Nat.add_comm]
      intro i bound
      rw [BitVec.getLsbD_ushiftRight]
      exact clear (1 + i) (by omega)

variable {k : ℕ}

/-- **Shifts by a table.** -/
theorem shifts_eq_table (c : BitVec w) :
    shifts poly k c = table poly (c.setWidth k) ^^^ (c >>> k) := by
  have low (i : ℕ) : ((c.setWidth k).setWidth w).getLsbD i = (decide (i < k) && c.getLsbD i) := by
    rw [BitVec.getLsbD_setWidth, BitVec.getLsbD_setWidth]
    by_cases inside : i < w
    · simp [inside]
    · simp [BitVec.getLsbD_of_ge c i (Nat.le_of_not_lt inside)]
  have high : shifts poly k (c ^^^ (c.setWidth k).setWidth w) = c >>> k := by
    rw [shifts_high]
    · apply BitVec.eq_of_getLsbD_eq
      intro i _
      have outside : ¬ k + i < k := by omega
      rw [BitVec.getLsbD_ushiftRight, BitVec.getLsbD_ushiftRight, BitVec.getLsbD_xor, low]
      simp [outside]
    · intro i bound
      rw [BitVec.getLsbD_xor, low]
      simp [bound]
  calc shifts poly k c
      = shifts poly k ((c.setWidth k).setWidth w ^^^ (c ^^^ (c.setWidth k).setWidth w)) := by
        rw [BitVec.xor_comm c, ← BitVec.xor_assoc, BitVec.xor_self, BitVec.zero_xor]
    _ = table poly (c.setWidth k) ^^^ (c >>> k) := by rw [shifts_xor, high, table]

/-- **The bits of a word by a table.** -/
theorem crc_lowBits_table (fits : k ≤ w) (c : BitVec w) (x : BitVec k) :
    crc poly c (lowBits x) = table poly (c.setWidth k ^^^ x) ^^^ (c >>> k) := by
  have same : lowBits x = (List.range k).map (x.setWidth w).getLsbD := by
    refine List.map_congr_left fun i member => ?_
    have inside : i < w := Nat.lt_of_lt_of_le (List.mem_range.mp member) fits
    rw [BitVec.getLsbD_setWidth, decide_eq_true inside, Bool.true_and]
  have none_ : x.setWidth w >>> k = 0 := by
    apply BitVec.eq_of_getLsbD_eq
    intro i _
    rw [BitVec.getLsbD_ushiftRight, BitVec.getLsbD_setWidth,
      BitVec.getLsbD_of_ge x (k + i) (Nat.le_add_right k i)]
    simp
  rw [same, crc_bits poly k c _ none_, shifts_eq_table, BitVec.setWidth_xor,
    BitVec.ushiftRight_xor_distrib, none_, BitVec.setWidth_setWidth_of_le _ fits,
    BitVec.setWidth_eq]
  simp

/-- **A register that is fed its own bits is zero.** -/
theorem crc_own (c : BitVec w) : crc poly c (lowBits c) = 0 := by
  have out : c >>> w = 0 := BitVec.ushiftRight_eq_zero (Nat.le_refl w)
  rw [lowBits, crc_bits poly w c c out, BitVec.xor_self,
    shifts_high poly w _ fun i _ => BitVec.getLsbD_zero]
  exact BitVec.ushiftRight_eq_zero (Nat.le_refl w)

end Crc

end Foundations
