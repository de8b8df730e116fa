import Mathlib.Algebra.Ring.Nat
import Mathlib.Logic.Function.Basic

/-!
# Numbers in a memory of bytes

A number stands in `n` bytes of a memory with its low byte first (`readLe`, `writeLe`). What was
written is read back where it fits (`readLe_writeLe`), a place is read alike in two memories that
agree on its bytes (`readLe_congr`), and so writing elsewhere leaves it
(`readLe_writeLe_of_disjoint`). Bytes are filled and copied (`fill`, `copy`).
-/

set_option autoImplicit false

namespace Foundations

/-- A memory of bytes. -/
abbrev ByteMemory := ℕ → UInt8

namespace ByteMemory

variable (m m' : ByteMemory)

/-- The number in `n` bytes from `a` on. -/
def readLe (a : ℕ) : ℕ → ℕ
  | 0 => 0
  | n + 1 => (m a).toNat + 256 * readLe (a + 1) n

/-- A number is put into `n` bytes from `a` on. What does not fit is cut. -/
def writeLe (a : ℕ) : ℕ → ℕ → ByteMemory
  | 0, _ => m
  | n + 1, v => Function.update (writeLe (a + 1) n (v / 256)) a (UInt8.ofNat v)

/-- The bytes from `a` on are set. -/
def fill (a n : ℕ) (b : UInt8) : ByteMemory := fun x => if a ≤ x ∧ x < a + n then b else m x

/-- The bytes from `source` on are copied to `target`. -/
def copy (target source n : ℕ) : ByteMemory := fun x =>
  if target ≤ x ∧ x < target + n then m (source + (x - target)) else m x

variable {m m'}

/-- Writing leaves the other bytes. -/
theorem writeLe_of_disjoint {a n v x : ℕ} (outside : x < a ∨ a + n ≤ x) :
    m.writeLe a n v x = m x := by
  induction n generalizing a v with
  | zero => rfl
  | succ n ih =>
      have other : x ≠ a := by omega
      rw [writeLe, Function.update_of_ne other]
      exact ih (by omega)

/-- A number is read alike where the bytes are alike. -/
theorem readLe_congr {a n : ℕ} (alike : ∀ x, a ≤ x → x < a + n → m' x = m x) :
    m'.readLe a n = m.readLe a n := by
  induction n generalizing a with
  | zero => rfl
  | succ n ih =>
      rw [readLe, readLe, alike a (Nat.le_refl a) (by omega),
        ih fun x low high => alike x (by omega) (by omega)]

/-- A number elsewhere is as before. -/
theorem readLe_writeLe_of_disjoint {a n v b k : ℕ} (apart : b + k ≤ a ∨ a + n ≤ b) :
    (m.writeLe a n v).readLe b k = m.readLe b k :=
  readLe_congr fun x low high => writeLe_of_disjoint (by omega)

/-- What was written is read back. -/
theorem readLe_writeLe {a n v : ℕ} (fits : v < 256 ^ n) : (m.writeLe a n v).readLe a n = v := by
  induction n generalizing a v with
  | zero =>
      rw [Nat.pow_zero] at fits
      rw [readLe]
      omega
  | succ n ih =>
      have high : v / 256 < 256 ^ n := by
        rw [Nat.pow_succ] at fits
        exact Nat.div_lt_of_lt_mul (by omega)
      have rest : (m.writeLe a (n + 1) v).readLe (a + 1) n = v / 256 := by
        rw [readLe_congr (m := m.writeLe (a + 1) n (v / 256)) fun x low _ => ?_, ih high]
        have other : x ≠ a := by omega
        rw [writeLe, Function.update_of_ne other]
      rw [readLe, rest, writeLe, Function.update_self, UInt8.toNat_ofNat']
      omega

end ByteMemory

end Foundations
