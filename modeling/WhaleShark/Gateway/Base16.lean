import Mathlib.Data.List.Forall2
import Mathlib.Data.Stream.Init
import WhaleShark.Gateway.CLibrary

/-!
# Hexadecimal texts

`base16_encode` returns the length of its text, which is two characters for each byte.
`base16_decode` takes such a length, but counts it down once for each byte that it writes. What
stops it behind the text is a NUL alone: a text is read back exactly when it is empty or a NUL
stands behind it (`base16_roundtrip_iff`). Where it was encoded, `rt_sprintf` has left one
(`base16_roundtrip_in_place`).
-/

set_option autoImplicit false

namespace WhaleShark

/-! ## `common.c` -/

/-- A digit of `%02X`. -/
def upperDigit (n : ℕ) : UInt8 := if n < 10 then 0x30 + n.toUInt8 else 0x41 + (n - 10).toUInt8

/-- `%02X` -/
def format02X (b : UInt8) : List UInt8 := [upperDigit (b.toNat / 16), upperDigit (b.toNat % 16)]

/-- `base16_encode`: what it writes from `pDst` on, and what it returns. The length is that of
`pSrc`. -/
def base16Encode : Option (List UInt8) → List UInt8 × UInt16
  | none => ([], 0)
  | some pSrc =>
      let pos := pSrc.flatMap format02X
      -- each `rt_sprintf` writes a NUL behind its digits, where the next writes its own
      (pos ++ if pSrc = [] then [] else [0], pos.length.toUInt16)

/-- `toupper` -/
def toUpper (b : UInt8) : UInt8 := if 0x61 ≤ b ∧ b ≤ 0x7A then b - 0x20 else b

/-- `tolower` -/
def toLower (b : UInt8) : UInt8 := if 0x41 ≤ b ∧ b ≤ 0x5A then b + 0x20 else b

/-- The value of a character, as `base16_decode` computes it. -/
def nibble (data : UInt8) : UInt8 :=
  if isDigit data then data - 0x30 else toUpper data - (0x41 - 10)

/-- The loop of `base16_decode`, on the memory from `pSrc` on: what it writes from `pos` on. -/
def base16DecodeLoop : ℕ → Stream' UInt8 → List UInt8
  | 0, _ => []
  | srcLen + 1, pSrc =>
      if pSrc.head = 0 then []
      else
        let code := nibble pSrc.head
        let pSrc := pSrc.tail
        if pSrc.head = 0 then code :: base16DecodeLoop srcLen pSrc
        else ((code <<< 4) + nibble pSrc.head) :: base16DecodeLoop srcLen pSrc.tail

/-- `base16_decode`: what it writes from `pDst` on, and what it returns. -/
def base16Decode (pSrc : Option (Stream' UInt8)) (srcLen : UInt16) : List UInt8 × UInt16 :=
  match pSrc with
  | none => ([], 0)
  | some pSrc =>
      let pos := base16DecodeLoop srcLen.toNat pSrc
      (pos, pos.length.toUInt16)

/-! ## One byte -/

/-- The text, with any of its letters in lower case. -/
def InEitherCase (text shown : List UInt8) : Prop :=
  List.Forall₂ (fun b c => c = b ∨ c = toLower b) text shown

/-- A digit in either case is no NUL, and is read back. -/
theorem nibble_digit {n : ℕ} (bound : n < 16) {c : UInt8}
    (shown : c = upperDigit n ∨ c = toLower (upperDigit n)) : c ≠ 0 ∧ nibble c = n.toUInt8 := by
  rcases shown with rfl | rfl <;> interval_cases n <;> decide

theorem nibbles_byte (b : UInt8) :
    ((b.toNat / 16).toUInt8 <<< 4) + (b.toNat % 16).toUInt8 = b := by
  have bound : b.toNat < 256 := b.toNat_lt
  apply UInt8.toNat_inj.mp
  have four : (4 : UInt8).toNat % 8 = 4 := rfl
  simp only [UInt8.toNat_add, UInt8.toNat_shiftLeft, four, Nat.shiftLeft_eq, Nat.toUInt8,
    UInt8.toNat_ofNat']
  omega

/-- The two characters of a byte are read back as the byte. -/
theorem base16DecodeLoop_byte {b high low : UInt8} {shown : List UInt8}
    (first : high = upperDigit (b.toNat / 16) ∨ high = toLower (upperDigit (b.toNat / 16)))
    (second : low = upperDigit (b.toNat % 16) ∨ low = toLower (upperDigit (b.toNat % 16)))
    (srcLen : ℕ) (behind : Stream' UInt8) :
    base16DecodeLoop (srcLen + 1) ((high :: low :: shown) ++ₛ behind) =
      b :: base16DecodeLoop srcLen (shown ++ₛ behind) := by
  have bound : b.toNat < 256 := b.toNat_lt
  obtain ⟨some_, value⟩ := nibble_digit (by omega) first
  obtain ⟨some', value'⟩ := nibble_digit (Nat.mod_lt _ (by decide)) second
  rw [base16DecodeLoop]
  simp only [Stream'.cons_append_stream, Stream'.head_cons, Stream'.tail_cons, if_neg some_,
    if_neg some', value, value', nibbles_byte]

/-! ## The round trip -/

theorem length_digits (x : List UInt8) : (x.flatMap format02X).length = 2 * x.length := by
  induction x with
  | nil => rfl
  | cons b x ih =>
      rw [List.flatMap_cons, List.length_append, ih, List.length_cons]
      simp only [format02X, List.length_cons, List.length_nil]
      omega

/-- A text is read back, in as many steps as it has bytes. -/
theorem base16DecodeLoop_text {x shown : List UInt8}
    (variant : InEitherCase (x.flatMap format02X) shown) (more : ℕ) (behind : Stream' UInt8) :
    base16DecodeLoop (x.length + more) (shown ++ₛ behind) = x ++ base16DecodeLoop more behind := by
  induction x generalizing shown with
  | nil =>
      cases variant
      rw [List.length_nil, Nat.zero_add]
      rfl
  | cons b x ih =>
      rw [List.flatMap_cons] at variant
      cases variant with
      | cons first rest =>
          cases rest with
          | cons second rest =>
              rw [List.length_cons, Nat.add_right_comm, base16DecodeLoop_byte first second,
                ih rest, List.cons_append]

/-- Behind a text it stops at a NUL only. -/
theorem base16DecodeLoop_eq_nil {srcLen : ℕ} (some_ : srcLen ≠ 0) (pSrc : Stream' UInt8) :
    base16DecodeLoop srcLen pSrc = [] ↔ pSrc.head = 0 := by
  obtain ⟨n, rfl⟩ := Nat.exists_eq_succ_of_ne_zero some_
  rw [base16DecodeLoop]
  split
  · rename_i stops
    exact iff_of_true rfl stops
  · rename_i goes
    refine iff_of_false ?_ goes
    dsimp only
    split <;> exact List.cons_ne_nil _ _

/-- The text that was encoded: as many characters as `base16_encode` returned. -/
def base16Text (x : List UInt8) : List UInt8 :=
  (base16Encode (some x)).1.take (base16Encode (some x)).2.toNat

theorem toNat_base16Encode {x : List UInt8} (bound : x.length ≤ 32767) :
    (base16Encode (some x)).2.toNat = 2 * x.length := by
  rw [base16Encode]
  simp only [length_digits, Nat.toUInt16, UInt16.toNat_ofNat']
  omega

theorem base16Text_eq {x : List UInt8} (bound : x.length ≤ 32767) :
    base16Text x = x.flatMap format02X := by
  rw [base16Text, toNat_base16Encode bound, base16Encode, ← length_digits, List.take_left]

/-- **A text is read back exactly when it is empty or a NUL stands behind it.** -/
theorem base16_roundtrip_iff {x shown : List UInt8} (bound : x.length ≤ 32767)
    (variant : InEitherCase (base16Text x) shown) (behind : Stream' UInt8) :
    base16Decode (some (shown ++ₛ behind)) (base16Encode (some x)).2 = (x, x.length.toUInt16) ↔
      x = [] ∨ behind.head = 0 := by
  rw [base16Text_eq bound] at variant
  have decoded : base16DecodeLoop (base16Encode (some x)).2.toNat (shown ++ₛ behind) =
      x ++ base16DecodeLoop x.length behind := by
    rw [toNat_base16Encode bound, Nat.two_mul, base16DecodeLoop_text variant]
  rw [base16Decode]
  simp only [decoded, Prod.mk.injEq]
  constructor
  · rintro ⟨same, -⟩
    by_cases empty : x = []
    · exact .inl empty
    · have none_ : base16DecodeLoop x.length behind = [] := by simpa using same
      exact .inr ((base16DecodeLoop_eq_nil (by simpa using empty) behind).mp none_)
  · rintro (rfl | nul)
    · exact ⟨rfl, rfl⟩
    · by_cases empty : x = []
      · subst empty
        exact ⟨rfl, rfl⟩
      · have none_ : base16DecodeLoop x.length behind = [] :=
          (base16DecodeLoop_eq_nil (by simpa using empty) behind).mpr nul
        rw [none_, List.append_nil]
        exact ⟨rfl, rfl⟩

theorem base16_roundtrip_iff_lower :
    base16Decode (some ([0x61, 0x42] ++ₛ Stream'.const 0)) (base16Encode (some [0xAB])).2 =
        ([0xAB], (1 : ℕ).toUInt16) ↔
      [(0xAB : UInt8)] = [] ∨ (Stream'.const (0 : UInt8)).head = 0 := by
  have written : base16Text [0xAB] = [0x41, 0x42] := by decide +kernel
  have variant : InEitherCase (base16Text [0xAB]) [0x61, 0x42] := by
    rw [written]
    exact .cons (.inr rfl) (.cons (.inl rfl) .nil)
  exact base16_roundtrip_iff (by decide) variant (Stream'.const 0)

/-- Two digits that stand behind a text are read with it. -/
theorem base16_reads_on :
    base16Text [0xAB] = [0x41, 0x42] ∧
      base16Decode (some ([0x41, 0x42] ++ₛ ([0x34, 0x31] ++ₛ Stream'.const 0)))
          (base16Encode (some [0xAB])).2 = ([0xAB, 0x41], 2) ∧
      ¬ base16Decode (some ([0x41, 0x42] ++ₛ ([0x34, 0x31] ++ₛ Stream'.const 0)))
          (base16Encode (some [0xAB])).2 = ([0xAB], 1) := by
  refine ⟨by decide +kernel, by decide +kernel, by decide +kernel⟩

/-- **Where it was encoded a text is read back**, whatever stands behind it. -/
theorem base16_roundtrip_in_place {x : List UInt8} (bound : x.length ≤ 32767)
    (behind : Stream' UInt8) :
    base16Decode (some ((base16Encode (some x)).1 ++ₛ behind)) (base16Encode (some x)).2 =
      (x, x.length.toUInt16) := by
  have upper (s : List UInt8) : InEitherCase s s :=
    List.forall₂_same.mpr fun _ _ => .inl rfl
  have variant := upper (x.flatMap format02X)
  have decoded : base16DecodeLoop (base16Encode (some x)).2.toNat
      ((base16Encode (some x)).1 ++ₛ behind) = x := by
    rw [toNat_base16Encode bound, Nat.two_mul, base16Encode]
    by_cases empty : x = []
    · subst empty
      rfl
    · have none_ : base16DecodeLoop x.length ([0] ++ₛ behind) = [] :=
        (base16DecodeLoop_eq_nil (by simpa using empty) ([0] ++ₛ behind)).mpr rfl
      rw [if_neg empty, Stream'.append_append_stream, base16DecodeLoop_text variant, none_,
        List.append_nil]
  rw [base16Decode]
  simp only [decoded]

end WhaleShark
