import WhaleShark.Server.Python

/-!
# The packets of the instrument monitor

`make_packet` puts a packet together from pieces of hexadecimal text, each of which
`bytearray.fromhex` turns into bytes. The letters of the facility and of the function are written
as the hexadecimal numbers of their characters, the digits of the facility's id as a byte each, and
the value in four hexadecimal digits. So what the packet looks like depends on how many digits a
character takes (`makePacket_eq`), and a `float` for a value raises.
-/

set_option autoImplicit false

namespace WhaleShark.Monitor

open Server

/-! ## What it uses of Python -/

/-- `format(n, "x")` -/
def formatX (n : ℕ) : Str := Nat.toDigits 16 n

/-- `'{:04x}'.format(n)` -/
def format04x (n : ℕ) : Str := zeroPad 4 (formatX n)

/-- `bytearray.fromhex(text)`, for a text without blanks. -/
def fromHex : Str → Option Bytes
  | [] => some []
  | [_] => none
  | a :: b :: text => do
      let high ← hexDigit a
      let low ← hexDigit b
      let bytes ← fromHex text
      return (16 * high + low).toUInt8 :: bytes

/-- `ord(s)`. A text that is not one character raises. -/
def ord : Str → Option ℕ
  | [c] => some c.toNat
  | _ => none

/-- The zeros of the scripts that have decimal digits. The other nine digits follow each. -/
def digitZeros : List ℕ :=
  [0x30, 0x660, 0x6f0, 0x7c0, 0x966, 0x9e6, 0xa66, 0xae6, 0xb66, 0xbe6, 0xc66, 0xce6, 0xd66, 0xde6,
    0xe50, 0xed0, 0xf20, 0x1040, 0x1090, 0x17e0, 0x1810, 0x1946, 0x19d0, 0x1a80, 0x1a90, 0x1b50,
    0x1bb0, 0x1c40, 0x1c50, 0xa620, 0xa8d0, 0xa900, 0xa9d0, 0xa9f0, 0xaa50, 0xabf0, 0xff10, 0x104a0,
    0x10d30, 0x11066, 0x110f0, 0x11136, 0x111d0, 0x112f0, 0x11450, 0x114d0, 0x11650, 0x116c0,
    0x11730, 0x118e0, 0x11950, 0x11c50, 0x11d50, 0x11da0, 0x16a60, 0x16ac0, 0x16b50, 0x1d7ce,
    0x1d7d8, 0x1d7e2, 0x1d7ec, 0x1d7f6, 0x1e140, 0x1e2f0, 0x1e950, 0x1fbf0]

/-- The value of a decimal digit, of any script. -/
def decimalDigit (c : Char) : Option ℕ :=
  (digitZeros.find? fun first => decide (first ≤ c.toNat ∧ c.toNat < first + 10)).map
    fun first => c.toNat - first

/-- `int(s)`, for a text of at most one character. One that is no digit raises. -/
def intOf : Str → Option ℕ
  | [c] => decimalDigit c
  | _ => none

/-- An `int`, or the `float` that `float(fv) * math.pow(10, decimalpoint)` is. -/
inductive Number where
  | int (n : ℕ)
  | float (fv decimalpoint : ℕ)
  deriving DecidableEq

/-- `'{:04x}'.format(x)`. A `float` has no format `x`, and raises. -/
def Number.format04x : Number → Option Str
  | .int n => some (Monitor.format04x n)
  | .float _ _ => none

/-! ## The packet -/

/-- `get_timebytearray` -/
def getTimebytearray (fullMessage : Bytes) : Option Bytes := do
  let fullMessage := fullMessage ++ (← fromHex (format02x 0))
  let fullMessage := fullMessage ++ (← fromHex (format02x 0))
  let fullMessage := fullMessage ++ (← fromHex (format02x 0))
  return fullMessage ++ (← fromHex (format02x 0))

/-- `make_packet`. Of the name and the id the first two items are given. `none` says that it
raises. -/
def makePacket (facilityName facilityId : Str × Str) (fn : Str) (fv : Number)
    (decimalpoint : ℕ) : Option Bytes := do
  let fullMessage ← fromHex (format02x 2)
  let fullMessage ← getTimebytearray fullMessage
  let facilityName := formatX (← ord facilityName.1) ++ formatX (← ord facilityName.2)
  let fullMessage := fullMessage ++ (← fromHex facilityName)
  let facilityId := format02x (← intOf facilityId.1) ++ format02x (← intOf facilityId.2)
  let fullMessage := fullMessage ++ (← fromHex facilityId)
  let sensorCode := format02x 0 ++ format02x 9
  let fullMessage := fullMessage ++ (← fromHex sensorCode)
  let fn := (fn.take 1, (fn.drop 1).take 1)
  let functionCode := formatX (← ord fn.1) ++ formatX (← ord fn.2)
  let fullMessage := fullMessage ++ (← fromHex functionCode)
  let functionValue ← fv.format04x
  let fullMessage := fullMessage ++ (← fromHex functionValue)
  let decimalpoint := format02x decimalpoint
  let fullMessage := fullMessage ++ (← fromHex decimalpoint)
  return fullMessage ++ (← fromHex (format02x 3))

/-! ## Hexadecimal texts -/

theorem hexDigit_digitChar {d : ℕ} (bound : d < 16) : hexDigit d.digitChar = some d := by
  interval_cases d <;> decide

/-- Texts that are read one behind the other. -/
theorem fromHex_append {s : Str} {p : Bytes} (read : fromHex s = some p) (t : Str) :
    fromHex (s ++ t) = (fromHex t).map (p ++ ·) := by
  induction s using fromHex.induct generalizing p with
  | case1 =>
      cases read
      simp
  | case2 => cases read
  | case3 a b s ih =>
      simp only [fromHex, Option.bind_eq_bind, Option.bind_eq_some_iff, Option.pure_def,
        Option.some.injEq] at read
      obtain ⟨high, first, low, second, bytes, rest, rfl⟩ := read
      rw [List.cons_append, List.cons_append, fromHex, first, second, ih rest]
      cases fromHex t <;> rfl

/-- A text of hexadecimal digits is read when it can be cut into pairs, which are the bytes. -/
theorem fromHex_of_digits {s : Str} (digits : ∀ c ∈ s, (hexDigit c).isSome) :
    if Even s.length then ∃ p, fromHex s = some p ∧ s.length = 2 * p.length
    else fromHex s = none := by
  induction s using fromHex.induct with
  | case1 => simp [fromHex]
  | case2 => simp [fromHex]
  | case3 a b s ih =>
      obtain ⟨high, first⟩ := Option.isSome_iff_exists.mp (digits a (by simp))
      obtain ⟨low, second⟩ := Option.isSome_iff_exists.mp (digits b (by simp))
      have rest := ih fun c member => digits c (by simp [member])
      have length : Even (a :: b :: s).length ↔ Even s.length := by
        simp [Nat.even_add_one]
      by_cases even : Even s.length
      · rw [if_pos even] at rest
        obtain ⟨p, read, count⟩ := rest
        rw [if_pos (length.mpr even)]
        refine ⟨(16 * high + low).toUInt8 :: p, ?_, ?_⟩
        · rw [fromHex, first, second, read]
          rfl
        · simp only [List.length_cons, count]
          omega
      · rw [if_neg even] at rest
        rw [if_neg (mt length.mp even), fromHex, first, second, rest]
        rfl

/-- The digits that write a number are hexadecimal digits. -/
theorem digits_formatX (n : ℕ) : ∀ c ∈ formatX n, (hexDigit c).isSome := by
  induction n using Nat.strongRecOn with
  | ind n ih =>
      have last {d : ℕ} (bound : d < 16) : (hexDigit d.digitChar).isSome := by
        rw [hexDigit_digitChar bound]
        rfl
      intro c member
      rcases Nat.lt_or_ge n 16 with one | more
      · rw [formatX, Nat.toDigits_of_lt_base one, List.mem_singleton] at member
        exact member ▸ last one
      · rw [formatX, Nat.toDigits_of_base_le (by decide) more, List.mem_append,
          List.mem_singleton] at member
        rcases member with front | rfl
        · exact ih (n / 16) (Nat.div_lt_self (by omega) (by decide)) c front
        · exact last (Nat.mod_lt _ (by decide))

theorem digits_append (n m : ℕ) : ∀ c ∈ formatX n ++ formatX m, (hexDigit c).isSome := by
  intro c member
  rcases List.mem_append.mp member with first | second
  · exact digits_formatX n c first
  · exact digits_formatX m c second

theorem length_formatX_le {n k : ℕ} (some_ : 0 < k) : (formatX n).length ≤ k ↔ n < 16 ^ k :=
  Nat.length_toDigits_le_iff (by decide) some_

/-- A padded number has its last digit behind the padded rest of it. -/
theorem zeroPad_formatX (width n : ℕ) : zeroPad (width + 2) (formatX n) =
    zeroPad (width + 1) (formatX (n / 16)) ++ [(n % 16).digitChar] := by
  rcases Nat.lt_or_ge n 16 with one | more
  · rw [formatX, Nat.toDigits_of_lt_base one, formatX, Nat.div_eq_of_lt one, Nat.mod_eq_of_lt one,
      Nat.toDigits_zero, zeroPad, zeroPad, List.length_singleton, List.length_singleton,
      ← List.replicate_succ']
    rfl
  · rw [formatX, Nat.toDigits_of_base_le (by decide) more, ← formatX, zeroPad, zeroPad,
      List.length_append, List.length_singleton, ← List.append_assoc]
    congr 3
    omega

theorem fromHex_format02x {b : ℕ} (bound : b < 256) :
    fromHex (format02x b) = some [b.toUInt8] := by
  have value : 16 * (b / 16) + b % 16 = b := Nat.div_add_mod _ 16
  rw [format02x_byte bound, fromHex, hexDigit_digitChar (by omega),
    hexDigit_digitChar (Nat.mod_lt _ (by decide)), fromHex]
  show some [(16 * (b / 16) + b % 16).toUInt8] = some [b.toUInt8]
  rw [value]

/-- Four digits are those of two bytes. -/
theorem format04x_eq {n : ℕ} (bound : n < 65536) :
    format04x n = format02x (n / 256) ++ format02x (n % 256) := by
  have high : n / 256 < 256 := by omega
  have single {d : ℕ} (small : d < 16) : zeroPad 1 (formatX d) = [d.digitChar] := by
    rw [formatX, Nat.toDigits_of_lt_base small]
    rfl
  have first : n / 16 / 16 / 16 = n / 256 / 16 := by omega
  have second : n / 16 / 16 % 16 = n / 256 % 16 := by omega
  have third : n / 16 % 16 = n % 256 / 16 := by omega
  have fourth : n % 16 = n % 256 % 16 := by omega
  rw [format02x_byte high, format02x_byte (Nat.mod_lt _ (by decide)), format04x,
    zeroPad_formatX 2, zeroPad_formatX 1, zeroPad_formatX 0, single (by omega), first, second,
    third, fourth]
  rfl

theorem fromHex_two {a b : ℕ} (high : a < 256) (low : b < 256) :
    fromHex (format02x a ++ format02x b) = some [a.toUInt8, b.toUInt8] := by
  rw [fromHex_append (fromHex_format02x high), fromHex_format02x low]
  rfl

/-! ## What a packet looks like -/

theorem decimalDigit_lt {c : Char} {d : ℕ} (is : decimalDigit c = some d) : d < 10 := by
  obtain ⟨first, found, rfl⟩ := Option.map_eq_some_iff.mp is
  have within := List.find?_some found
  rw [decide_eq_true_eq] at within
  omega

theorem intOf_lt {s : Str} {d : ℕ} (is : intOf s = some d) : d < 10 := by
  unfold intOf at is
  split at is
  · exact decimalDigit_lt is
  · cases is

theorem getTimebytearray_eq (fullMessage : Bytes) :
    getTimebytearray fullMessage = some (fullMessage ++ [0, 0, 0, 0]) := by
  have zero_ : fromHex (format02x 0) = some [0] := by decide +kernel
  simp [getTimebytearray, zero_]

/-- **What a packet looks like**, when its texts have the characters that are looked at: only the
name and the function may have bytes that are not two. -/
theorem makePacket_eq {facilityName facilityId : Str × Str} {n0 n1 i0 i1 : ℕ}
    (name0 : ord facilityName.1 = some n0) (name1 : ord facilityName.2 = some n1)
    (id0 : intOf facilityId.1 = some i0) (id1 : intOf facilityId.2 = some i1) (f0 f1 : Char)
    {fv decimalpoint : ℕ} (half : fv < 65536) (byte : decimalpoint < 256) :
    makePacket facilityName facilityId [f0, f1] (.int fv) decimalpoint =
      (fromHex (formatX n0 ++ formatX n1)).bind fun name =>
        (fromHex (formatX f0.toNat ++ formatX f1.toNat)).map fun code =>
          [2, 0, 0, 0, 0] ++ name ++ [i0.toUInt8, i1.toUInt8, 0, 9] ++ code ++
            [(fv / 256).toUInt8, (fv % 256).toUInt8, decimalpoint.toUInt8, 3] := by
  have stx : fromHex (format02x 2) = some [2] := by decide +kernel
  have etx : fromHex (format02x 3) = some [3] := by decide +kernel
  have sensor : fromHex (format02x 0 ++ format02x 9) = some [0, 9] := by decide +kernel
  have small0 := intOf_lt id0
  have small1 := intOf_lt id1
  have id_ := fromHex_two (by omega : i0 < 256) (by omega : i1 < 256)
  have value : fromHex (format04x fv) = some [(fv / 256).toUInt8, (fv % 256).toUInt8] := by
    rw [format04x_eq half]
    exact fromHex_two (by omega) (Nat.mod_lt _ (by decide))
  have point := fromHex_format02x byte
  have single (c : Char) : ord [c] = some c.toNat := rfl
  simp only [makePacket, stx, etx, sensor, getTimebytearray_eq, name0, name1, id0, id1, id_, single,
    Number.format04x, value, point, List.take_succ_cons, List.take_zero, List.drop_succ_cons,
    List.drop_zero, Option.bind_eq_bind, Option.bind_some, Option.pure_def]
  cases fromHex (formatX n0 ++ formatX n1) with
  | none => rfl
  | some name =>
      cases fromHex (formatX f0.toNat ++ formatX f1.toNat) with
      | none => rfl
      | some code => simp

end WhaleShark.Monitor
