import Mathlib.Data.List.Basic
import Mathlib.Tactic.IntervalCases

/-!
# What the server uses of Python

A `str` is a list of characters and `bytes` a list of bytes. The format codes, `int` of a
hexadecimal text and the `repr` of `bytes` are written out as the language documents them, for
the arguments that the server gives them; `Dict` is a `dict`, in the order of insertion.

A row of bytes that is written in hexadecimal is read back as its number (`intHex_bytes`),
`format04d` writes a number below 10000 with its four digits (`format04d_digits`), and the `repr`
of `bytes` has no line end in it (`reprBytes_plain`).
-/

set_option autoImplicit false

namespace WhaleShark.Server

/-- `str` -/
abbrev Str := List Char

/-- `bytes` -/
abbrev Bytes := List UInt8

/-- A text literal. -/
def str (s : String) : Str := s.toList

/-! ## Numbers in texts -/

/-- Zeros in front, up to the width. -/
def zeroPad (width : ℕ) (digits : Str) : Str := List.replicate (width - digits.length) '0' ++ digits

/-- `'{:02x}'.format(n)` -/
def format02x (n : ℕ) : Str := zeroPad 2 (Nat.toDigits 16 n)

/-- `'{0:04d}'.format(n)` -/
def format04d (n : ℕ) : Str := zeroPad 4 (Nat.toDigits 10 n)

/-- `chr(n)` -/
def chr (n : ℕ) : Char := Char.ofNat n

theorem toNat_chr {n : ℕ} (bound : n < 256) : (chr n).toNat = n := by
  have valid : n.isValidChar := .inl (by omega)
  rw [chr, Char.ofNat, dif_pos valid]
  rfl

/-- The value of a hexadecimal digit. -/
def hexDigit (c : Char) : Option ℕ :=
  if '0' ≤ c ∧ c ≤ '9' then some (c.toNat - '0'.toNat)
  else if 'a' ≤ c ∧ c ≤ 'f' then some (c.toNat - 'a'.toNat + 10)
  else if 'A' ≤ c ∧ c ≤ 'F' then some (c.toNat - 'A'.toNat + 10)
  else none

/-- The number that hexadecimal digits write, behind `n`. -/
def hexDigits : ℕ → Str → Option ℕ
  | n, [] => some n
  | n, c :: cs =>
      match hexDigit c with
      | none => none
      | some d => hexDigits (16 * n + d) cs

/-- `int(text, 16)`, for a text that begins with `0x` and has digits only behind it. Anything else
is taken to raise. -/
def intHex : Str → Option ℕ
  | '0' :: 'x' :: c :: cs => hexDigits 0 (c :: cs)
  | _ => none

/-- Each byte in two hexadecimal digits. -/
def hexText (p : Bytes) : Str := p.flatMap fun b => format02x b.toNat

theorem hexDigits_append (n : ℕ) (s t : Str) :
    hexDigits n (s ++ t) = (hexDigits n s).bind fun m => hexDigits m t := by
  induction s generalizing n with
  | nil => rfl
  | cons c s ih =>
      simp only [List.cons_append, hexDigits]
      cases hexDigit c with
      | none => rfl
      | some d => exact ih _

theorem hexDigits_digit {d : ℕ} (bound : d < 16) (n : ℕ) :
    hexDigits n [d.digitChar] = some (16 * n + d) := by
  have value : hexDigit d.digitChar = some d := by
    interval_cases d <;> decide
  simp only [hexDigits, value]

/-- A byte is written in two digits. -/
theorem format02x_byte {b : ℕ} (bound : b < 256) :
    format02x b = [(b / 16).digitChar, (b % 16).digitChar] := by
  rcases Nat.lt_or_ge b 16 with low | high
  · have one := Nat.toDigits_of_lt_base low
    rw [format02x, one, zeroPad, List.length_singleton, Nat.div_eq_of_lt low,
      Nat.mod_eq_of_lt low]
    rfl
  · have two := Nat.toDigits_of_base_le (by decide : 1 < 16) high
    rw [Nat.toDigits_of_lt_base (by omega : b / 16 < 16)] at two
    rw [format02x, two]
    rfl

theorem hexDigits_byte (n : ℕ) (b : UInt8) :
    hexDigits n (format02x b.toNat) = some (256 * n + b.toNat) := by
  have bound : b.toNat < 256 := b.toNat_lt
  rw [format02x_byte bound, ← List.singleton_append, hexDigits_append,
    hexDigits_digit (by omega), Option.bind_some, hexDigits_digit (Nat.mod_lt _ (by decide))]
  congr 1
  omega

theorem hexDigits_hexText (p : Bytes) (n : ℕ) :
    hexDigits n (hexText p) = some (p.foldl (fun m b => 256 * m + b.toNat) n) := by
  induction p generalizing n with
  | nil => rfl
  | cons b p ih =>
      rw [hexText, List.flatMap_cons, hexDigits_append, hexDigits_byte, Option.bind_some]
      exact ih _

/-- The number that bytes write, high byte first. -/
def bigEndian (p : Bytes) : ℕ := p.foldl (fun n b => 256 * n + b.toNat) 0

/-- **Bytes written in hexadecimal are read back as their number.** -/
theorem intHex_bytes {p : Bytes} (some_ : p ≠ []) :
    intHex ('0' :: 'x' :: hexText p) = some (bigEndian p) := by
  obtain ⟨b, rest, rfl⟩ := List.exists_cons_of_ne_nil some_
  have digits := hexDigits_hexText (b :: rest) 0
  rw [hexText, List.flatMap_cons, format02x_byte b.toNat_lt] at digits ⊢
  exact digits

/-- The digit of a number below 10. -/
def digit (d : ℕ) : Char := Char.ofNat ('0'.toNat + d)

theorem digitChar_eq {d : ℕ} (bound : d < 10) : d.digitChar = digit d := by
  interval_cases d <;> decide

/-- A number below 10000 is written with its four digits. -/
theorem format04d_digits {n : ℕ} (bound : n < 10000) :
    format04d n = [digit (n / 1000), digit (n / 100 % 10), digit (n / 10 % 10), digit (n % 10)] := by
  have step {m : ℕ} (high : 10 ≤ m) :
      Nat.toDigits 10 m = Nat.toDigits 10 (m / 10) ++ [digit (m % 10)] := by
    rw [Nat.toDigits_of_base_le (by decide) high, digitChar_eq (Nat.mod_lt _ (by decide))]
  have last {m : ℕ} (low : m < 10) : Nat.toDigits 10 m = [digit m] := by
    rw [Nat.toDigits_of_lt_base low, digitChar_eq low]
  have hundreds : n / 10 / 10 = n / 100 := Nat.div_div_eq_div_mul n 10 10
  have thousands : n / 100 / 10 = n / 1000 := Nat.div_div_eq_div_mul n 100 10
  rcases Nat.lt_or_ge n 10 with one | more
  · rw [format04d, last one, Nat.div_eq_of_lt (by omega : n < 1000),
      Nat.div_eq_of_lt (by omega : n < 100), Nat.div_eq_of_lt one, Nat.mod_eq_of_lt one]
    rfl
  · rcases Nat.lt_or_ge n 100 with two | more
    · rw [format04d, step more, last (by omega), Nat.div_eq_of_lt (by omega : n < 1000),
        Nat.div_eq_of_lt two, Nat.mod_eq_of_lt (by omega : n / 10 < 10)]
      rfl
    · rcases Nat.lt_or_ge n 1000 with three | more
      · rw [format04d, step (by omega), step (by omega), hundreds, last (by omega),
          Nat.div_eq_of_lt three, Nat.mod_eq_of_lt (by omega : n / 100 < 10)]
        rfl
      · rw [format04d, step (by omega), step (by omega), hundreds, step (by omega), thousands,
          last (by omega)]
        rfl

/-! ## Texts of bytes -/

/-- `'` -/
def apostrophe : Char := Char.ofNat 0x27

/-- `"` -/
def quotation : Char := Char.ofNat 0x22

/-- The character that begins an escape. -/
def backslash : Char := Char.ofNat 0x5C

/-- One byte in a `repr`. -/
def reprByte (quote : Char) (b : UInt8) : Str :=
  if chr b.toNat = quote ∨ chr b.toNat = backslash then [backslash, chr b.toNat]
  else if b = 0x09 then [backslash, 't']
  else if b = 0x0A then [backslash, 'n']
  else if b = 0x0D then [backslash, 'r']
  else if b < 0x20 ∨ 0x7F ≤ b then [backslash, 'x'] ++ format02x b.toNat
  else [chr b.toNat]

/-- `str(p)` for `bytes`. -/
def reprBytes (p : Bytes) : Str :=
  let quote := if 0x27 ∈ p ∧ 0x22 ∉ p then quotation else apostrophe
  ['b', quote] ++ p.flatMap (reprByte quote) ++ [quote]

/-- `encode()` -/
def encode (s : Str) : Bytes := s.flatMap String.utf8EncodeChar

/-- A character that is one byte when encoded, and no line end. -/
def Plain (c : Char) : Prop := c.toNat < 128 ∧ c.toNat ≠ 0x0A ∧ c.toNat ≠ 0x0D

instance (c : Char) : Decidable (Plain c) := inferInstanceAs (Decidable (_ ∧ _ ∧ _))

/-- The `repr` of a byte has no line end in it. -/
theorem reprByte_plain {quote : Char} (plain : Plain quote) (b : UInt8) :
    ∀ c ∈ reprByte quote b, Plain c := by
  have escape : Plain backslash := by decide
  have digits : ∀ c ∈ format02x b.toNat, Plain c := by
    have bound : b.toNat < 256 := b.toNat_lt
    have each (d : ℕ) (low : d < 16) : Plain d.digitChar := by
      interval_cases d <;> decide
    rw [format02x_byte bound]
    simp only [List.mem_cons, List.not_mem_nil, or_false, forall_eq_or_imp, forall_eq]
    exact ⟨each _ (by omega), each _ (Nat.mod_lt _ (by decide))⟩
  have named : Plain 't' ∧ Plain 'n' ∧ Plain 'r' ∧ Plain 'x' := by decide
  unfold reprByte
  split
  · rename_i special
    rcases special with same | same <;> rw [same] <;> simp [plain, escape]
  · split
    · simp [escape, named.1]
    · split
      · simp [escape, named.2.1]
      · split
        · simp [escape, named.2.2.1]
        · split
          · simp only [List.mem_append, List.mem_cons, List.not_mem_nil, or_false]
            rintro c ((rfl | rfl) | member)
            · exact escape
            · exact named.2.2.2
            · exact digits c member
          · rename_i printable
            have low : ¬ b.toNat < 0x20 := fun less =>
              printable (.inl (UInt8.lt_iff_toNat_lt.mpr less))
            have high : ¬ 0x7F ≤ b.toNat := fun more =>
              printable (.inr (UInt8.le_iff_toNat_le.mpr more))
            have value := toNat_chr (by omega : b.toNat < 256)
            simp only [List.mem_singleton, forall_eq, Plain, value]
            omega

/-- **The `repr` of `bytes` is one line of ASCII characters.** -/
theorem reprBytes_plain (p : Bytes) : ∀ c ∈ reprBytes p, Plain c := by
  have quotes : Plain quotation ∧ Plain apostrophe ∧ Plain 'b' := by decide
  have chosen : Plain (if 0x27 ∈ p ∧ 0x22 ∉ p then quotation else apostrophe) := by
    split
    · exact quotes.1
    · exact quotes.2.1
  simp only [reprBytes, List.mem_append, List.mem_cons, List.not_mem_nil, or_false,
    List.mem_flatMap]
  rintro c (((rfl | rfl) | ⟨b, -, member⟩) | rfl)
  · exact quotes.2.2
  · exact chosen
  · exact reprByte_plain chosen b c member
  · exact chosen

theorem utf8EncodeChar_plain {c : Char} (plain : Plain c) :
    String.utf8EncodeChar c = [c.toNat.toUInt8] := by
  have one : c.utf8Size = 1 := by
    rw [Char.utf8Size_eq_one_iff, UInt32.le_iff_toNat_le]
    exact Nat.le_of_lt_succ plain.1
  rw [String.utf8EncodeChar_eq_singleton one]
  rfl

/-- The encoding of plain characters has no line end in it. -/
theorem encode_plain {s : Str} (plain : ∀ c ∈ s, Plain c) :
    ∀ b ∈ encode s, b ≠ 0x0A ∧ b ≠ 0x0D := by
  intro b member
  obtain ⟨c, inside, here⟩ := List.mem_flatMap.mp member
  obtain ⟨small, noLf, noCr⟩ := plain c inside
  rw [utf8EncodeChar_plain (plain c inside), List.mem_singleton] at here
  have value : b.toNat = c.toNat := by
    rw [here]
    simp
    omega
  constructor <;> intro same <;> rw [same] at value <;> simp at value <;> omega

theorem encode_append (s t : Str) : encode (s ++ t) = encode s ++ encode t := by
  simp [encode]

/-! ## Dictionaries -/

/-- `dict`, with its entries in the order of insertion. -/
structure Dict (κ ν : Type) where
  entries : List (κ × ν)
  deriving DecidableEq

namespace Dict

variable {κ ν : Type} [DecidableEq κ]

/-- `d.get(k)` -/
def get? (d : Dict κ ν) (k : κ) : Option ν := d.entries.lookup k

/-- `k in d.keys()` -/
def has (d : Dict κ ν) (k : κ) : Bool := (d.get? k).isSome

/-- `d[k] = v`: an entry keeps its place, and a new one comes last. -/
def set (d : Dict κ ν) (k : κ) (v : ν) : Dict κ ν where
  entries :=
    if d.has k then d.entries.map fun e => if e.1 = k then (k, v) else e
    else d.entries ++ [(k, v)]

theorem mem_of_get? {d : Dict κ ν} {k : κ} {v : ν} (found : d.get? k = some v) :
    (k, v) ∈ d.entries := by
  obtain ⟨before, after, here, -⟩ := List.lookup_eq_some_iff.mp found
  rw [here]
  simp

theorem mem_set {d : Dict κ ν} {k : κ} {v : ν} {e : κ × ν} (member : e ∈ (d.set k v).entries) :
    e = (k, v) ∨ e ∈ d.entries := by
  unfold set at member
  split at member
  · obtain ⟨old, inside, rfl⟩ := List.mem_map.mp member
    split
    · exact .inl rfl
    · exact .inr inside
  · rcases List.mem_append.mp member with earlier | last
    · exact .inr earlier
    · exact .inl (List.mem_singleton.mp last)

/-- Setting an entry in its place changes no other. -/
theorem lookup_map_set (entries : List (κ × ν)) (k : κ) (v : ν) (k' : κ) :
    (entries.map fun e => if e.1 = k then (k, v) else e).lookup k' =
      if k' = k then (entries.lookup k).map fun _ => v else entries.lookup k' := by
  induction entries with
  | nil => simp
  | cons e entries ih =>
      rw [List.map_cons, List.lookup_cons, ih, List.lookup_cons, List.lookup_cons]
      by_cases here : e.1 = k
      · by_cases same : k' = k
        · simp [here, same]
        · have other : (k' == k) = false := by simpa using same
          simp [here, same, other]
      · by_cases same : k' = k
        · have other : (k == e.1) = false := by simpa using Ne.symm here
          simp [here, same, other]
        · simp [here, same]

theorem get?_set (d : Dict κ ν) (k : κ) (v : ν) (k' : κ) :
    (d.set k v).get? k' = if k' = k then some v else d.get? k' := by
  unfold set get?
  by_cases known : d.has k = true
  · obtain ⟨old, found⟩ := Option.isSome_iff_exists.mp known
    simp only [if_pos known, lookup_map_set]
    have found : d.entries.lookup k = some old := found
    simp [found]
  · have missing : d.entries.lookup k = none := Option.not_isSome_iff_eq_none.mp known
    simp only [if_neg known, List.lookup_append, List.lookup_cons, List.lookup_nil]
    by_cases same : k' = k
    · simp [same, missing]
    · have other : (k' == k) = false := by simpa using same
      simp [same, other]

end Dict

end WhaleShark.Server
