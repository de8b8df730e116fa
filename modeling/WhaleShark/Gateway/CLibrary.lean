import Mathlib.Data.List.TakeWhile
import WhaleShark.Gateway.Common

/-!
# Functions of the C library that the firmware calls

A string is the memory at a pointer; what is not written down of it reads as `NUL`.
`rtStrncmp` is the loop of the kernel's own `rt_strncmp`, to which `strncmp` is an alias, and
comparing with a text that holds no `NUL` asks whether the string begins with it
(`rtStrncmp_eq_zero_iff`). `strtoul` is the library's, for base 10 and a word of 32 bits.
-/

set_option autoImplicit false

namespace WhaleShark

/-! ## Strings -/

/-- The bytes of a string, up to its `NUL`. -/
def cString (s : List UInt8) : List UInt8 := s.takeWhile fun b => b != 0

/-- `rt_strlen` -/
def rtStrlen (s : List UInt8) : ℕ := (cString s).length

theorem cString_nil : cString [] = [] := rfl

theorem cString_cons (a : UInt8) (s : List UInt8) :
    cString (a :: s) = if a = 0 then [] else a :: cString s := by
  by_cases ended : a = 0
  · simp [cString, ended]
  · simp [cString, ended]

/-- A string holds no `NUL`. -/
theorem ne_zero_of_mem_cString {s : List UInt8} {b : UInt8} (inside : b ∈ cString s) : b ≠ 0 := by
  simpa using List.mem_takeWhile_imp inside

/-- A string ends at its first `NUL`. -/
theorem rtStrlen_le {s : List UInt8} {i : ℕ} (ends : byteAt s i = 0) : rtStrlen s ≤ i := by
  by_contra longer
  have inside : i < (cString s).length := Nat.lt_of_not_le longer
  have here : byteAt (cString s) i = byteAt s i := by
    obtain ⟨rest, whole⟩ : cString s <+: s := List.takeWhile_prefix _
    rw [← byteAt_append_left (q := rest) inside, whole]
  exact ne_zero_of_mem_cString (byteAt_mem inside) (here.trans ends)

theorem cString_append {front : List UInt8} (noNul : ∀ b ∈ front, b ≠ 0) (rest : List UInt8) :
    cString (front ++ rest) = front ++ cString rest := by
  rw [cString, List.takeWhile_append_of_pos fun b member => by simpa using noNul b member]
  rfl

/-- A `NUL` behind a memory ends the string in it, if nothing else does. -/
theorem cString_append_nul (s rest : List UInt8) : cString (s ++ 0 :: rest) = cString s := by
  induction s with
  | nil => rfl
  | cons a s ih => rw [List.cons_append, cString_cons, cString_cons, ih]

/-- The string at a pointer is a given one when that lies there with a `NUL` behind it. -/
theorem cString_eq_iff {v : List UInt8} (noNul : ∀ b ∈ v, b ≠ 0) (s : List UInt8) :
    cString s = v ↔ v <+: s ∧ byteAt s v.length = 0 := by
  induction v generalizing s with
  | nil =>
      cases s with
      | nil => simp [cString_nil, byteAt_eq]
      | cons a s => simp [cString_cons, byteAt_eq]
  | cons b v ih =>
      have notNul : b ≠ 0 := noNul b List.mem_cons_self
      have rest := ih fun d member => noNul d (List.mem_cons_of_mem _ member)
      cases s with
      | nil => simp [cString_nil]
      | cons a s =>
          have behind : byteAt (a :: s) (b :: v).length = byteAt s v.length := rfl
          rw [cString_cons, List.cons_prefix_cons, behind]
          by_cases same : a = b
          · subst same
            rw [if_neg notNul, List.cons.injEq, rest s]
            simp
          · by_cases ended : a = 0
            · simp [ended, notNul]
            · simp [ended, same, Ne.symm same]

/-- A string that ends within `n` bytes is told by them. -/
theorem cString_eq_iff_of_take {v s t : List UInt8} {n : ℕ} (noNul : ∀ b ∈ v, b ≠ 0)
    (short : v.length < n) (same : s.take n = t.take n) : cString s = v ↔ cString t = v := by
  have told (s : List UInt8) : cString s = v ↔ v <+: s.take n ∧ byteAt (s.take n) v.length = 0 := by
    rw [cString_eq_iff noNul, byteAt_take short, List.prefix_take_iff]
    simp [Nat.le_of_lt short]
  rw [told, told, same]

/-- What holds no `NUL` and lies at a pointer is the beginning of the string there. -/
theorem prefix_cString_iff {v : List UInt8} (noNul : ∀ b ∈ v, b ≠ 0) (s : List UInt8) :
    v <+: cString s ↔ v <+: s := by
  induction v generalizing s with
  | nil => simp
  | cons b v ih =>
      have notNul : b ≠ 0 := noNul b List.mem_cons_self
      have rest := ih fun d member => noNul d (List.mem_cons_of_mem _ member)
      cases s with
      | nil => simp [cString_nil]
      | cons a s =>
          rw [cString_cons]
          by_cases ended : a = 0
          · rw [if_pos ended, List.cons_prefix_cons, ended]
            simp [notNul]
          · rw [if_neg ended, List.cons_prefix_cons, List.cons_prefix_cons, rest s]

/-- `rt_strncmp`. The result is the difference kept in one byte; the callers compare it
with 0. -/
def rtStrncmp (cs ct : List UInt8) : ℕ → UInt8
  | 0 => 0
  | count + 1 =>
      let res := byteAt cs 0 - byteAt ct 0
      if res ≠ 0 ∨ byteAt cs 0 = 0 then res else rtStrncmp cs.tail ct.tail count

theorem sub_eq_zero_iff (a b : UInt8) : a - b = 0 ↔ a = b := by
  rw [← UInt8.sub_left_inj (c := b) (a := a), UInt8.sub_self]

/-- Comparing with a text asks whether the string begins with it. -/
theorem rtStrncmp_eq_zero_iff {ct : List UInt8} {count : ℕ} (enough : count ≤ ct.length)
    (noNul : ∀ b ∈ ct.take count, b ≠ 0) (cs : List UInt8) :
    rtStrncmp cs ct count = 0 ↔ cs.take count = ct.take count := by
  induction count generalizing cs ct with
  | zero => simp [rtStrncmp]
  | succ count ih =>
      obtain ⟨b, ct, rfl⟩ : ∃ b rest, ct = b :: rest :=
        List.exists_cons_of_length_pos (by omega)
      have notNul : b ≠ 0 := noNul b (by simp)
      have rest := @ih ct (by simpa using enough) (fun c member => noNul c (by simp [member]))
      cases cs with
      | nil =>
          simp [rtStrncmp, byteAt_eq, notNul]
      | cons a cs =>
          simp only [rtStrncmp, byteAt_eq, List.getElem?_cons_zero, Option.getD_some,
            List.tail_cons, List.take_succ_cons, List.cons.injEq]
          by_cases same : a = b
          · subst same
            rw [if_neg (by simp [notNul]), rest cs]
            simp
          · have differs : a - b ≠ 0 := fun zero => same ((sub_eq_zero_iff a b).mp zero)
            rw [if_pos (.inl differs)]
            simp [same, differs]

/-- For the question whether two strings agree, their order does not matter. -/
theorem rtStrncmp_eq_zero_comm (cs ct : List UInt8) (count : ℕ) :
    rtStrncmp cs ct count = 0 ↔ rtStrncmp ct cs count = 0 := by
  induction count generalizing cs ct with
  | zero => simp [rtStrncmp]
  | succ count ih =>
      simp only [rtStrncmp, ne_eq, sub_eq_zero_iff]
      by_cases same : byteAt cs 0 = byteAt ct 0
      · by_cases ended : byteAt ct 0 = 0
        · simp [same, ended]
        · simpa [same, ended] using ih cs.tail ct.tail
      · have back : ¬ byteAt ct 0 = byteAt cs 0 := fun other => same other.symm
        simp [same, back, sub_eq_zero_iff]

/-- Comparing `count` bytes looks at no more of the string. -/
theorem rtStrncmp_take {count enough : ℕ} (bound : count ≤ enough) (cs ct : List UInt8) :
    rtStrncmp (cs.take enough) ct count = rtStrncmp cs ct count := by
  induction count generalizing enough cs ct with
  | zero => rfl
  | succ count ih =>
      obtain ⟨more, rfl⟩ := Nat.exists_eq_add_of_lt bound
      have first : byteAt (cs.take (count + more + 1)) 0 = byteAt cs 0 := byteAt_take (by omega)
      have tail : (cs.take (count + more + 1)).tail = cs.tail.take (count + more) := by
        cases cs <;> simp
      rw [rtStrncmp, rtStrncmp, first, tail, ih (by omega)]

/-- A string agrees with a text in all of the text when it begins with the text. -/
theorem rtStrncmp_text_eq_zero_iff {ct : List UInt8} (noNul : ∀ b ∈ ct, b ≠ 0) (cs : List UInt8) :
    rtStrncmp ct cs ct.length = 0 ↔ ct <+: cs := by
  rw [rtStrncmp_eq_zero_comm, rtStrncmp_eq_zero_iff le_rfl (by simpa using noNul),
    List.take_length, List.prefix_iff_eq_take, eq_comm]

/-- Comparing with a text and its `NUL` asks whether the string is the text. -/
theorem rtStrncmp_string_eq_zero_iff {t : List UInt8} (noNul : ∀ b ∈ t, b ≠ 0) (cs : List UInt8) :
    rtStrncmp cs (t ++ [0]) (t ++ [0]).length = 0 ↔ cString cs = t := by
  rw [List.length_append, List.length_singleton]
  induction t generalizing cs with
  | nil =>
      have zero : byteAt ([] ++ [0]) 0 = 0 := rfl
      have ended : cString cs = [] ↔ byteAt cs 0 = 0 := by
        rw [cString_eq_iff (by simp)]
        simp
      rw [List.length_nil, rtStrncmp, zero, ended]
      by_cases here : byteAt cs 0 = 0
      · simp [here]
      · simp [here]
  | cons b t ih =>
      have notNul : b ≠ 0 := noNul b List.mem_cons_self
      have rest := ih fun d member => noNul d (List.mem_cons_of_mem _ member)
      have first : byteAt (b :: t ++ [0]) 0 = b := rfl
      have tail : (b :: t ++ [0]).tail = t ++ [0] := rfl
      have count : (b :: t).length = t.length + 1 := rfl
      rw [count, rtStrncmp, first, tail]
      cases cs with
      | nil =>
          have zero : byteAt [] 0 = 0 := rfl
          simp [zero, cString_nil, notNul]
      | cons a cs =>
          have here : byteAt (a :: cs) 0 = a := rfl
          have behind : (a :: cs).tail = cs := rfl
          rw [here, behind, cString_cons]
          by_cases same : a = b
          · subst same
            rw [if_neg (by simp [notNul]), if_neg notNul, rest]
            simp
          · have differs : a - b ≠ 0 := fun zero => same ((sub_eq_zero_iff a b).mp zero)
            rw [if_pos (.inl differs)]
            by_cases ended : a = 0
            · simp [ended, notNul]
            · simp [ended, same, differs]

/-- Behind the end of what is written out there is a `NUL`. -/
theorem rtStrncmp_append_nul (cs ct : List UInt8) (count : ℕ) :
    rtStrncmp cs (ct ++ [0]) count = rtStrncmp cs ct count := by
  induction count generalizing cs ct with
  | zero => rfl
  | succ count ih =>
      cases ct with
      | nil =>
          have last : byteAt ([] ++ [0]) 0 = byteAt [] 0 := rfl
          rw [rtStrncmp, rtStrncmp, last]
          have none_ : byteAt [] 0 = 0 := rfl
          by_cases ended : byteAt cs 0 = 0
          · simp only [ended, or_true, if_true]
          · have differs : byteAt cs 0 - byteAt [] 0 ≠ 0 := by
              rwa [none_, UInt8.sub_zero]
            simp only [differs, ne_eq, not_false_eq_true, true_or, if_true]
      | cons b ct =>
          have first : byteAt (b :: ct ++ [0]) 0 = byteAt (b :: ct) 0 := rfl
          have tail : (b :: ct ++ [0]).tail = ct ++ [0] := rfl
          rw [rtStrncmp, rtStrncmp, first, tail, ih, List.tail_cons]

/-- Comparing with a name over one byte more than it has asks whether the string is the name. -/
theorem rtStrncmp_name_eq_zero_iff {t : List UInt8} (noNul : ∀ b ∈ t, b ≠ 0) (cs : List UInt8) :
    rtStrncmp t cs (t.length + 1) = 0 ↔ cString cs = t := by
  have string := rtStrncmp_string_eq_zero_iff noNul cs
  rw [List.length_append, List.length_singleton, rtStrncmp_append_nul] at string
  rw [rtStrncmp_eq_zero_comm, string]

/-- Strings that agree up to a place where the comparison has ended compare alike. -/
theorem rtStrncmp_congr {cs cs' ct ct' : List UInt8} {j : ℕ}
    (left : ∀ i ≤ j, byteAt cs' i = byteAt cs i) (right : ∀ i ≤ j, byteAt ct' i = byteAt ct i)
    (ends : byteAt cs j ≠ byteAt ct j ∨ byteAt cs j = 0) (count : ℕ) :
    rtStrncmp cs' ct' count = rtStrncmp cs ct count := by
  induction count generalizing cs cs' ct ct' j with
  | zero => rfl
  | succ count ih =>
      have tail (s : List UInt8) (i : ℕ) : byteAt s.tail i = byteAt s (i + 1) := by
        rw [← List.drop_one, byteAt_drop, Nat.add_comm]
      rw [rtStrncmp, rtStrncmp, left 0 (Nat.zero_le j), right 0 (Nat.zero_le j)]
      split_ifs with ended
      · rfl
      · obtain ⟨same, notNul⟩ := not_or.mp ended
        rw [not_not, sub_eq_zero_iff] at same
        cases j with
        | zero => exact absurd ends (not_or.mpr ⟨not_not.mpr same, notNul⟩)
        | succ j =>
            refine ih (j := j) ?_ ?_ ?_
            · intro i bound
              rw [tail, tail, left (i + 1) (by omega)]
            · intro i bound
              rw [tail, tail, right (i + 1) (by omega)]
            · rw [tail, tail]
              exact ends

/-! ## Numbers -/

/-- `isspace` -/
def isSpace (b : UInt8) : Bool := b == 0x20 || (0x09 ≤ b && b ≤ 0x0D)

/-- `isdigit` -/
def isDigit (b : UInt8) : Bool := 0x30 ≤ b && b ≤ 0x39

/-- The number that a row of decimal digits writes. -/
def decimal (digits : List UInt8) : ℕ := digits.foldl (fun n d => 10 * n + (d.toNat - 0x30)) 0

/-- `strtoul(s, 0, 10)`. A number that does not fit is `ULONG_MAX`; a minus sign negates in
the word. -/
def strtoul (s : List UInt8) : UInt32 :=
  let s := s.dropWhile isSpace
  let negative := byteAt s 0 == 0x2D
  let digits := if negative || byteAt s 0 == 0x2B then s.tail else s
  let value := decimal (digits.takeWhile isDigit)
  if 2 ^ 32 ≤ value then 0xFFFFFFFF
  else if negative then 0 - value.toUInt32
  else value.toUInt32

/-- `atoi`, as the word that stands for the number. A number that does not fit is the largest or the
smallest one. -/
def atoi (s : List UInt8) : UInt32 :=
  let s := s.dropWhile isSpace
  let negative := byteAt s 0 == 0x2D
  let digits := if negative || byteAt s 0 == 0x2B then s.tail else s
  let value := decimal (digits.takeWhile isDigit)
  if negative then 0 - (min value (2 ^ 31)).toUInt32
  else (min value (2 ^ 31 - 1)).toUInt32

/-- The row of digits is what is taken. -/
theorem takeWhile_isDigit {digits rest : List UInt8} (row : ∀ b ∈ digits, isDigit b = true)
    (ends : isDigit (byteAt rest 0) = false) : (digits ++ rest).takeWhile isDigit = digits := by
  rw [List.takeWhile_append_of_pos row]
  cases rest with
  | nil => simp
  | cons b rest =>
      have other : isDigit b = false := ends
      simp [other]

/-- A digit is neither white space nor a sign. -/
theorem digit_plain {d : UInt8} (digit : isDigit d = true) :
    isSpace d = false ∧ d ≠ 0x2D ∧ d ≠ 0x2B := by
  have span : (0x30 : UInt8) ≤ d ∧ d ≤ 0x39 := by simpa [isDigit] using digit
  have low := UInt8.le_iff_toNat_le.mp span.1
  refine ⟨?_, ?_⟩
  · simp only [isSpace, Bool.or_eq_false_iff, beq_eq_false_iff_ne, Bool.and_eq_false_iff,
      decide_eq_false_iff_not, UInt8.le_iff_toNat_le, ne_eq, ← UInt8.toNat_inj]
    simp at low ⊢
    omega
  · simp only [ne_eq, ← UInt8.toNat_inj]
    simp at low ⊢
    omega

/-- What `strtoul` sees of a string that begins with a row of digits: neither space nor
sign, and then the row. -/
structure ReadsDigits (s digits : List UInt8) : Prop where
  noSpace : s.dropWhile isSpace = s
  noMinus : (byteAt s 0 == 0x2D) = false
  noPlus : (byteAt s 0 == 0x2B) = false
  row : s.takeWhile isDigit = digits

theorem readsDigits {digits rest : List UInt8} (some_ : digits ≠ [])
    (all : ∀ b ∈ digits, isDigit b = true) (ends : isDigit (byteAt rest 0) = false) :
    ReadsDigits (digits ++ rest) digits := by
  obtain ⟨d, more, rfl⟩ := List.exists_cons_of_ne_nil some_
  obtain ⟨noSpace, noMinus, noPlus⟩ := digit_plain (all d List.mem_cons_self)
  refine ⟨?_, beq_eq_false_iff_ne.mpr noMinus, beq_eq_false_iff_ne.mpr noPlus,
    takeWhile_isDigit all ends⟩
  rw [List.cons_append, List.dropWhile_cons_of_neg (by simp [noSpace])]

/-- A row of digits with something else behind it is read as its number. -/
theorem strtoul_of_digits {digits rest : List UInt8} (some_ : digits ≠ [])
    (all : ∀ b ∈ digits, isDigit b = true) (ends : isDigit (byteAt rest 0) = false)
    (small : decimal digits < 2 ^ 32) :
    strtoul (digits ++ rest) = (decimal digits).toUInt32 := by
  obtain ⟨noSpace, noMinus, noPlus, row⟩ := readsDigits some_ all ends
  simp only [strtoul, noSpace, noMinus, noPlus, Bool.or_self, Bool.false_eq_true, if_false, row]
  rw [if_neg (by omega)]

/-- The number that a string begins with: white space, a sign or none, and decimal digits up to the
first byte that is none. -/
inductive Writes : List UInt8 → ℤ → Prop where
  | digits {digits rest : List UInt8} (row : ∀ b ∈ digits, isDigit b = true)
      (ends : isDigit (byteAt rest 0) = false)
      (noSpace : isSpace (byteAt (digits ++ rest) 0) = false)
      (noMinus : byteAt (digits ++ rest) 0 ≠ 0x2D) (noPlus : byteAt (digits ++ rest) 0 ≠ 0x2B) :
      Writes (digits ++ rest) (decimal digits)
  | plus {digits rest : List UInt8} (row : ∀ b ∈ digits, isDigit b = true)
      (ends : isDigit (byteAt rest 0) = false) : Writes (0x2B :: (digits ++ rest)) (decimal digits)
  | minus {digits rest : List UInt8} (row : ∀ b ∈ digits, isDigit b = true)
      (ends : isDigit (byteAt rest 0) = false) :
      Writes (0x2D :: (digits ++ rest)) (-decimal digits)
  | space {b : UInt8} {s : List UInt8} {n : ℤ} (white : isSpace b = true) (writes : Writes s n) :
      Writes (b :: s) n

theorem writes_digits {digits rest : List UInt8} (some_ : digits ≠ [])
    (row : ∀ b ∈ digits, isDigit b = true) (ends : isDigit (byteAt rest 0) = false) :
    Writes (digits ++ rest) (decimal digits) := by
  obtain ⟨d, more, rfl⟩ := List.exists_cons_of_ne_nil some_
  obtain ⟨noSpace, noMinus, noPlus⟩ := digit_plain (row d List.mem_cons_self)
  exact .digits row ends noSpace noMinus noPlus

/-- The number of an `int`, for one that need not fit. -/
def clip (n : ℤ) : ℤ := max (-2 ^ 31) (min n (2 ^ 31 - 1))

theorem atoi_space {b : UInt8} (white : isSpace b = true) (s : List UInt8) :
    atoi (b :: s) = atoi s := by
  rw [atoi, atoi, List.dropWhile_cons_of_pos white]

theorem toNat_clip_positive (value : ℕ) :
    (((min value (2 ^ 31 - 1)).toUInt32.toNat : ℕ) : ℤ) = clip value % 2 ^ 32 := by
  rw [Nat.toUInt32_eq, UInt32.toNat_ofNat', clip]
  omega

theorem toNat_clip_negative (value : ℕ) :
    (((0 - (min value (2 ^ 31)).toUInt32 : UInt32).toNat : ℕ) : ℤ) = clip (-value) % 2 ^ 32 := by
  rw [UInt32.toNat_sub, UInt32.toNat_zero, Nat.toUInt32_eq, UInt32.toNat_ofNat', clip]
  omega

/-- **`atoi` returns the number that the string begins with.** -/
theorem atoi_of_writes {s : List UInt8} {n : ℤ} (writes : Writes s n) :
    ((atoi s).toNat : ℤ) = clip n % 2 ^ 32 := by
  induction writes with
  | @digits digits rest row ends noSpace noMinus noPlus =>
      have start : (digits ++ rest).dropWhile isSpace = digits ++ rest := by
        cases whole : digits ++ rest with
        | nil => rfl
        | cons b s =>
            rw [whole] at noSpace
            have plain : isSpace b = false := noSpace
            exact List.dropWhile_cons_of_neg (by simp [plain])
      have noSign : (byteAt (digits ++ rest) 0 == 0x2D) = false ∧
          (byteAt (digits ++ rest) 0 == 0x2B) = false :=
        ⟨beq_eq_false_iff_ne.mpr noMinus, beq_eq_false_iff_ne.mpr noPlus⟩
      simp only [atoi, start, noSign.1, noSign.2, Bool.or_self, Bool.false_eq_true, if_false,
        takeWhile_isDigit row ends]
      exact toNat_clip_positive _
  | @plus digits rest row ends =>
      have start : (0x2B :: (digits ++ rest)).dropWhile isSpace = 0x2B :: (digits ++ rest) :=
        List.dropWhile_cons_of_neg (by decide)
      have sign : (byteAt (0x2B :: (digits ++ rest)) 0 == 0x2D) = false ∧
          (byteAt (0x2B :: (digits ++ rest)) 0 == 0x2B) = true := ⟨rfl, rfl⟩
      simp only [atoi, start, sign.1, sign.2, Bool.or_true, if_true, Bool.false_eq_true, if_false,
        List.tail_cons, takeWhile_isDigit row ends]
      exact toNat_clip_positive _
  | @minus digits rest row ends =>
      have start : (0x2D :: (digits ++ rest)).dropWhile isSpace = 0x2D :: (digits ++ rest) :=
        List.dropWhile_cons_of_neg (by decide)
      have sign : (byteAt (0x2D :: (digits ++ rest)) 0 == 0x2D) = true := rfl
      simp only [atoi, start, sign, Bool.true_or, if_true, List.tail_cons,
        takeWhile_isDigit row ends]
      exact toNat_clip_negative _
  | space white _ ih => rw [atoi_space white, ih]

/-- Every string is a row of digits and what stands behind it. -/
theorem exists_digits (s : List UInt8) : ∃ digits rest, s = digits ++ rest ∧
    (∀ b ∈ digits, isDigit b = true) ∧ isDigit (byteAt rest 0) = false := by
  refine ⟨s.takeWhile isDigit, s.dropWhile isDigit, List.takeWhile_append_dropWhile.symm,
    fun b member => List.mem_takeWhile_imp member, ?_⟩
  cases behind : s.dropWhile isDigit with
  | nil => rfl
  | cons b rest =>
      have other := List.head_dropWhile_not isDigit (l := s) (by simp [behind])
      have first : byteAt (b :: rest) 0 = b := rfl
      rw [first]
      simpa [behind] using other

/-- Every string begins with a number, be it of no digits. -/
theorem exists_writes (s : List UInt8) : ∃ n, Writes s n := by
  induction s with
  | nil => exact ⟨0, @Writes.digits [] [] (by simp) rfl rfl (by decide) (by decide)⟩
  | cons b s ih =>
      obtain ⟨digits, rest, split, row, ends⟩ := exists_digits s
      by_cases white : isSpace b = true
      · obtain ⟨n, writes⟩ := ih
        exact ⟨n, .space white writes⟩
      · by_cases minus : b = 0x2D
        · rw [minus, split]
          exact ⟨_, .minus row ends⟩
        · by_cases plus : b = 0x2B
          · rw [plus, split]
            exact ⟨_, .plus row ends⟩
          · obtain ⟨digits, rest, whole, row, ends⟩ := exists_digits (b :: s)
            have first : byteAt (digits ++ rest) 0 = b := by rw [← whole]; rfl
            rw [whole]
            exact ⟨_, .digits row ends (by rw [first]; simpa using white) (by rwa [first])
              (by rwa [first])⟩

/-- What begins with neither a digit nor, behind its white space, a digit or a sign adds nothing to
the number in front of it. -/
theorem atoi_append {rest : List UInt8} (ends : isDigit (byteAt rest 0) = false)
    (noDigit : isDigit (byteAt (rest.dropWhile isSpace) 0) = false)
    (noMinus : (byteAt (rest.dropWhile isSpace) 0 == 0x2D) = false)
    (noPlus : (byteAt (rest.dropWhile isSpace) 0 == 0x2B) = false) (s : List UInt8) :
    atoi (s ++ rest) = atoi s := by
  have none_ {rest : List UInt8} (ends : isDigit (byteAt rest 0) = false) :
      rest.takeWhile isDigit = [] := by
    have row := takeWhile_isDigit (List.forall_mem_nil (fun b => isDigit b = true)) ends
    rwa [List.nil_append] at row
  have digits (t : List UInt8) : (t ++ rest).takeWhile isDigit = t.takeWhile isDigit := by
    rw [List.takeWhile_append]
    split_ifs with whole
    · rw [none_ ends, List.append_nil]
      exact ((List.takeWhile_prefix _).eq_of_length whole).symm
    · rfl
  rw [atoi, atoi, List.dropWhile_append]
  cases s.dropWhile isSpace with
  | nil =>
      have noSign : (byteAt ([] : List UInt8) 0 == 0x2D) = false ∧
          (byteAt ([] : List UInt8) 0 == 0x2B) = false := by
        decide
      simp only [List.isEmpty_nil, if_true, noMinus, noPlus, noSign.1, noSign.2, Bool.or_self,
        Bool.false_eq_true, if_false, none_ noDigit, List.takeWhile_nil]
  | cons a t =>
      have same : byteAt (a :: t ++ rest) 0 = byteAt (a :: t) 0 := rfl
      have tail : (a :: t ++ rest).tail = t ++ rest := rfl
      simp only [List.isEmpty_cons, Bool.false_eq_true, if_false, same, tail, List.tail_cons,
        apply_ite (List.takeWhile isDigit), digits]

/-- Behind the `NUL` there is no number. -/
theorem atoi_append_nul (s rest : List UInt8) : atoi (s ++ 0 :: rest) = atoi s := by
  have nul : (0 :: rest).dropWhile isSpace = 0 :: rest :=
    List.dropWhile_cons_of_neg (by decide)
  exact atoi_append rfl (by rw [nul]; rfl) (by rw [nul]; rfl) (by rw [nul]; rfl) s

end WhaleShark
