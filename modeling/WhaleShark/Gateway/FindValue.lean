import Mathlib.Data.List.DropRight
import WhaleShark.Gateway.WifiLines

/-!
# The value of a line

`FindValue` is to return the text behind the first colon without the line end at its end. Its first
loop counts down the length of the line in eight bits, so in a line of 256 bytes or more it may stop
in front of the colon. Its second loop, which goes backwards to cut the line end off, starts at the
`NUL`, so it ends there (`findValueAndTrim_eq`). What is returned is right exactly where neither
matters (`findsValue_iff`).
-/

set_option autoImplicit false

namespace WhaleShark.Network

open Foundations

/-! ## `wifi.c` -/

/-- The first loop of `FindValue`, with `len` left. -/
def colonLoop (pCmd : List UInt8) : ℕ → ℕ → ℕ
  | 0, pos => pos
  | len + 1, pos => if byteAt pCmd pos = 0x3A then pos else colonLoop pCmd len (pos + 1)

/-- The second loop of `FindValue`: what becomes of the memory. -/
def trimLoop (value : ℕ) : ℕ → List UInt8 → List UInt8
  -- the value does not begin behind `pos`
  | 0, memory => memory
  | pos + 1, memory =>
      if value ≠ pos + 1 ∧ (byteAt memory (pos + 1) = cr ∨ byteAt memory (pos + 1) = lf) then
        trimLoop value pos (memory.set (pos + 1) 0)
      else memory

/-- `FindValue`, on the memory from `pCmd` on: where the value begins, and what becomes of the
memory. -/
def findValueAndTrim (pCmd : List UInt8) : ℕ × List UInt8 :=
  let len : UInt8 := (rtStrlen pCmd).toUInt8
  let pos := colonLoop pCmd len.toNat 0
  let value := if byteAt pCmd pos = 0x3A then pos + 1 else rtStrlen pCmd
  (value, trimLoop value (rtStrlen pCmd) pCmd)

/-! ## What it computes -/

theorem colonLoop_eq {pCmd : List UInt8} (len pos : ℕ) (inside : pos + len ≤ pCmd.length) :
    colonLoop pCmd len pos =
      pos + (((pCmd.drop pos).take len).takeWhile fun b => b != 0x3A).length := by
  induction len generalizing pos with
  | zero => rfl
  | succ len ih =>
      have here : pos < pCmd.length := by omega
      rw [colonLoop, List.drop_eq_getElem_cons here, List.take_succ_cons, List.takeWhile_cons,
        byteAt_eq_getElem here]
      by_cases colon : pCmd[pos] = 0x3A
      · simp [colon]
      · have other : (pCmd[pos] != 0x3A) = true := by simpa using colon
        rw [if_neg colon, if_pos other, ih (pos + 1) (by omega), List.length_cons]
        omega

/-- A string ends with a `NUL`. -/
theorem byteAt_rtStrlen (s : List UInt8) : byteAt s (rtStrlen s) = 0 := by
  induction s with
  | nil => rfl
  | cons a s ih =>
      rw [rtStrlen, cString_cons]
      split
      · rename_i nul
        exact nul
      · exact ih

/-- **The second loop does nothing**, whatever the line ends with. -/
theorem findValueAndTrim_eq (pCmd : List UInt8) :
    findValueAndTrim pCmd = (findValue pCmd, pCmd) := by
  have short : (rtStrlen pCmd).toUInt8.toNat ≤ pCmd.length := by
    rw [UInt8.toNat_ofNat']
    exact (Nat.mod_le _ _).trans (List.takeWhile_prefix _).length_le
  have stays (value : ℕ) : trimLoop value (rtStrlen pCmd) pCmd = pCmd := by
    have nul := byteAt_rtStrlen pCmd
    cases strlen : rtStrlen pCmd with
    | zero => rfl
    | succ pos =>
        rw [strlen] at nul
        rw [trimLoop, nul, if_neg]
        rintro ⟨-, same | same⟩ <;> cases same
  simp only [findValueAndTrim, stays, findValue, colonLoop_eq _ 0 ((Nat.zero_add _).trans_le short),
    List.drop_zero, Nat.zero_add]

/-! ## What it is for -/

def isLineEnd (b : UInt8) : Bool := b = cr ∨ b = lf

/-- The line end at the end of the value. -/
def lineEnds (line : List UInt8) : List UInt8 := (behindColon line).rtakeWhile isLineEnd

/-- The value is the text behind the first colon without the line end at its end, and nothing of
the memory but that is changed. -/
structure FindsValue (line behind : List UInt8) : Prop where
  value : cString ((findValueAndTrim (line ++ 0 :: behind)).2.drop
    (findValueAndTrim (line ++ 0 :: behind)).1) = (behindColon line).rdropWhile isLineEnd
  frame : ∀ i, i + (lineEnds line).length < line.length ∨ line.length ≤ i →
    (findValueAndTrim (line ++ 0 :: behind)).2[i]? = (line ++ 0 :: behind)[i]?

/-- The value that is returned. -/
theorem cString_findValue {line : List UInt8} (plain : (0 : UInt8) ∉ line) (behind : List UInt8) :
    cString ((line ++ 0 :: behind).drop (findValue (line ++ 0 :: behind))) =
      if colonAt line ≤ line.length % 256 then behindColon line else [] := by
  have empty : cString (0 :: behind) = [] := rfl
  rw [findValue_eq plain]
  by_cases colon : (0x3A : UInt8) ∈ line
  · obtain ⟨u, v, rfl, first⟩ := List.eq_append_cons_of_mem colon
    have noNul : (0 : UInt8) ∉ v := by
      simp only [List.mem_append, List.mem_cons, not_or] at plain
      exact plain.2.2
    have at_ : colonAt (u ++ 0x3A :: v) = u.length := by rw [colonAt, takeWhile_ne first]
    have text : behindColon (u ++ 0x3A :: v) = v := by
      rw [behindColon, dropWhile_ne first]
      rfl
    have value : (u ++ 0x3A :: v ++ 0 :: behind).drop (u.length + 1) = v ++ 0 :: behind := by
      simp [List.drop_append]
    rw [at_, text]
    by_cases found : u.length ≤ (u ++ 0x3A :: v).length % 256
    · rw [if_pos ⟨colon, found⟩, if_pos found, value, cString, takeWhile_ne noNul]
    · rw [if_neg fun both => found both.2, if_neg found, List.drop_left, empty]
  · rw [if_neg fun both => colon both.1, behindColon_of_not_mem colon, ite_self, List.drop_left,
      empty]

/-- **The value is right exactly when** there is no colon; or the first one is found, and no line
end stands at the end of the line; or it is not found, and nothing but a line end stands behind
it. -/
theorem findsValue_iff {line : List UInt8} (plain : (0 : UInt8) ∉ line) (behind : List UInt8) :
    FindsValue line behind ↔ (0x3A : UInt8) ∉ line ∨
      (colonAt line ≤ line.length % 256 ∧ ∀ b, (behindColon line).getLast? = some b →
        isLineEnd b = false) ∨
      (line.length % 256 < colonAt line ∧ ∀ b ∈ behindColon line, isLineEnd b = true) := by
  have value : FindsValue line behind ↔
      (if colonAt line ≤ line.length % 256 then behindColon line else []) =
        (behindColon line).rdropWhile isLineEnd := by
    rw [← cString_findValue plain behind]
    constructor
    · intro finds
      have value := finds.value
      rwa [findValueAndTrim_eq] at value
    · intro value
      refine ⟨?_, fun i _ => ?_⟩
      · rwa [findValueAndTrim_eq]
      · rw [findValueAndTrim_eq]
  rw [value]
  by_cases colon : (0x3A : UInt8) ∈ line
  · simp only [colon, not_true_eq_false, false_or]
    by_cases found : colonAt line ≤ line.length % 256
    · have last : (∀ b, (behindColon line).getLast? = some b → isLineEnd b = false) ↔
          (behindColon line).rdropWhile isLineEnd = behindColon line := by
        rw [List.rdropWhile_eq_self_iff]
        constructor
        · intro all some_
          rw [all _ (List.getLast?_eq_some_getLast some_)]
          decide
        · intro none_ b last
          have some_ : behindColon line ≠ [] := by
            rintro empty
            rw [empty] at last
            cases last
          rw [List.getLast?_eq_some_getLast some_] at last
          obtain rfl := Option.some.inj last
          exact Bool.eq_false_of_not_eq_true (none_ some_)
      rw [if_pos found, last]
      simp only [found, true_and, Nat.not_lt.mpr found, false_and, or_false]
      exact eq_comm
    · rw [if_neg found, eq_comm, List.rdropWhile_eq_nil_iff]
      simp only [found, false_and, false_or, Nat.lt_of_not_le found, true_and]
  · rw [behindColon_of_not_mem colon, ite_self]
    exact iff_of_true rfl (.inl colon)

theorem findsValue_iff_ip :
    FindsValue (text "IP:10.0.0.1") [] ↔ (0x3A : UInt8) ∉ text "IP:10.0.0.1" ∨
      (colonAt (text "IP:10.0.0.1") ≤ (text "IP:10.0.0.1").length % 256 ∧
        ∀ b, (behindColon (text "IP:10.0.0.1")).getLast? = some b → isLineEnd b = false) ∨
      ((text "IP:10.0.0.1").length % 256 < colonAt (text "IP:10.0.0.1") ∧
        ∀ b ∈ behindColon (text "IP:10.0.0.1"), isLineEnd b = true) :=
  findsValue_iff (by decide +kernel) []

/-- A report as the parser passes it, with the `CR` that stood in front of the line end, and a
report of 256 bytes. -/
theorem line_end_is_returned :
    ¬ FindsValue (text "IPD,2:OK" ++ [cr]) [] ∧
      ¬ FindsValue (text "CWJAP:" ++ List.replicate 250 0x61) [] := by
  have kept : cString ((findValueAndTrim (text "IPD,2:OK" ++ [cr] ++ [0])).2.drop
      (findValueAndTrim (text "IPD,2:OK" ++ [cr] ++ [0])).1) ≠
        (behindColon (text "IPD,2:OK" ++ [cr])).rdropWhile isLineEnd := by
    decide +kernel
  have lost : cString ((findValueAndTrim (text "CWJAP:" ++ List.replicate 250 0x61 ++ [0])).2.drop
      (findValueAndTrim (text "CWJAP:" ++ List.replicate 250 0x61 ++ [0])).1) ≠
        (behindColon (text "CWJAP:" ++ List.replicate 250 0x61)).rdropWhile isLineEnd := by
    decide +kernel
  exact ⟨fun finds => kept finds.value, fun finds => lost finds.value⟩

end WhaleShark.Network
