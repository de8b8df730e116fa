import WhaleShark.Foundations.MarkedPieces
import WhaleShark.Gateway.Common

/-!
# The search for a PLC frame

A frame of the PLC is 79 bytes: `STX`, the values, and the sum of the first 78 bytes.
`parserReceiveData` walks over everything the receive buffer holds. At an `STX` it marks the
beginning of a frame, and 79 bytes later it compares the sum. It compares only when it looks at
the byte behind the frame, so a frame is noticed with its 80th byte.

The walk is the search for pieces of 80 bytes that begin at `STX` (`parserReceiveData_eq`):
what it reports as consumed is everything before the last piece, and it marks a frame as
received when some piece of the buffer is complete with the right sum (`validPiece`).
-/

set_option autoImplicit false

namespace WhaleShark.Plc

open Foundations

/-- `PLC_DATA_LEN` -/
def plcDataLen : ℕ := 79

/-- `CalSum`: the sum of `len` bytes in one byte. -/
def calSum (pData : List UInt8) (len : ℕ) : UInt8 :=
  (pData.take len).foldl (fun result b => result + b) 0

/-- What the walk of `ParserReceiveData` carries: the offset of `begin`, the static flag
`findStart`, and `plDataInfo->valid`. -/
structure Scan where
  begin_ : ℕ
  findStart : FunctionalState
  valid : FunctionalState
  deriving DecidableEq, Repr

/-- The body of the loop, for `end` at offset `e`. -/
def scanByte (p_base : List UInt8) (s : Scan) (e : ℕ) : Scan :=
  if byteAt p_base e = stx ∧ s.findStart = disable then
    { s with findStart := enable, begin_ := e }
  else if s.findStart = enable ∧ e - s.begin_ = plcDataLen then
    -- `end` is at the byte behind the frame
    { s with
      findStart := disable
      valid :=
        if byteAt p_base (s.begin_ + plcDataLen - 1) =
            calSum (p_base.drop s.begin_) (plcDataLen - 1)
        then enable else s.valid }
  else s

/-- `ParserReceiveData` on the `rx_size` bytes at `p_base`. The result's `begin_` is what the
function returns as `consumed`. -/
def parserReceiveData (p_base : List UInt8) (findStart valid : FunctionalState) : Scan :=
  (List.range p_base.length).foldl (scanByte p_base) ⟨0, findStart, valid⟩

/-! ## Frames -/

/-- 79 bytes that begin with `STX` and end with the sum of the others. -/
structure IsFrame (frame : List UInt8) : Prop where
  size : frame.length = plcDataLen
  starts : byteAt frame 0 = stx
  sum : byteAt frame (plcDataLen - 1) = calSum frame (plcDataLen - 1)

instance (frame : List UInt8) : Decidable (IsFrame frame) :=
  decidable_of_iff (frame.length = plcDataLen ∧ byteAt frame 0 = stx ∧
      byteAt frame (plcDataLen - 1) = calSum frame (plcDataLen - 1))
    ⟨fun ⟨size, starts, sum⟩ => ⟨size, starts, sum⟩, fun ⟨size, starts, sum⟩ => ⟨size, starts, sum⟩⟩

/-- A byte begins a frame. -/
def isStx (b : UInt8) : Bool := b == stx

/-- The 80 bytes of a complete piece hold a frame with the right sum. -/
def sumHolds (piece : List UInt8) : Bool :=
  byteAt piece (plcDataLen - 1) == calSum piece (plcDataLen - 1)

/-- The suffixes at which the walk begins a frame. -/
def frameStarts (d : List UInt8) : List (List UInt8) := pieceStarts isStx (plcDataLen + 1) d

/-- The suffix begins with a frame that the walk has accepted. -/
def validPiece (suffix : List UInt8) : Bool := goodPiece (plcDataLen + 1) sumHolds suffix

/-- What the walk keeps. -/
def keepFrame (d : List UInt8) : List UInt8 := keepLastPiece isStx (plcDataLen + 1) d

/-- Some frame in the buffer is complete and has the right sum. -/
def frameFound (d : List UInt8) : Bool := (frameStarts d).any validPiece

theorem keepFrame_eq (d : List UInt8) : keepFrame d = ((frameStarts d).getLast?).getD d := rfl

theorem keepFrame_of_quiet {d : List UInt8} (quiet : frameStarts d = []) : keepFrame d = d := by
  rw [keepFrame_eq, quiet, List.getLast?_nil, Option.getD_none]

theorem calSum_take (pData : List UInt8) {len more : ℕ} (bound : len ≤ more) :
    calSum (pData.take more) len = calSum pData len := by
  rw [calSum, calSum, List.take_take, Nat.min_eq_left bound]

/-- What the walk accepts: a piece is complete and its 79th byte is the sum. -/
theorem validPiece_iff (suffix : List UInt8) :
    validPiece suffix = true ↔ plcDataLen + 1 ≤ suffix.length ∧
      byteAt suffix (plcDataLen - 1) = calSum suffix (plcDataLen - 1) := by
  simp only [validPiece, goodPiece, sumHolds, Bool.and_eq_true, decide_eq_true_eq, beq_iff_eq]
  rw [byteAt_take (by decide), calSum_take suffix (by decide)]

/-- A suffix that the walk has accepted begins with a frame. -/
theorem isFrame_of_validPiece {suffix : List UInt8} (starts : byteAt suffix 0 = stx)
    (accepted : validPiece suffix = true) : IsFrame (suffix.take plcDataLen) := by
  obtain ⟨long, sum⟩ := (validPiece_iff suffix).mp accepted
  refine ⟨?_, ?_, ?_⟩
  · rw [List.length_take]
    omega
  · rw [byteAt_take (by decide), starts]
  · rw [byteAt_take (by decide), calSum_take suffix (by decide), sum]

/-! ## The walk, part by part -/

/-- The walk from offset `i` over the next `n` bytes. -/
def scanFrom (p_base : List UInt8) (i n : ℕ) (s : Scan) : Scan :=
  (List.range' i n).foldl (scanByte p_base) s

theorem scanFrom_add (p_base : List UInt8) (i m n : ℕ) (s : Scan) :
    scanFrom p_base i (m + n) s = scanFrom p_base (i + m) n (scanFrom p_base i m s) := by
  simp [scanFrom, ← List.range'_append_1, List.foldl_append]

theorem scanFrom_succ (p_base : List UInt8) (i n : ℕ) (s : Scan) :
    scanFrom p_base i (n + 1) s = scanFrom p_base (i + 1) n (scanByte p_base s i) := by
  simp [scanFrom, List.range'_succ]

theorem parserReceiveData_scanFrom (p_base : List UInt8) (findStart valid : FunctionalState) :
    parserReceiveData p_base findStart valid =
      scanFrom p_base 0 p_base.length ⟨0, findStart, valid⟩ := by
  rw [parserReceiveData, scanFrom, List.range_eq_range']

/-- While it looks for `STX`, bytes that are none leave the walk as it is. -/
theorem scanFrom_search (p_base : List UInt8) (b : ℕ) (valid : FunctionalState) :
    ∀ (n i : ℕ), (∀ j, i ≤ j → j < i + n → byteAt p_base j ≠ stx) →
      scanFrom p_base i n ⟨b, disable, valid⟩ = ⟨b, disable, valid⟩ := by
  intro n
  induction n with
  | zero => intro i _; rfl
  | succ n ih =>
      intro i other
      have here : byteAt p_base i ≠ stx := other i (Nat.le_refl i) (by omega)
      have stays : scanByte p_base ⟨b, disable, valid⟩ i = ⟨b, disable, valid⟩ := by
        simp [scanByte, here]
      rw [scanFrom_succ, stays]
      exact ih (i + 1) fun j low high => other j (by omega) (by omega)

/-- Inside a frame the walk only counts. -/
theorem scanFrom_collect (p_base : List UInt8) (b : ℕ) (valid : FunctionalState) :
    ∀ (n i : ℕ), b ≤ i → i + n ≤ b + plcDataLen →
      scanFrom p_base i n ⟨b, enable, valid⟩ = ⟨b, enable, valid⟩ := by
  intro n
  induction n with
  | zero => intro i _ _; rfl
  | succ n ih =>
      intro i low high
      have short : i - b ≠ plcDataLen := by omega
      have stays : scanByte p_base ⟨b, enable, valid⟩ i = ⟨b, enable, valid⟩ := by
        simp [scanByte, short]
      rw [scanFrom_succ, stays]
      exact ih (i + 1) (by omega) (by omega)

/-- At the byte behind the frame the sum is compared. -/
theorem scanByte_close (p_base : List UInt8) (b : ℕ) (valid : FunctionalState)
    (complete : plcDataLen + 1 ≤ (p_base.drop b).length) :
    scanByte p_base ⟨b, enable, valid⟩ (b + plcDataLen) =
      ⟨b, disable, valid || validPiece (p_base.drop b)⟩ := by
  have accepted := validPiece_iff (p_base.drop b)
  rw [byteAt_drop, ← Nat.add_sub_assoc (by decide)] at accepted
  have closes : b + plcDataLen - b = plcDataLen := Nat.add_sub_cancel_left b plcDataLen
  simp only [scanByte, closes, Bool.true_eq_false, and_false, if_false, true_and, if_true]
  by_cases same :
      byteAt p_base (b + plcDataLen - 1) = calSum (p_base.drop b) (plcDataLen - 1)
  · rw [if_pos same, accepted.mpr ⟨complete, same⟩, Bool.or_true]
  · have refused : validPiece (p_base.drop b) = false := by
      rw [Bool.eq_false_iff]
      exact fun yes => same (accepted.mp yes).2
    rw [if_neg same, refused, Bool.or_false]

/-- Wherever a walk begins, it marks no beginning behind the bytes it has seen, and while it is
inside a frame it has seen 79 bytes of it at most. -/
theorem scanFrom_bounds (p_base : List UInt8) (n i : ℕ) (s : Scan) (marked : s.begin_ ≤ i)
    (inside : s.findStart = enable → i - s.begin_ ≤ plcDataLen) :
    (scanFrom p_base i n s).begin_ ≤ i + n ∧
      ((scanFrom p_base i n s).findStart = enable →
        i + n - (scanFrom p_base i n s).begin_ ≤ plcDataLen) := by
  induction n generalizing i s with
  | zero => exact ⟨marked, inside⟩
  | succ n ih =>
      have next : (scanByte p_base s i).begin_ ≤ i + 1 ∧
          ((scanByte p_base s i).findStart = enable →
            i + 1 - (scanByte p_base s i).begin_ ≤ plcDataLen) := by
        unfold scanByte
        split
        · exact ⟨Nat.le_succ i, fun _ => by simp only [plcDataLen]; omega⟩
        · split
          · exact ⟨Nat.le_succ_of_le marked, fun begun => nomatch begun⟩
          · rename_i unfinished
            refine ⟨Nat.le_succ_of_le marked, fun begun => ?_⟩
            have bound := inside begun
            have apart : i - s.begin_ ≠ plcDataLen := fun same => unfinished ⟨begun, same⟩
            omega
      have order : i + (n + 1) = i + 1 + n := by omega
      rw [scanFrom_succ, order]
      exact ih (i + 1) _ next.1 next.2

/-- What `ParserReceiveData` reports as consumed is no more than what it was given, and inside a
frame it keeps 79 bytes at most. -/
theorem parserReceiveData_bounds (p_base : List UInt8) (findStart valid : FunctionalState) :
    (parserReceiveData p_base findStart valid).begin_ ≤ p_base.length ∧
      ((parserReceiveData p_base findStart valid).findStart = enable →
        p_base.length - (parserReceiveData p_base findStart valid).begin_ ≤ plcDataLen) := by
  have bounds := scanFrom_bounds p_base p_base.length 0 ⟨0, findStart, valid⟩ le_rfl
    fun _ => Nat.zero_le _
  rwa [← parserReceiveData_scanFrom, Nat.zero_add] at bounds

/-! ## The walk is the search for pieces -/

/-- What a walk ends with that is at offset `i`, looks for `STX`, and has last marked `b`. -/
def scanned (p_base : List UInt8) (i b : ℕ) (valid : FunctionalState) : Scan :=
  match (frameStarts (p_base.drop i)).getLast? with
  | none => ⟨b, disable, valid⟩
  | some last =>
      ⟨p_base.length - last.length, decide (last.length ≤ plcDataLen),
        valid || frameFound (p_base.drop i)⟩

theorem scanned_of_none {p_base : List UInt8} {i b : ℕ} {valid : FunctionalState}
    (quiet : frameStarts (p_base.drop i) = []) :
    scanned p_base i b valid = ⟨b, disable, valid⟩ := by
  rw [scanned, quiet, List.getLast?_nil]

/-- Where the search stands at a frame: the rest of the buffer begins with it. -/
structure AtFrame (p_base : List UInt8) (i f : ℕ) : Prop where
  below : i ≤ f
  inside : f < p_base.length
  before : ∀ j, i ≤ j → j < f → byteAt p_base j ≠ stx
  mark : byteAt p_base f = stx

/-- From any offset there is no `STX` to come, or a first one. -/
theorem quiet_or_atFrame (p_base : List UInt8) (i : ℕ) :
    (∀ j, i ≤ j → j < p_base.length → byteAt p_base j ≠ stx) ∨ ∃ f, AtFrame p_base i f := by
  classical
  by_cases some_ : ∃ j, i ≤ j ∧ j < p_base.length ∧ byteAt p_base j = stx
  · refine .inr ⟨Nat.find some_, ?_⟩
    obtain ⟨below, inside, mark⟩ := Nat.find_spec some_
    refine ⟨below, inside, fun j low high same => ?_, mark⟩
    exact Nat.find_min some_ high ⟨low, by omega, same⟩
  · exact .inl fun j low high same => some_ ⟨j, low, high, same⟩

/-- Where no offset holds `STX`, no byte of the slice is a mark. -/
theorem isStx_of_slice {p_base : List UInt8} {i n : ℕ}
    (other : ∀ j, i ≤ j → j < i + n → j < p_base.length → byteAt p_base j ≠ stx) :
    ∀ a ∈ (p_base.drop i).take n, isStx a = false := by
  intro a member
  obtain ⟨k, inside, rfl⟩ := List.mem_iff_getElem.mp member
  rw [List.length_take, List.length_drop] at inside
  have differs := other (i + k) (by omega) (by omega) (by omega)
  rw [byteAt_eq_getElem (by omega)] at differs
  simpa [isStx] using differs

theorem frameStarts_of_quiet {p_base : List UInt8} {i : ℕ}
    (quiet : ∀ j, i ≤ j → j < p_base.length → byteAt p_base j ≠ stx) :
    frameStarts (p_base.drop i) = [] := by
  have junk := isStx_of_slice (n := p_base.length) fun j low _ high => quiet j low high
  rw [List.take_of_length_le (by rw [List.length_drop]; omega)] at junk
  exact pieceStarts_of_no_mark (by decide) junk

theorem frameStarts_of_atFrame {p_base : List UInt8} {i f : ℕ} (at_ : AtFrame p_base i f) :
    frameStarts (p_base.drop i) =
      p_base.drop f :: frameStarts (p_base.drop (f + (plcDataLen + 1))) := by
  have split : p_base.drop i = (p_base.drop i).take (f - i) ++ p_base.drop f := by
    conv_lhs => rw [← List.take_append_drop (f - i) (p_base.drop i), List.drop_drop]
    rw [Nat.add_sub_cancel' at_.below]
  have junk : ∀ a ∈ (p_base.drop i).take (f - i), isStx a = false :=
    isStx_of_slice fun j low high _ => at_.before j low (by omega)
  have begins : p_base.drop f = byteAt p_base f :: p_base.drop (f + 1) := by
    rw [List.drop_eq_getElem_cons at_.inside, byteAt_eq_getElem at_.inside]
  have mark : isStx (byteAt p_base f) = true := by rw [at_.mark]; decide
  rw [frameStarts, split, pieceStarts_append_of_no_mark (by decide) junk, begins,
    pieceStarts_of_mark (by decide) mark, ← begins, List.drop_drop, frameStarts]

/-- **The walk is the search for pieces**, from any offset at which it looks for `STX`. -/
theorem scanFrom_eq (p_base : List UInt8) :
    ∀ (n i b : ℕ) (valid : FunctionalState), i + n = p_base.length →
      scanFrom p_base i n ⟨b, disable, valid⟩ = scanned p_base i b valid := by
  intro n
  induction n using Nat.strongRecOn with
  | _ n ih =>
    intro i b valid whole
    rcases quiet_or_atFrame p_base i with quiet | ⟨f, at_⟩
    · rw [scanned_of_none (frameStarts_of_quiet quiet)]
      exact scanFrom_search p_base b valid n i fun j low high => quiet j low (by omega)
    · have starts := frameStarts_of_atFrame at_
      obtain ⟨below, inside, before, mark⟩ := at_
      have marked : scanByte p_base ⟨b, disable, valid⟩ f = ⟨f, enable, valid⟩ := by
        simp [scanByte, mark]
      -- over the bytes before the frame, and its first byte
      obtain ⟨rest, count⟩ : ∃ rest, n = (f - i) + (rest + 1) := ⟨n - (f - i) - 1, by omega⟩
      have found : scanFrom p_base i n ⟨b, disable, valid⟩ =
          scanFrom p_base (f + 1) rest ⟨f, enable, valid⟩ := by
        rw [count, scanFrom_add, Nat.add_sub_cancel' below,
          scanFrom_search p_base b valid (f - i) i fun j low high => before j low (by omega),
          scanFrom_succ, marked]
      by_cases complete : plcDataLen + 1 ≤ (p_base.drop f).length
      · -- over the rest of the frame, the comparison, and on
        have long := complete
        rw [List.length_drop] at long
        obtain ⟨more, total⟩ : ∃ more, rest = (plcDataLen - 1) + (more + 1) :=
          ⟨rest - plcDataLen, by simp only [plcDataLen] at long ⊢; omega⟩
        have close : f + 1 + (plcDataLen - 1) = f + plcDataLen := Nat.add_assoc f 1 _
        rw [found, total, scanFrom_add,
          scanFrom_collect p_base f valid _ _ (by omega) (by simp only [plcDataLen]; omega), close,
          scanFrom_succ, scanByte_close p_base f valid complete,
          ih more (by omega) _ _ _ (by omega), scanned, scanned, starts, frameFound, frameFound,
          starts, List.any_cons, Nat.add_assoc f plcDataLen 1]
        cases last : (frameStarts (p_base.drop (f + (plcDataLen + 1)))).getLast? with
        | none =>
            have quiet : frameStarts (p_base.drop (f + (plcDataLen + 1))) = [] :=
              List.getLast?_eq_none_iff.mp last
            have undone : ¬ (p_base.length - f ≤ plcDataLen) := by omega
            simp only [quiet, List.getLast?_singleton, List.any_nil, Bool.or_false,
              List.length_drop, undone, decide_false, Scan.mk.injEq, and_true]
            omega
        | some suffix =>
            simp only [List.getLast?_cons, last, Option.getD_some, Bool.or_assoc]
      · -- the frame is not complete
        have refused : validPiece (p_base.drop f) = false := by
          rw [Bool.eq_false_iff]
          exact fun yes => complete ((validPiece_iff _).mp yes).1
        rw [List.length_drop] at complete
        have last : frameStarts (p_base.drop (f + (plcDataLen + 1))) = [] := by
          rw [List.drop_eq_nil_of_le (by omega)]
          exact pieceStarts_of_no_mark (by decide) (by simp)
        have undone : p_base.length - f ≤ plcDataLen := by omega
        rw [found, scanFrom_collect p_base f valid _ _ (by omega) (by omega), scanned, frameFound,
          starts, last]
        simp only [List.getLast?_singleton, List.any_cons, List.any_nil, refused, Bool.or_false,
          List.length_drop, undone, decide_true, Scan.mk.injEq, and_true]
        omega

/-- The bytes in front of what the walk keeps are the ones it reports as consumed. -/
theorem drop_length_sub_keepFrame (d : List UInt8) :
    d.drop (d.length - (keepFrame d).length) = keepFrame d := by
  by_cases begun : frameStarts d = []
  · rw [keepFrame_of_quiet begun, Nat.sub_self, List.drop_zero]
  · obtain ⟨-, -, -, suffix, -, -⟩ := pieceStarts_resume (by decide) d begun
    exact (List.suffix_iff_eq_drop.mp suffix).symm

/-- **`ParserReceiveData` is the search for pieces.** Between frames, and also inside a frame
whose `STX` is the first byte of the buffer, it drops what is before the last frame begun, is
inside a frame when that one is not complete, and marks a frame as received when one of the
buffer is complete with the right sum. -/
theorem parserReceiveData_eq {p_base : List UInt8} {findStart : FunctionalState}
    (resumed : findStart = enable → byteAt p_base 0 = stx) (nonempty : p_base ≠ [])
    (valid : FunctionalState) :
    parserReceiveData p_base findStart valid =
      ⟨p_base.length - (keepFrame p_base).length,
        decide (frameStarts p_base ≠ [] ∧ (keepFrame p_base).length ≤ plcDataLen),
        valid || frameFound p_base⟩ := by
  have fromDisable : parserReceiveData p_base findStart valid =
      parserReceiveData p_base disable valid := by
    cases findStart with
    | false => rfl
    | true =>
        obtain ⟨size, count⟩ : ∃ size, p_base.length = size + 1 :=
          ⟨p_base.length - 1, by have := List.length_pos_iff.mpr nonempty; omega⟩
        have mark := resumed rfl
        have same : scanByte p_base ⟨0, true, valid⟩ 0 = scanByte p_base ⟨0, disable, valid⟩ 0 := by
          simp [scanByte, mark, plcDataLen]
        rw [parserReceiveData_scanFrom, parserReceiveData_scanFrom, count, scanFrom_succ, same,
          scanFrom_succ]
  rw [fromDisable, parserReceiveData_scanFrom, scanFrom_eq p_base _ 0 0 valid (Nat.zero_add _),
    scanned, List.drop_zero, keepFrame_eq]
  cases last : (frameStarts p_base).getLast? with
  | none =>
      have quiet : frameStarts p_base = [] := List.getLast?_eq_none_iff.mp last
      simp [quiet, frameFound]
  | some suffix =>
      have begun : frameStarts p_base ≠ [] := by
        intro quiet
        rw [quiet] at last
        cases last
      simp [begun]

end WhaleShark.Plc
