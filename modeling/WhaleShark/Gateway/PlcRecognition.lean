import WhaleShark.Gateway.PlcFrame

/-!
# Which frames of a buffer are recognised

A walk of `parserReceiveData` that starts with the search for `STX` should mark a frame as received
exactly when the buffer contains one (`Recognises`). It looks at the frames only that it has begun
itself: the first `STX` begins one, and the first `STX` behind those 80 bytes the next
(`BegunFrom`). So a false `STX` hides a frame that begins within its 80 bytes, and since the sum is
compared at the byte behind the frame, a frame at the end of the buffer is not noticed
(`recognises_iff`).
-/

set_option autoImplicit false

namespace WhaleShark.Plc

open Foundations

/-- A frame lies at offset `f`. -/
def FrameAt (d : List UInt8) (f : ℕ) : Prop := IsFrame ((d.drop f).take plcDataLen)

instance (d : List UInt8) (f : ℕ) : Decidable (FrameAt d f) :=
  inferInstanceAs (Decidable (IsFrame _))

/-- The walk marks a frame as received exactly when the buffer contains one. -/
def Recognises (p_base : List UInt8) : Prop :=
  (parserReceiveData p_base disable disable).valid = enable ↔ ∃ f, FrameAt p_base f

/-- A search from offset `i` on begins a frame at `f`: it is the first `STX`, or it is begun by the
search that goes on 80 bytes behind the first `STX`. -/
inductive BegunFrom (d : List UInt8) : ℕ → ℕ → Prop where
  | first {i f : ℕ} (at_ : AtFrame d i f) : BegunFrom d i f
  | behind {i b f : ℕ} (at_ : AtFrame d i b) (later : BegunFrom d (b + (plcDataLen + 1)) f) :
      BegunFrom d i f

theorem BegunFrom.mem_frameStarts {d : List UInt8} {i f : ℕ} (begun : BegunFrom d i f) :
    d.drop f ∈ frameStarts (d.drop i) := by
  induction begun with
  | first at_ =>
      rw [frameStarts_of_atFrame at_]
      exact List.mem_cons_self
  | behind at_ _ ih =>
      rw [frameStarts_of_atFrame at_]
      exact List.mem_cons_of_mem _ ih

theorem BegunFrom.mark {d : List UInt8} {i f : ℕ} (begun : BegunFrom d i f) :
    byteAt d f = stx := by
  induction begun with
  | first at_ => exact at_.mark
  | behind _ _ ih => exact ih

/-- The suffixes at which a frame begins are those at the offsets at which one is begun. -/
theorem exists_begunFrom (d : List UInt8) :
    ∀ (n i : ℕ), d.length - i ≤ n → ∀ suffix ∈ frameStarts (d.drop i),
      ∃ f, BegunFrom d i f ∧ suffix = d.drop f := by
  intro n
  induction n with
  | zero =>
      intro i short suffix member
      have quiet : frameStarts (d.drop i) = [] := frameStarts_of_quiet fun j low high => by omega
      rw [quiet] at member
      cases member
  | succ n ih =>
      intro i short suffix member
      rcases quiet_or_atFrame d i with quiet | ⟨b, at_⟩
      · rw [frameStarts_of_quiet quiet] at member
        cases member
      · rw [frameStarts_of_atFrame at_] at member
        rcases List.mem_cons.mp member with rfl | later
        · exact ⟨b, .first at_, rfl⟩
        · have below := at_.below
          have inside := at_.inside
          obtain ⟨f, begun, same⟩ := ih _ (by omega) suffix later
          exact ⟨f, .behind at_ begun, same⟩

/-- A suffix that begins with `STX` is accepted when a frame lies there and a byte behind it. -/
theorem validPiece_drop_iff {d : List UInt8} {f : ℕ} (mark : byteAt d f = stx) :
    validPiece (d.drop f) = true ↔ FrameAt d f ∧ f + plcDataLen < d.length := by
  constructor
  · intro accepted
    have starts : byteAt (d.drop f) 0 = stx := by rw [byteAt_drop, Nat.add_zero, mark]
    have long := ((validPiece_iff _).mp accepted).1
    rw [List.length_drop] at long
    exact ⟨isFrame_of_validPiece starts accepted, by omega⟩
  · rintro ⟨⟨-, -, sum⟩, behind⟩
    rw [byteAt_take (by decide), calSum_take _ (by decide)] at sum
    rw [validPiece_iff, List.length_drop]
    exact ⟨by omega, sum⟩

theorem frameFound_iff (d : List UInt8) :
    frameFound d = true ↔ ∃ f, BegunFrom d 0 f ∧ FrameAt d f ∧ f + plcDataLen < d.length := by
  rw [frameFound, List.any_eq_true]
  constructor
  · rintro ⟨suffix, member, accepted⟩
    obtain ⟨f, begun, rfl⟩ := exists_begunFrom d d.length 0 (Nat.sub_le _ _) suffix member
    exact ⟨f, begun, (validPiece_drop_iff begun.mark).mp accepted⟩
  · rintro ⟨f, begun, noticed⟩
    exact ⟨d.drop f, begun.mem_frameStarts, (validPiece_drop_iff begun.mark).mpr noticed⟩

/-- What the walk marks, on a buffer of any length. -/
theorem valid_eq (p_base : List UInt8) :
    (parserReceiveData p_base disable disable).valid = frameFound p_base := by
  by_cases nonempty : p_base = []
  · subst nonempty
    rfl
  · rw [parserReceiveData_eq (by intro started; cases started) nonempty]
    rfl

/-- **The walk recognises exactly the frames of a buffer when, if the buffer contains one, some frame
in it is begun by the walk and has a byte behind it.** -/
theorem recognises_iff (p_base : List UInt8) :
    Recognises p_base ↔ ((∃ f, FrameAt p_base f) →
      ∃ f, BegunFrom p_base 0 f ∧ FrameAt p_base f ∧ f + plcDataLen < p_base.length) := by
  rw [Recognises, valid_eq, frameFound_iff]
  constructor
  · exact fun exact_ contained => exact_.mpr contained
  · intro noticed
    exact ⟨fun ⟨f, _, frame, _⟩ => ⟨f, frame⟩, noticed⟩

/-- `STX`, no values, and the sum. -/
def plainFrame : List UInt8 := stx :: List.replicate 77 0 ++ [stx]

/-- **A frame that ends with the buffer is not recognised, and neither is one that begins two bytes
behind a false `STX`.** -/
theorem frames_are_missed :
    ¬ Recognises plainFrame ∧ ¬ Recognises (stx :: 0 :: plainFrame ++ [0]) := by
  have atEnd : frameFound plainFrame = false := by decide +kernel
  have hidden : frameFound (stx :: 0 :: plainFrame ++ [0]) = false := by decide +kernel
  constructor
  · intro exact_
    rw [Recognises, valid_eq, atEnd] at exact_
    cases exact_.mpr ⟨0, by decide +kernel⟩
  · intro exact_
    rw [Recognises, valid_eq, hidden] at exact_
    cases exact_.mpr ⟨2, by decide +kernel⟩

end WhaleShark.Plc
