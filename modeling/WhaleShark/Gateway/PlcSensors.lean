import WhaleShark.Gateway.ReadBuffers

/-!
# The turn of the sensors

`sensorCodeCount` says whose turn it is. At the turn of the first sensor the thread waits for a
frame, at the turn of any other for `SMSG_INC_DATA`, and behind the last sensor the count goes back
to 1. A frame is always noticed then, if a few bytes come before it: they complete what the search
has begun, and one more piece behind it (`takesFrame`).

The count goes back for a TS and for a TK. A device that is neither gets the packets of a TK, but
its count goes on behind the 19th sensor, to 65535, and from there to 0, where neither a frame nor
`SMSG_INC_DATA` is taken (`runs_out_of_turn`). So the count is that of a sensor in every run
exactly when the device is one of the two (`count_is_in_turn_iff`).
-/

set_option autoImplicit false

namespace WhaleShark.Plc

open Foundations

/-- The last sensor of the packets in use. What is no TS gets the packets of a TK. -/
def lastSensorCode : DevType → UInt16
  | .ts => 11
  | _ => 19

/-- The thread at its start, with its static variables. -/
def plcBegins (info : PlcCommInfo) : PlcThread where
  info := info
  findStart := disable
  sensorCodeCount := 1
  uRemain := 0

/-- With a connection, every frame makes the thread proceed, behind some other bytes. -/
def TakesFrame (t : PlcThread) : Prop :=
  ∀ frame, IsFrame frame → ∃ reads t' made, frame <:+: reads.flatten ∧
    plccommRx (setTcpStatus t enable) true false reads = some (t', some made)

/-- With a connection, `SMSG_INC_DATA` makes the thread proceed. -/
def TakesInc (t : PlcThread) : Prop :=
  ∃ t' made, plccommRx (setTcpStatus t enable) false true [] = some (t', some made)

/-- It is the turn of a sensor, and the thread proceeds with a frame or with `SMSG_INC_DATA`. -/
structure InTurn (t : PlcThread) : Prop where
  low : 1 ≤ t.sensorCodeCount
  high : t.sensorCodeCount ≤ lastSensorCode t.info.devType
  proceeds : TakesFrame t ∨ TakesInc t

/-- It is so at every point of every run. -/
def AlwaysInTurn (first : PlcThread) : Prop :=
  ∀ taken last, plcThread.Run first taken last →
    Machine.Throughout (fun _ t => InTurn t) taken last

/-! ## Several reads -/

theorem readAll_single {t : PlcThread} {chunk : List UInt8} (nonempty : chunk ≠ [])
    (room : chunk.length ≤ plcBuffSize - t.uRemain) :
    readAll t [chunk] = some (readChunk t chunk) := by
  rw [readAll, if_pos ⟨nonempty, room⟩, readAll]

theorem readAll_append {reads : List (List UInt8)} {t t' : PlcThread}
    (read : readAll t reads = some t') (more : List (List UInt8)) :
    readAll t (reads ++ more) = readAll t' more := by
  induction reads generalizing t with
  | nil =>
      cases read
      rfl
  | cons chunk chunks ih =>
      rw [readAll] at read
      rw [List.cons_append, readAll]
      split at read
      · rename_i admitted
        rw [if_pos admitted]
        exact ih read
      · cases read

/-! ## The turns that make a packet -/

theorem plccommRx_found {t t' : PlcThread} {inc : Bool} {reads : List (List UInt8)}
    (connected : t.info.tcpOn = enable) (turn : t.sensorCodeCount = 1)
    (read : readAll (makeRoom t) reads = some t') (valid : t'.info.valid = enable) :
    plccommRx t true inc reads =
      some ((packetise { t' with info := { t'.info with valid := disable } }).1,
        some (packetise { t' with info := { t'.info with valid := disable } }).2) := by
  simp only [plccommRx, Bool.true_or, Bool.true_eq_false, connected, turn, and_self, if_false,
    if_true, read, valid]

theorem plccommRx_next {t : PlcThread} {rx : Bool} (connected : t.info.tcpOn = enable)
    (turn : 1 < t.sensorCodeCount) :
    plccommRx t rx true [] = some ((packetise t).1, some (packetise t).2) := by
  have other : t.sensorCodeCount ≠ 1 := (UInt16.ne_of_lt turn).symm
  simp only [plccommRx, Bool.or_true, Bool.true_eq_false, other, and_false, if_false, ne_eq,
    not_true_eq_false, connected, turn, and_self, if_true]

/-! ## A frame is noticed -/

/-- Between the reads the buffer is not overfull, and a frame that has begun is not complete. -/
structure Ready (t : PlcThread) : Prop where
  fits : t.uRemain ≤ plcBuffSize
  begun : t.findStart = enable → t.uRemain ≤ plcDataLen

/-- A walk over 80 bytes that is inside a frame from their first on completes it. -/
theorem parserReceiveData_closes {p_base : List UInt8} (size : p_base.length = plcDataLen + 1)
    (valid : FunctionalState) :
    parserReceiveData p_base enable valid = ⟨0, disable, valid || validPiece p_base⟩ := by
  have close := scanByte_close p_base 0 valid (by rw [List.drop_zero, size])
  rw [parserReceiveData_scanFrom, size, scanFrom_add,
    scanFrom_collect p_base 0 valid plcDataLen 0 (Nat.le_refl 0) (Nat.le_refl _), scanFrom_succ,
    close, List.drop_zero]
  rfl

/-- Zeros complete whatever has begun. -/
theorem readChunk_closes {t : PlcThread} (inside : t.findStart = enable)
    (short : t.uRemain ≤ plcDataLen) :
    (readChunk t (.replicate (plcDataLen + 1 - t.uRemain) 0)).findStart = disable ∧
      (readChunk t (.replicate (plcDataLen + 1 - t.uRemain) 0)).uRemain = plcDataLen + 1 := by
  have total : t.uRemain + (plcDataLen + 1 - t.uRemain) = plcDataLen + 1 := by omega
  have size (rxBuf : Block UInt8 plcBuffSize) :
      (rxBuf.read 0 (plcDataLen + 1)).length = plcDataLen + 1 := by
    rw [Block.length_read]
    decide
  simp only [readChunk, List.length_replicate, total, inside, parserReceiveData_closes (size _),
    Nat.sub_zero, and_self]

/-- Between frames, an `STX` leaves a frame begun that is not complete, or just complete. -/
theorem readChunk_stx {t : PlcThread} (fits : t.uRemain < plcBuffSize)
    (between : t.findStart = disable) :
    Searching (readChunk t [stx]) ∧ frameStarts (readChunk t [stx]).held ≠ [] ∧
      (readChunk t [stx]).held.length ≤ plcDataLen + 1 := by
  have one : [stx].length ≤ plcBuffSize - t.uRemain := by
    rw [List.length_singleton]
    omega
  obtain ⟨searching, holds, -⟩ := readChunk_resumed fits.le
    (fun inside => by rw [between] at inside; cases inside) (List.cons_ne_nil stx []) one
  have mark : isStx stx = true := by decide
  obtain ⟨begun, short⟩ :
      frameStarts (t.held ++ [stx]) ≠ [] ∧ (keepFrame (t.held ++ [stx])).length ≤ plcDataLen + 1 :=
    keepLastPiece_concat_of_mark (by decide) mark t.held
  rw [holds, frameStarts_keepFrame]
  exact ⟨searching, begun, short⟩

/-- 80 bytes that begin with `STX` are held, and the next `STX` begins a frame. -/
structure AtPiece (t : PlcThread) : Prop where
  searching : Searching t
  begins : ∃ rest, t.held = stx :: rest
  size : t.held.length = plcDataLen + 1

/-- Zeros complete a frame that has begun. -/
theorem exists_reads_atPiece {t : PlcThread} (searching : Searching t)
    (begun : frameStarts t.held ≠ []) (short : t.held.length ≤ plcDataLen + 1) :
    ∃ reads t', readAll t reads = some t' ∧ AtPiece t' := by
  obtain ⟨-, -, -, -, ⟨a, rest, kept, mark⟩, -⟩ := pieceStarts_resume (by decide) t.held begun
  have holds : t.held = a :: rest := searching.kept.symm.trans kept
  obtain rfl : a = stx := by simpa [isStx] using mark
  rcases Nat.lt_or_ge t.held.length (plcDataLen + 1) with some_ | all
  · let zeros : List UInt8 := .replicate (plcDataLen + 1 - t.held.length) 0
    have size : zeros.length = plcDataLen + 1 - t.held.length := List.length_replicate
    have nonempty : zeros ≠ [] := by
      intro none_
      rw [none_, List.length_nil] at size
      omega
    have room : zeros.length ≤ plcBuffSize - t.uRemain := by
      rw [size, length_held searching.fits]
      simp only [plcDataLen, plcBuffSize]
      omega
    obtain ⟨next, held, -⟩ := readChunk_eq searching nonempty room
    have whole : (t.held ++ zeros).length = plcDataLen + 1 := by
      rw [List.length_append, size]
      omega
    rw [holds, List.cons_append] at held whole
    have one : keepFrame (stx :: (rest ++ zeros)) = stx :: (rest ++ zeros) := by
      rw [keepFrame_eq, frameStarts, pieceStarts_of_short (by decide) mark whole.le,
        List.getLast?_singleton, Option.getD_some]
    rw [one] at held
    exact ⟨[zeros], readChunk t zeros, readAll_single nonempty room, next, ⟨_, held⟩,
      by rw [held, whole]⟩
  · exact ⟨[], t, rfl, searching, ⟨rest, holds⟩, Nat.le_antisymm short all⟩

/-- A piece that is a frame and one byte is accepted. -/
theorem validPiece_of_isFrame {frame : List UInt8} (isFrame : IsFrame frame) (b : UInt8) :
    validPiece (frame ++ [b]) = true := by
  obtain ⟨size, -, sum⟩ := isFrame
  refine (validPiece_iff _).mpr ⟨?_, ?_⟩
  · rw [List.length_append, size, List.length_singleton]
  · have same : (frame ++ [b]).take plcDataLen = frame := List.take_left' size
    rw [byteAt_append_left (by rw [size]; decide), sum,
      ← calSum_take (frame ++ [b]) (by decide : plcDataLen - 1 ≤ plcDataLen), same]

/-- A frame and one more byte are noticed behind a complete piece. -/
theorem readChunk_frame {t : PlcThread} (atPiece : AtPiece t) {frame : List UInt8}
    (isFrame : IsFrame frame) :
    readAll t [frame ++ [0]] = some (readChunk t (frame ++ [0])) ∧
      (readChunk t (frame ++ [0])).info.valid = enable := by
  obtain ⟨searching, ⟨rest, holds⟩, size⟩ := atPiece
  have long : (frame ++ [0]).length = plcDataLen + 1 := by
    rw [List.length_append, isFrame.size, List.length_singleton]
  have nonempty : frame ++ [0] ≠ [] := List.append_ne_nil_of_right_ne_nil _ (List.cons_ne_nil _ _)
  have room : (frame ++ [0]).length ≤ plcBuffSize - t.uRemain := by
    rw [long, ← length_held searching.fits, size]
    decide
  obtain ⟨-, -, valid⟩ := readChunk_eq searching nonempty room
  have mark : isStx stx = true := by decide
  have behind : (t.held ++ (frame ++ [0])).drop (plcDataLen + 1) = frame ++ [0] :=
    List.drop_left' size
  have begins : frame ++ [0] ∈ frameStarts (frame ++ [0]) := by
    cases frame with
    | nil => cases isFrame.size
    | cons b frame =>
        have first : b = stx := isFrame.starts
        rw [first, List.cons_append, frameStarts, pieceStarts_of_mark (by decide) mark]
        exact List.mem_cons_self
  have found : frameFound (t.held ++ (frame ++ [0])) = true := by
    refine List.any_eq_true.mpr ⟨frame ++ [0], ?_, validPiece_of_isFrame isFrame 0⟩
    rw [holds, List.cons_append] at behind ⊢
    rw [frameStarts, pieceStarts_of_mark (by decide) mark, behind]
    exact List.mem_cons_of_mem _ begins
  exact ⟨readAll_single nonempty room, by rw [valid, found, Bool.or_true]⟩

/-- Whatever the buffer holds, some bytes lead to a complete piece. -/
theorem exists_reads_of_ready {t : PlcThread} (ready : Ready t) (room : t.uRemain < plcBuffSize) :
    ∃ reads t', readAll t reads = some t' ∧ AtPiece t' := by
  have fromBetween : ∀ {t : PlcThread}, t.uRemain < plcBuffSize → t.findStart = disable →
      ∃ reads t', readAll t reads = some t' ∧ AtPiece t' := by
    intro t room between
    obtain ⟨searching, begun, short⟩ := readChunk_stx room between
    obtain ⟨reads, t', read, atPiece⟩ := exists_reads_atPiece searching begun short
    have one : [stx].length ≤ plcBuffSize - t.uRemain := by
      rw [List.length_singleton]
      omega
    refine ⟨[stx] :: reads, t', ?_, atPiece⟩
    rw [readAll, if_pos ⟨List.cons_ne_nil _ _, one⟩, read]
  cases flag : t.findStart with
  | false => exact fromBetween room flag
  | true =>
      have short := ready.begun flag
      obtain ⟨between, all⟩ := readChunk_closes flag short
      obtain ⟨reads, t', read, atPiece⟩ := fromBetween (by rw [all]; decide) between
      refine ⟨.replicate (plcDataLen + 1 - t.uRemain) 0 :: reads, t', ?_, atPiece⟩
      have nonempty : List.replicate (plcDataLen + 1 - t.uRemain) (0 : UInt8) ≠ [] := by
        rw [Ne, List.replicate_eq_nil_iff]
        omega
      have fits : (List.replicate (plcDataLen + 1 - t.uRemain) (0 : UInt8)).length ≤
          plcBuffSize - t.uRemain := by
        rw [List.length_replicate]
        simp only [plcDataLen, plcBuffSize]
        omega
      rw [readAll, if_pos ⟨nonempty, fits⟩, read]

theorem makeRoom_ready {t : PlcThread} (ready : Ready t) : Ready (makeRoom t) := by
  unfold makeRoom
  split
  · exact ⟨Nat.zero_le _, fun _ => Nat.zero_le _⟩
  · exact ready

/-- **A frame is taken at the turn of the first sensor.** -/
theorem takesFrame {t : PlcThread} (ready : Ready t) (turn : t.sensorCodeCount = 1) :
    TakesFrame t := by
  intro frame isFrame
  have again : Ready (setTcpStatus t enable) := ⟨ready.fits, ready.begun⟩
  obtain ⟨reads, t', read, atPiece⟩ := exists_reads_of_ready (makeRoom_ready again)
    (uRemain_makeRoom (setTcpStatus t enable))
  obtain ⟨last, valid⟩ := readChunk_frame atPiece isFrame
  have all := (readAll_append read [frame ++ [0]]).trans last
  refine ⟨reads ++ [frame ++ [0]], _, _, ?_, plccommRx_found rfl turn all valid⟩
  rw [List.flatten_append, List.flatten_singleton, ← List.append_assoc]
  exact (List.suffix_append _ _).isInfix.trans (List.prefix_append _ _).isInfix

/-- **`SMSG_INC_DATA` is taken at the turn of any other.** -/
theorem takesInc {t : PlcThread} (turn : 1 < t.sensorCodeCount) : TakesInc t :=
  ⟨_, _, plccommRx_next rfl turn⟩

theorem isFrame_frameOfZeros : IsFrame frameOfZeros := by decide +kernel

/-- At a count of 0 neither is taken. -/
theorem not_takes_of_zero {t : PlcThread} (zero : t.sensorCodeCount = 0) :
    ¬ TakesFrame t ∧ ¬ TakesInc t := by
  have noFrame : t.sensorCodeCount ≠ 1 := by rw [zero]; decide
  have noSensor : ¬ 1 < t.sensorCodeCount := by rw [zero]; decide
  constructor
  · intro takes
    obtain ⟨reads, t', made, -, step⟩ := takes frameOfZeros isFrame_frameOfZeros
    generalize output : some made = o at step
    cases plccommRx_cases step with
    | idle => cases output
    | searching _ first => exact noFrame first
    | found _ first => exact noFrame first
  · rintro ⟨t', made, step⟩
    generalize output : some made = o at step
    cases plccommRx_cases step with
    | idle => cases output
    | next _ more => exact noSensor more

/-! ## The count -/

theorem nextSensorCode_eq {devType : DevType} (device : devType ≠ .invalid) (count : UInt16) :
    nextSensorCode devType count =
      if lastSensorCode devType < count + 1 then 1 else count + 1 := by
  cases devType with
  | invalid => exact absurd rfl device
  | ts =>
      simp only [nextSensorCode, lastSensorCode, true_and, reduceCtorEq, false_and, if_false]
      congr
  | tk =>
      simp only [nextSensorCode, lastSensorCode, true_and, reduceCtorEq, false_and, if_false]
      congr

/-- The turn behind a sensor of a TS or a TK is that of a sensor again. -/
theorem nextSensorCode_range {devType : DevType} (device : devType ≠ .invalid) {count : UInt16}
    (high : count ≤ lastSensorCode devType) :
    1 ≤ nextSensorCode devType count ∧ nextSensorCode devType count ≤ lastSensorCode devType := by
  have few : lastSensorCode devType ≤ 19 := by
    cases devType <;> decide
  have bound := UInt16.le_iff_toNat_le.mp (UInt16.le_trans high few)
  have sum : (count + 1).toNat = count.toNat + 1 := by
    rw [UInt16.toNat_add, Nat.mod_eq_of_lt]
    · rfl
    · exact Nat.lt_of_le_of_lt (Nat.succ_le_succ bound) (by decide)
  rw [nextSensorCode_eq device]
  split
  · refine ⟨UInt16.le_refl 1, ?_⟩
    cases devType <;> decide
  · rename_i within
    refine ⟨UInt16.le_iff_toNat_le.mpr ?_, UInt16.not_lt.mp within⟩
    rw [sum]
    exact Nat.le_add_left 1 _

theorem readAll_ready {reads : List (List UInt8)} {t t' : PlcThread} (ready : Ready t)
    (read : readAll t reads = some t') : Ready t' := by
  refine readAll_invariant (fun t chunk _ room before => ?_) ready read
  have fits := before.fits
  obtain ⟨left, begun, -⟩ := uRemain_readChunk (t := t) chunk (by omega)
  exact ⟨left, begun⟩

/-- What holds at every point of a run for a TS and a TK. -/
structure Counts (devType : DevType) (t : PlcThread) : Prop where
  ready : Ready t
  sameType : t.info.devType = devType
  low : 1 ≤ t.sensorCodeCount
  high : t.sensorCodeCount ≤ lastSensorCode devType

theorem packetise_counts {devType : DevType} (device : devType ≠ .invalid) {t : PlcThread}
    (counts : Counts devType t) : Counts devType (packetise t).1 := by
  obtain ⟨⟨sameType, -, -⟩, -, -⟩ := packetise_keeps t
  obtain ⟨low, high⟩ := nextSensorCode_range device counts.high
  refine ⟨⟨counts.ready.fits, counts.ready.begun⟩, sameType.trans counts.sameType, ?_, ?_⟩
  · rw [sensorCodeCount_packetise, counts.sameType]
    exact low
  · rw [sensorCodeCount_packetise, counts.sameType]
    exact high

theorem turn_counts {devType : DevType} (device : devType ≠ .invalid) {t t' : PlcThread}
    {e : PlcEvent} {made : Option Packetised} (turn : Turn t e t' made)
    (counts : Counts devType t) : Counts devType t' := by
  have afterReads {reads : List (List UInt8)} {t' : PlcThread}
      (read : readAll (makeRoom t) reads = some t') : Counts devType t' := by
    have kept := reads_keep read
    exact ⟨readAll_ready (makeRoom_ready counts.ready) read, kept.devType.trans counts.sameType,
      kept.sensorCodeCount ▸ counts.low, kept.sensorCodeCount ▸ counts.high⟩
  cases turn with
  | idle => exact counts
  | searching _ _ read _ => exact afterReads read
  | @found _ _ after _ _ read _ =>
      obtain ⟨ready, sameType, low, high⟩ := afterReads read
      exact packetise_counts device
        (t := { after with info := { after.info with valid := disable } })
        ⟨⟨ready.fits, ready.begun⟩, sameType, low, high⟩
  | next => exact packetise_counts device counts
  | setTcpStatus => exact ⟨⟨counts.ready.fits, counts.ready.begun⟩, counts.sameType, counts.low,
      counts.high⟩

theorem inTurn_of_counts {devType : DevType} {t : PlcThread} (counts : Counts devType t) :
    InTurn t := by
  refine ⟨counts.low, counts.sameType ▸ counts.high, ?_⟩
  rcases UInt16.lt_or_eq_of_le counts.low with more | first
  · exact .inr (takesInc more)
  · exact .inl (takesFrame counts.ready first.symm)

/-- **A TS or a TK counts its sensors** in every run. -/
theorem alwaysInTurn_of_device {info : PlcCommInfo} (device : info.devType ≠ .invalid) :
    AlwaysInTurn (plcBegins info) := by
  intro taken last run
  have initial : Counts info.devType (plcBegins info) := by
    refine ⟨⟨Nat.zero_le _, fun _ => Nat.zero_le _⟩, rfl, (by decide : (1 : UInt16) ≤ 1), ?_⟩
    show 1 ≤ lastSensorCode info.devType
    cases info.devType <;> decide
  obtain ⟨reached, along⟩ := run.invariant (fun _ t => Counts info.devType t) initial
    fun _ τ takes counts => turn_counts device (plcThread_cases takes) counts
  exact ⟨inTurn_of_counts reached,
    fun past τ rest split => inTurn_of_counts (along past τ rest split)⟩

/-! ## A device that is neither -/

theorem nextSensorCode_invalid (count : UInt16) : nextSensorCode .invalid count = count + 1 := rfl

/-- Each `SMSG_INC_DATA` counts on. -/
theorem exists_run_counting {t : PlcThread} (connected : t.info.tcpOn = enable)
    (device : t.info.devType = .invalid) {count : ℕ} (low : 2 ≤ count)
    (turn : t.sensorCodeCount = UInt16.ofNat count) (more : ℕ) (bound : count + more ≤ 65536) :
    ∃ taken last, plcThread.Run t taken last ∧ last.info.tcpOn = enable ∧
      last.info.devType = .invalid ∧ last.sensorCodeCount = UInt16.ofNat (count + more) := by
  induction more with
  | zero => exact ⟨[], t, .nil, connected, device, turn⟩
  | succ more ih =>
      obtain ⟨taken, last, run, connected, device, turn⟩ := ih (by omega)
      have above : 1 < last.sensorCodeCount := by
        rw [turn, UInt16.lt_iff_toNat_lt, UInt16.toNat_ofNat', Nat.mod_eq_of_lt (by omega)]
        exact (by omega : 1 < count + more)
      obtain ⟨⟨sameType, -, sameTcp⟩, -, -⟩ := packetise_keeps last
      have counts : plccommRx last false true [] =
          some ((packetise last).1, some (packetise last).2) := plccommRx_next connected above
      have takes : plcThread.Takes ⟨last, .received false true [], some (packetise last).2,
          (packetise last).1⟩ := counts
      refine ⟨_, _, run.snoc rfl takes, sameTcp.trans connected, sameType.trans device, ?_⟩
      rw [sensorCodeCount_packetise, device, nextSensorCode_invalid, turn, ← Nat.add_assoc]
      exact (UInt16.ofNat_add _ 1).symm

/-- **The count goes through every number** from 2 on, and with 65536 to 0. -/
theorem runs_out_of_turn {info : PlcCommInfo} (device : info.devType = .invalid) {count : ℕ}
    (low : 2 ≤ count) (bound : count ≤ 65536) :
    ∃ taken last, plcThread.Run (plcBegins info) taken last ∧
      last.sensorCodeCount = UInt16.ofNat count := by
  have ready : Ready (plcBegins info) := ⟨Nat.zero_le _, fun _ => Nat.zero_le _⟩
  obtain ⟨reads, t', made, -, step⟩ := takesFrame ready rfl frameOfZeros isFrame_frameOfZeros
  have connects : plcThread.Takes ⟨plcBegins info, .setTcpStatus enable, none,
      setTcpStatus (plcBegins info) enable⟩ := rfl
  have takes : plcThread.Takes ⟨setTcpStatus (plcBegins info) enable, .received true false reads,
      some made, t'⟩ := step
  have opens : plcThread.Run (plcBegins info) _ t' := (Machine.Run.single connects).snoc rfl takes
  obtain ⟨connected, sameType, turn⟩ : t'.info.tcpOn = enable ∧ t'.info.devType = .invalid ∧
      t'.sensorCodeCount = 2 := by
    generalize output : some made = o at step
    cases plccommRx_cases step with
    | idle => cases output
    | searching => cases output
    | @found _ _ after _ _ read _ =>
        have kept := reads_keep read
        obtain ⟨⟨sameType, -, sameTcp⟩, -, -⟩ :=
          packetise_keeps { after with info := { after.info with valid := disable } }
        refine ⟨sameTcp.trans kept.tcpOn, sameType.trans (kept.devType.trans device), ?_⟩
        rw [sensorCodeCount_packetise, kept.devType.trans device, kept.sensorCodeCount]
        rfl
  obtain ⟨taken, last, run, -, -, counted⟩ := exists_run_counting connected sameType (le_refl 2)
    turn (count - 2) (by omega)
  rw [Nat.add_sub_cancel' low] at counted
  exact ⟨_, last, opens.append run, counted⟩

/-! ## The device string -/

theorem devType_initPlcCommInfo (info : PlcCommInfo) {device : List UInt8}
    (two : 2 ≤ device.length) (after : List UInt8) :
    (initPlcCommInfo info (device ++ after)).devType ≠ .invalid ↔
      ts <+: device ∨ tk <+: device := by
  have letters : [byteAt (device ++ after) 0, byteAt (device ++ after) 1] = device.take 2 := by
    cases device with
    | nil => simp at two
    | cons a device =>
        cases device with
        | nil => simp at two
        | cons b device => rfl
  have begins (letter : List UInt8) (length : letter.length = 2) :
      letter <+: device ↔ device.take 2 = letter := by
    rw [List.prefix_iff_eq_take, length, eq_comm]
  rw [(initPlcCommInfo_eq info (device ++ after)).2, letters, begins ts rfl, begins tk rfl]
  split_ifs with isTs isTk
  · exact iff_of_true (by decide) (.inl isTs)
  · exact iff_of_true (by decide) (.inr isTk)
  · exact iff_of_false (by decide) (not_or.mpr ⟨isTs, isTk⟩)

/-- **The count is that of a sensor in every run exactly when the device string begins with `TS` or
`TK`**, and then a frame or `SMSG_INC_DATA` always makes the thread proceed. -/
theorem count_is_in_turn_iff (info : PlcCommInfo) {device : List UInt8} (six : device.length = 6)
    (after : List UInt8) :
    AlwaysInTurn (plcBegins (initPlcCommInfo info (device ++ after))) ↔
      ts <+: device ∨ tk <+: device := by
  rw [← devType_initPlcCommInfo info (by omega) after]
  constructor
  · intro always invalid
    obtain ⟨taken, last, run, zero⟩ := runs_out_of_turn invalid (by decide : 2 ≤ 65536) le_rfl
    have low := (always taken last run).1.low
    rw [zero] at low
    exact absurd low (by decide)
  · exact alwaysInTurn_of_device

theorem count_is_in_turn_iff_tk0001 :
    AlwaysInTurn (plcBegins (initPlcCommInfo startedTs.info (text "TK0001" ++ [0]))) ↔
      ts <+: text "TK0001" ∨ tk <+: text "TK0001" :=
  count_is_in_turn_iff startedTs.info (by decide) [0]

/-- The thread with a device that is neither. -/
def beginsXx0001 : PlcThread :=
  plcBegins (initPlcCommInfo startedTs.info (text "XX0001" ++ [0]))

/-- **The count of `XX0001` passes the last sensor**, and comes to 0, where nothing is taken. -/
theorem count_is_out_of_turn :
    (∃ taken last, plcThread.Run beginsXx0001 taken last ∧ last.sensorCodeCount = 20) ∧
      (∃ taken last, plcThread.Run beginsXx0001 taken last ∧
        last.sensorCodeCount = 0 ∧ ¬ TakesFrame last ∧ ¬ TakesInc last) ∧
      ¬ AlwaysInTurn beginsXx0001 := by
  have invalid : (initPlcCommInfo startedTs.info (text "XX0001" ++ [0])).devType = .invalid := by
    rw [(initPlcCommInfo_eq _ _).2]
    decide
  obtain ⟨taken, last, run, twenty⟩ := runs_out_of_turn invalid (by decide : 2 ≤ 20) (by decide)
  obtain ⟨onward, stuck, further, zero⟩ := runs_out_of_turn invalid (by decide : 2 ≤ 65536) le_rfl
  refine ⟨⟨taken, last, run, twenty⟩, ⟨onward, stuck, further, zero, not_takes_of_zero zero⟩,
    fun always => ?_⟩
  have low := (always onward stuck further).1.low
  rw [zero] at low
  exact absurd low (by decide)

end WhaleShark.Plc
