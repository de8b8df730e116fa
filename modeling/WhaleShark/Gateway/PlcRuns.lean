import WhaleShark.Gateway.PlcThread

/-!
# What the PLC thread packetises

Over a run the thread should packetise frames only: 79 bytes that arrived one behind the other,
with the right sum (`OnlyReceivedFrames`). It does not. The search goes on behind a frame that it
has accepted, so an `STX` later in the same turn makes it drop that frame while the flag stays
set; then the packet is made of the bytes from the later `STX` on and of stale bytes behind them
(`stale_bytes_are_packetised`).

When every turn that finds a frame ends its search on one (`EndsOnFrame`), the thread packetises
received frames only (`packetised_frames_are_received`). The invariant `Tracks` says of the turn
of the first sensor that the buffer holds what a search of the received bytes has kept, and of
the other turns that a received frame is at its beginning.
-/

set_option autoImplicit false

namespace WhaleShark.Plc

open Foundations

/-- A run of the thread, step by step. -/
abbrev PlcHistory := List (Transition PlcThread PlcEvent (Option Packetised))

/-- The packetisings of a run, in order. -/
def packetisings (taken : PlcHistory) : List Packetised := taken.flatMap fun τ => τ.output.toList

theorem packetisings_concat (past : PlcHistory)
    (τ : Transition PlcThread PlcEvent (Option Packetised)) :
    packetisings (past ++ [τ]) = packetisings past ++ τ.output.toList := by
  simp [packetisings]

/-- Whenever a packet is made, it is made of a frame of the bytes received so far. -/
def OnlyReceivedFrames (taken : PlcHistory) : Prop :=
  ∀ past τ rest, taken = past ++ τ :: rest → ∀ made, τ.output = some made →
    IsFrame (made.pData.take plcDataLen) ∧
      made.pData.take plcDataLen <:+: received (past ++ [τ])

/-- What the turn searches: what was held, and what it reads. -/
def searched (τ : Transition PlcThread PlcEvent (Option Packetised)) : List UInt8 :=
  (makeRoom τ.source).held ++ τ.event.bytes

/-- A turn that reads bytes and finds a frame ends its search on one: the last frame begun is
complete and has the right sum. -/
def EndsOnFrame (τ : Transition PlcThread PlcEvent (Option Packetised)) : Prop :=
  τ.event.bytes ≠ [] → frameFound (searched τ) = true →
    validPiece (keepFrame (searched τ)) = true

instance (τ : Transition PlcThread PlcEvent (Option Packetised)) : Decidable (EndsOnFrame τ) :=
  inferInstanceAs (Decidable (_ → _ → _))

/-- What holds between two turns. -/
structure Tracks (stream : List UInt8) (t : PlcThread) : Prop where
  fits : t.uRemain ≤ plcBuffSize
  valid : t.info.valid = disable
  between : t.sensorCodeCount = 1 →
    Searching t ∧ frameFound t.held = false ∧ (frameStarts t.held ≠ [] → t.held <:+ stream)
  cycle : t.sensorCodeCount ≠ 1 → t.findStart = disable ∧
    IsFrame (t.info.rxBuf.read 0 plcDataLen) ∧ t.info.rxBuf.read 0 plcDataLen <:+: stream

/-! ## A turn that searches -/

theorem tracks_initial {t : PlcThread} (initial : Initial t) : Tracks [] t := by
  have holds : t.held = [] := by rw [PlcThread.held, initial.empty, Block.read_zero_length]
  refine ⟨by rw [initial.empty]; exact Nat.zero_le _, initial.valid,
    fun _ => ⟨⟨?_, ?_, ?_⟩, ?_, ?_⟩, fun other => absurd initial.first other⟩
  · rw [initial.empty]
    exact Nat.zero_le _
  · rw [holds]
    rfl
  · rw [holds, initial.findStart]
    rfl
  · rw [holds]
    rfl
  · rw [holds]
    exact fun _ => List.nil_suffix

/-- Emptying a full buffer keeps what holds at the turn of the first sensor. -/
theorem makeRoom_tracks {stream : List UInt8} {t : PlcThread} (tracks : Tracks stream t)
    (turn : t.sensorCodeCount = 1) :
    Searching (makeRoom t) ∧ frameFound (makeRoom t).held = false ∧
      (frameStarts (makeRoom t).held ≠ [] → (makeRoom t).held <:+ stream) ∧
      (makeRoom t).info.valid = disable := by
  obtain ⟨searching, quiet, suffix⟩ := tracks.between turn
  unfold makeRoom
  split
  · rename_i full
    have holds : PlcThread.held { t with uRemain := 0 } = [] := Block.read_zero_length _ _
    have size : t.held.length = plcBuffSize := by
      rw [length_held searching.fits]
      exact Nat.le_antisymm searching.fits full
    refine ⟨⟨Nat.zero_le _, ?_, ?_⟩, ?_, ?_, tracks.valid⟩
    · rw [holds]
      rfl
    · rw [holds]
      show t.findStart = _
      rw [searching.flag, size]
      simp [frameStarts, pieceStarts, pieceStartsWithin, plcBuffSize, plcDataLen]
    · rw [holds]
      rfl
    · rw [holds]
      exact fun _ => List.nil_suffix
  · exact ⟨searching, quiet, suffix, tracks.valid⟩

/-- What a search keeps ends with the bytes it was given last, once a frame has begun. -/
theorem keepFrame_suffix {held chunk stream : List UInt8}
    (suffix : frameStarts held ≠ [] → held <:+ stream)
    (begun : frameStarts (held ++ chunk) ≠ []) : keepFrame (held ++ chunk) <:+ stream ++ chunk := by
  obtain ⟨-, -, -, whole, -, -⟩ := pieceStarts_resume (by decide) (held ++ chunk) begun
  by_cases earlier : frameStarts held = []
  · -- the frame begins among the new bytes
    have junk : ∀ a ∈ held, isStx a = false := by
      rcases no_mark_or_split isStx held with none_ | ⟨front, a, rest, rfl, none_, mark⟩
      · exact none_
      · rw [frameStarts, pieceStarts_append_of_no_mark (by decide) none_,
          pieceStarts_of_mark (by decide) mark] at earlier
        cases earlier
    have same : frameStarts (held ++ chunk) = frameStarts chunk :=
      pieceStarts_append_of_no_mark (by decide) junk chunk
    rw [same] at begun
    obtain ⟨-, -, -, inChunk, -, -⟩ := pieceStarts_resume (by decide) chunk begun
    obtain ⟨last, found⟩ := Option.isSome_iff_exists.mp (List.getLast?_isSome.mpr begun)
    have kept : keepFrame (held ++ chunk) = keepFrame chunk := by
      rw [keepFrame_eq, keepFrame_eq, same, found, Option.getD_some, Option.getD_some]
    rw [kept]
    exact inChunk.trans (List.suffix_append stream chunk)
  · exact whole.trans (by
      obtain ⟨front, rfl⟩ := suffix earlier
      exact ⟨front, by simp⟩)

/-- What the reads of a turn leave. -/
theorem readAll_tracks {stream : List UInt8} {t t' : PlcThread} {reads : List (List UInt8)}
    (tracks : Tracks stream t) (turn : t.sensorCodeCount = 1)
    (read : readAll (makeRoom t) reads = some t') :
    Searching t' ∧ t'.held = keepFrame ((makeRoom t).held ++ reads.flatten) ∧
      t'.info.valid = frameFound ((makeRoom t).held ++ reads.flatten) ∧
      (frameStarts t'.held ≠ [] → t'.held <:+ stream ++ reads.flatten) := by
  obtain ⟨searching, quiet, suffix, valid⟩ := makeRoom_tracks tracks turn
  obtain ⟨after, holds, found⟩ := readAll_eq searching read
  have whole := frameScanner_resumes.feed_quiet Bool.false_or searching.kept quiet reads
  rw [whole] at holds found
  rw [valid, Bool.false_or] at found
  have kept : t'.held = keepFrame ((makeRoom t).held ++ reads.flatten) := holds
  refine ⟨after, kept, found, fun begun => ?_⟩
  rw [kept, frameStarts_keepFrame] at begun
  rw [kept]
  exact keepFrame_suffix suffix begun

/-! ## A turn that packetises -/

/-- Zeros hold no frame. -/
theorem frameStarts_zeros (n : ℕ) : frameStarts (List.replicate n 0) = [] := by
  refine pieceStarts_of_no_mark (by decide) fun a member => ?_
  rw [List.eq_of_mem_replicate member]
  decide

/-- After a packet, a received frame is still at hand, or the buffer has been cleared. -/
theorem packetise_tracks {stream : List UInt8} {t : PlcThread} (fits : t.uRemain ≤ plcBuffSize)
    (valid : t.info.valid = disable) (between : t.findStart = disable)
    (frame : IsFrame (t.info.rxBuf.read 0 plcDataLen))
    (arrived : t.info.rxBuf.read 0 plcDataLen <:+: stream) : Tracks stream (packetise t).1 := by
  obtain ⟨⟨-, -, -⟩, sameValid, rxBuf⟩ := packetise_keeps t
  refine ⟨fits, sameValid.trans valid, fun first => ?_, fun other => ?_⟩
  · rw [if_pos first] at rxBuf
    have holds : (packetise t).1.held = List.replicate t.uRemain 0 := by
      show (packetise t).1.info.rxBuf.read 0 t.uRemain = _
      rw [rxBuf, Block.read_fill, Nat.sub_zero, Nat.min_eq_left fits]
    have quiet := frameStarts_zeros t.uRemain
    refine ⟨⟨fits, ?_, ?_⟩, ?_, ?_⟩
    · rw [holds, keepFrame_of_quiet quiet]
    · rw [holds, quiet]
      exact between
    · rw [holds, frameFound, quiet, List.any_nil]
    · rw [holds]
      exact fun begun => absurd quiet begun
  · rw [if_neg other] at rxBuf
    rw [rxBuf]
    exact ⟨between, frame, arrived⟩

/-- When the search ended on a frame, that frame is at the beginning of the buffer. -/
theorem found_frame {stream : List UInt8} {t' : PlcThread} (searching : Searching t')
    (begun : frameStarts t'.held ≠ []) (accepted : validPiece t'.held = true)
    (suffix : frameStarts t'.held ≠ [] → t'.held <:+ stream) :
    t'.findStart = disable ∧ IsFrame (t'.info.rxBuf.read 0 plcDataLen) ∧
      t'.info.rxBuf.read 0 plcDataLen <:+: stream := by
  obtain ⟨long, -⟩ := (validPiece_iff t'.held).mp accepted
  have front : t'.held.take plcDataLen = t'.info.rxBuf.read 0 plcDataLen := by
    rw [length_held searching.fits] at long
    exact Block.take_read _ _ _ _ (by omega)
  have starts : byteAt t'.held 0 = stx := by
    rw [← searching.kept]
    exact keepFrame_starts begun
  refine ⟨?_, ?_, ?_⟩
  · rw [searching.flag, decide_eq_false_iff_not]
    exact fun both => absurd both.2 (by omega)
  · rw [← front]
    exact isFrame_of_validPiece starts accepted
  · rw [← front]
    exact (List.take_prefix _ _).isInfix.trans (suffix begun).isInfix

/-- A step keeps the invariant, and packetises a received frame. -/
theorem turn_tracks {stream : List UInt8} {t t' : PlcThread} {e : PlcEvent}
    {made : Option Packetised} (tracks : Tracks stream t)
    (ends : EndsOnFrame ⟨t, e, made, t'⟩) (turn : Turn t e t' made) :
    Tracks (stream ++ e.bytes) t' ∧ ∀ m, made = some m →
      IsFrame (m.pData.take plcDataLen) ∧ m.pData.take plcDataLen <:+: stream ++ e.bytes := by
  cases turn with
  | idle =>
      rw [PlcEvent.bytes, List.flatten_nil, List.append_nil]
      exact ⟨tracks, by simp⟩
  | searching _ first read quiet =>
      obtain ⟨searching, holds, found, suffix⟩ := readAll_tracks tracks first read
      rw [quiet] at found
      refine ⟨⟨searching.fits, quiet, fun _ => ⟨searching, ?_, suffix⟩, fun other => ?_⟩, by simp⟩
      · rw [holds]
        exact frameFound_of_keepFrame found.symm
      · exact absurd ((reads_keep read).sensorCodeCount.trans first) other
  | @found inc reads after _ first read valid =>
      obtain ⟨searching, holds, found, suffix⟩ := readAll_tracks tracks first read
      rw [valid] at found
      have some_ : reads.flatten ≠ [] := by
        intro none_
        rw [none_, List.append_nil, (makeRoom_tracks tracks first).2.1] at found
        cases found
      have begun : frameStarts after.held ≠ [] := by
        rw [holds, frameStarts_keepFrame]
        intro quiet
        rw [frameFound, quiet, List.any_nil] at found
        cases found
      have accepted : validPiece after.held = true := by
        rw [holds]
        exact ends some_ found.symm
      obtain ⟨between, frame, arrived⟩ := found_frame searching begun accepted suffix
      refine ⟨packetise_tracks searching.fits rfl between frame arrived, fun m same => ?_⟩
      cases same
      exact ⟨frame, arrived⟩
  | next _ more =>
      rw [PlcEvent.bytes, List.flatten_nil, List.append_nil]
      have other : t.sensorCodeCount ≠ 1 := (UInt16.ne_of_lt more).symm
      obtain ⟨between, frame, arrived⟩ := tracks.cycle other
      refine ⟨packetise_tracks tracks.fits tracks.valid between frame arrived, fun m same => ?_⟩
      cases same
      exact ⟨frame, arrived⟩
  | setTcpStatus =>
      rw [PlcEvent.bytes, List.append_nil]
      refine ⟨⟨tracks.fits, tracks.valid, fun first => ?_, tracks.cycle⟩, by simp⟩
      obtain ⟨⟨fits, kept, flag⟩, quiet, suffix⟩ := tracks.between first
      exact ⟨⟨fits, kept, flag⟩, quiet, suffix⟩

theorem received_concat (past : PlcHistory)
    (τ : Transition PlcThread PlcEvent (Option Packetised)) :
    received (past ++ [τ]) = received past ++ τ.event.bytes := by
  simp [received]

/-- **The thread packetises received frames only**, in every run whose searches end on a frame
whenever they find one: whatever the bytes, the chunks, the `SMSG_INC_DATA` events and the calls
of `SetTcpStatus`. -/
theorem packetised_frames_are_received {first last : PlcThread} {taken : PlcHistory}
    (initial : Initial first) (run : plcThread.Run first taken last)
    (condition : ∀ τ ∈ taken, EndsOnFrame τ) : OnlyReceivedFrames taken := by
  obtain ⟨-, along⟩ := run.history (fun past t => Tracks (received past) t)
    (tracks_initial initial)
    (fun past τ takes ends tracks => by
      rw [received_concat]
      exact (turn_tracks tracks ends (plcThread_cases takes)).1)
    condition
  intro past τ rest split made same
  have member : τ ∈ taken := by simp [split]
  rw [received_concat]
  exact (turn_tracks (along past τ rest split) (condition τ member)
    (plcThread_cases (run.takes τ member))).2 made same

/-- The thread with a cleared buffer, serving a connection for a TS. -/
def startedTs : PlcThread where
  info :=
    { tcpOn := enable
      devInfo := (Block.fill 4 0).write 0 [0x54, 0x53, 0x00, 0x01]
      devType := .ts
      valid := disable
      txBuf := .fill plcBuffSize 0
      rxBuf := .fill plcBuffSize 0 }
  findStart := disable
  sensorCodeCount := 1
  uRemain := 0

/-- A frame of zeros. -/
def frameOfZeros : List UInt8 := stx :: List.replicate 77 0 ++ [stx]

/-- The packets of the first two sensors of a frame that arrives in two chunks. -/
theorem packetised_frames_are_received_zeros :
    ∃ taken last, plcThread.Run startedTs taken last ∧
      (packetisings taken).length = 2 ∧ OnlyReceivedFrames taken := by
  obtain ⟨taken, last, run, checked⟩ := Machine.exists_run_of_passes plcThread startedTs
    [.received true false [frameOfZeros.take 30, frameOfZeros.drop 30 ++ [0]],
      .received false true []]
    (fun taken _ => decide ((∀ τ ∈ taken, EndsOnFrame τ) ∧ (packetisings taken).length = 2))
    (by decide +kernel)
  obtain ⟨ends, two⟩ := of_decide_eq_true checked
  exact ⟨taken, last, run, two,
    packetised_frames_are_received ⟨rfl, rfl, rfl, rfl, rfl⟩ run ends⟩

/-- A frame, and three bytes behind it with an `STX` among them. -/
def frameAndStx : List UInt8 := frameOfZeros ++ [0, stx, 7]

set_option maxRecDepth 4000 in
/-- **Stale bytes are packetised.** In one read of a frame and three bytes, the last `STX` makes
the search drop the frame, and the packet is made of the last two bytes and what is behind
them. -/
theorem stale_bytes_are_packetised :
    ∃ taken last, Initial startedTs ∧ plcThread.Run startedTs taken last ∧
      ¬ OnlyReceivedFrames taken := by
  obtain ⟨taken, last, run, stale⟩ := Machine.exists_run_of_passes plcThread startedTs
    [.received true false [frameAndStx]]
    (fun taken _ => taken.any fun τ => τ.output.any fun made =>
      !decide (IsFrame (made.pData.take plcDataLen))) (by decide +kernel)
  refine ⟨taken, last, ⟨rfl, rfl, rfl, rfl, rfl⟩, run, fun only => ?_⟩
  obtain ⟨τ, member, stale⟩ := List.any_eq_true.mp stale
  obtain ⟨past, rest, split⟩ := List.mem_iff_append.mp member
  cases output : τ.output with
  | none => simp [output] at stale
  | some made =>
      have frame := (only past τ rest split made output).1
      simp [output, frame] at stale

end WhaleShark.Plc
