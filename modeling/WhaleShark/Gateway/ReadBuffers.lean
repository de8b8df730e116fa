import WhaleShark.Foundations.ReadLoops
import WhaleShark.Gateway.ConsoleRuns
import WhaleShark.Gateway.PlcRuns
import WhaleShark.Gateway.WifiThread

/-!
# The books of the receive buffers

Three threads read into a buffer, behind what their parser has not consumed. None of the parsers
consumes more than it was given: `ParserReceiveData` returns the beginning of a frame
(`Plc.parserReceiveData_bounds`), `ParserWifiData` the last line end it has looked at, at most one
position behind the bytes (`Network.consumed_parserWifiData`), and `ParserCliCommand` what is behind
the last `CR` (`consumed_parserCliCommand`). So neither of the two differences that a thread takes
with `uRemain` becomes negative (`read_buffers_keep_books`).
-/

set_option autoImplicit false

namespace WhaleShark

open Foundations

/-! ## The PLC -/

namespace Plc

/-- The passes of the reads of a turn. The last read returns nothing. -/
def readPasses : PlcThread → List (List UInt8) → List Pass
  | t, [] => [⟨t.uRemain, 0, 0⟩]
  | t, chunk :: chunks =>
      let rxBuf := t.info.rxBuf.write t.uRemain chunk
      let uRemain := t.uRemain + chunk.length
      let scan := parserReceiveData (rxBuf.read 0 uRemain) t.findStart t.info.valid
      ⟨t.uRemain, chunk.length, scan.begin_⟩ :: readPasses (readChunk t chunk) chunks

/-- The passes of a turn. -/
def passes (t : PlcThread) : PlcEvent → List Pass
  | .received rx _ reads =>
      if t.info.tcpOn = enable ∧ rx = true ∧ t.sensorCodeCount = 1 then
        readPasses (makeRoom t) reads
      else []
  | .setTcpStatus _ => []

theorem uRemain_readChunk {t : PlcThread} (chunk : List UInt8)
    (fits : t.uRemain + chunk.length ≤ plcBuffSize) :
    (readChunk t chunk).uRemain ≤ plcBuffSize ∧
      ((readChunk t chunk).findStart = enable → (readChunk t chunk).uRemain ≤ plcDataLen) ∧
      (Pass.mk t.uRemain chunk.length
        (parserReceiveData ((t.info.rxBuf.write t.uRemain chunk).read 0
          (t.uRemain + chunk.length)) t.findStart t.info.valid).begin_).InRange plcBuffSize := by
  have bounds := parserReceiveData_bounds ((t.info.rxBuf.write t.uRemain chunk).read 0
    (t.uRemain + chunk.length)) t.findStart t.info.valid
  rw [Block.length_read, Nat.sub_zero, Nat.min_eq_left fits] at bounds
  have inRange : (Pass.mk t.uRemain chunk.length _).InRange plcBuffSize :=
    (Pass.inRange_iff _ _).mpr ⟨fits, bounds.1⟩
  exact ⟨inRange.left_le, bounds.2, inRange⟩

/-- The reads of a turn keep the books. -/
theorem readPasses_inRange {reads : List (List UInt8)} {t t' : PlcThread}
    (fits : t.uRemain ≤ plcBuffSize) (read : readAll t reads = some t') :
    t'.uRemain ≤ plcBuffSize ∧ ∀ pass ∈ readPasses t reads, pass.InRange plcBuffSize := by
  induction reads generalizing t with
  | nil =>
      cases read
      refine ⟨fits, fun pass member => ?_⟩
      rw [List.mem_singleton.mp member]
      exact (Pass.inRange_iff _ _).mpr ⟨fits, Nat.zero_le _⟩
  | cons chunk chunks ih =>
      rw [readAll] at read
      split at read
      · rename_i admitted
        obtain ⟨next, -, here⟩ := uRemain_readChunk (t := t) chunk (by omega)
        obtain ⟨last, later⟩ := ih next read
        exact ⟨last, List.forall_mem_cons.mpr ⟨here, later⟩⟩
      · cases read

theorem uRemain_makeRoom (t : PlcThread) : (makeRoom t).uRemain < plcBuffSize := by
  unfold makeRoom
  split
  · exact (by decide : 0 < plcBuffSize)
  · rename_i room
    exact Nat.lt_of_not_le room

theorem passes_inRange {t t' : PlcThread} {e : PlcEvent} {made : Option Packetised}
    (turn : Turn t e t' made) (fits : t.uRemain ≤ plcBuffSize) :
    t'.uRemain ≤ plcBuffSize ∧ ∀ pass ∈ passes t e, pass.InRange plcBuffSize := by
  cases turn with
  | idle noFrame _ =>
      rw [passes, if_neg noFrame]
      exact ⟨fits, by simp⟩
  | searching connected first read _ =>
      rw [passes, if_pos ⟨connected, rfl, first⟩]
      exact readPasses_inRange (uRemain_makeRoom t).le read
  | found connected first read _ =>
      rw [passes, if_pos ⟨connected, rfl, first⟩]
      obtain ⟨left, all⟩ := readPasses_inRange (uRemain_makeRoom t).le read
      exact ⟨left, all⟩
  | next _ more =>
      have other : t.sensorCodeCount ≠ 1 := (UInt16.ne_of_lt more).symm
      rw [passes, if_neg fun all => other all.2.2]
      exact ⟨fits, by simp⟩
  | setTcpStatus => exact ⟨fits, by simp [passes]⟩

end Plc

/-! ## The Wi-Fi module -/

namespace Network

theorem consumed_parseStep (env : Surroundings) (s : Scan) (end_ : ℕ) :
    (parseStep env s end_).consumed = s.consumed ∨ (parseStep env s end_).consumed = end_ := by
  cases begun : s.begin_ with
  | none =>
      rw [parseStep_of_none env begun]
      split_ifs
      · exact .inl rfl
      · exact .inl rfl
      · exact .inl rfl
  | some begin_ =>
      rw [parseStep_of_some env begun]
      split_ifs
      · exact .inl rfl
      · exact .inr rfl
      · exact .inl rfl

/-- `ParserWifiData` consumes no more than it was given, though it looks one position further. -/
theorem consumed_parserWifiData (env : Surroundings) (w : WifiInfo) (rxSize : ℕ) :
    (parserWifiData env w rxSize).consumed ≤ rxSize := by
  have walk : ∀ (positions : List ℕ) (s : Scan), s.consumed ≤ rxSize →
      (∀ position ∈ positions, position ≤ rxSize) →
      (positions.foldl (parseStep env) s).consumed ≤ rxSize := by
    intro positions
    induction positions with
    | nil => exact fun s before _ => before
    | cons position positions ih =>
        intro s before all
        obtain ⟨here, later⟩ := List.forall_mem_cons.mp all
        refine ih _ ?_ later
        rcases consumed_parseStep env s position with same | moved
        · rwa [same]
        · rwa [moved]
  unfold parserWifiData
  split
  · exact Nat.zero_le _
  · refine walk _ _ (Nat.zero_le _) fun position member => ?_
    exact Nat.le_of_lt_succ (List.mem_range.mp member)

/-- The pass of a read. The last read of a turn returns nothing. -/
def passes (env : Surroundings) (t : WifiThread) : WifiEvent → List Pass
  | .read bytes =>
      [⟨t.uRemain, bytes.length,
        if bytes = [] then 0
        else (parserWifiData env (t.filled bytes) (t.uRemain + bytes.length)).consumed⟩]
  | _ => []

theorem passes_inRange {env : Surroundings} {t t' : WifiThread} {e : WifiEvent} {o : WifiOutput}
    (step : WifiStep env t e t' o) (fits : t.uRemain ≤ wifiRxBuff) :
    t'.uRemain ≤ wifiRxBuff ∧ ∀ pass ∈ passes env t e, pass.InRange wifiRxBuff := by
  cases step with
  | receive _ _ =>
      refine ⟨?_, by simp [passes]⟩
      dsimp only
      split
      · exact Nat.zero_le _
      · exact fits
  | @read bytes _ some_ room =>
      have whole : t.uRemain + bytes.length ≤ wifiRxBuff := by omega
      have consumed := consumed_parserWifiData env (t.filled bytes) (t.uRemain + bytes.length)
      have inRange : (Pass.mk t.uRemain bytes.length _).InRange wifiRxBuff :=
        (Pass.inRange_iff _ _).mpr ⟨whole, consumed⟩
      refine ⟨inRange.left_le, fun pass member => ?_⟩
      rw [List.mem_singleton.mp member, if_neg some_]
      exact inRange
  | respond _ =>
      refine ⟨fits, fun pass member => ?_⟩
      rw [List.mem_singleton.mp member]
      exact (Pass.inRange_iff _ _).mpr ⟨fits, Nat.zero_le _⟩
  | indicate => exact ⟨by rwa [uRemain_rtEventSend], by simp [passes]⟩
  | post _ => exact ⟨by rwa [uRemain_rtEventSend], by simp [passes]⟩
  | recv _ => exact ⟨by rwa [uRemain_rtEventRecv], by simp [passes]⟩
  | _ => exact ⟨fits, by simp [passes]⟩

end Network

/-! ## The console -/

section

variable {σ : Type} (handle : CliHandlers σ)

/-- A line leaves the parser at the position behind its `CR` at most. -/
theorem parserCliLine_le (p : List UInt8) (end_ fuel begin_ : ℕ) (console : Console σ)
    (before : begin_ ≤ end_) :
    (parserCliLine handle p end_ fuel begin_ console).1 ≤ end_ + 1 := by
  induction fuel generalizing begin_ console with
  | zero => exact Nat.le_succ_of_le before
  | succ fuel ih =>
      have onwards (b : ℕ) (console : Console σ) (inside : b ≤ end_) :
          (if console.rebooted then (b, console)
            else if b + 1 < end_ then parserCliLine handle p end_ fuel (b + 1) console
            else (b + 1, console)).1 ≤ end_ + 1 := by
        split
        · exact Nat.le_succ_of_le inside
        · split
          · rename_i more
            exact ih (b + 1) console more.le
          · exact Nat.succ_le_succ inside
      rw [parserCliLine]
      split
      rename_i b next searched
      refine onwards b next ?_
      split at searched
      · cases searched
        exact le_rfl
      · split at searched
        · dsimp only at searched
          split at searched <;> cases searched <;> exact le_rfl
        · cases searched
          exact before

/-- `ParserCliCommand` consumes no more than it was given. -/
theorem consumed_parserCliCommand (p : List UInt8) (console : Console σ) :
    (parserCliCommand handle p console).1 ≤ p.length := by
  have loop : ∀ (left end_ begin_ : ℕ) (console : Console σ), begin_ ≤ end_ →
      (parserCliLoop handle p left end_ begin_ console).1 ≤ end_ + left := by
    intro left
    induction left with
    | zero => exact fun end_ begin_ console before => before
    | succ left ih =>
        intro end_ begin_ console before
        have order : end_ + (left + 1) = end_ + 1 + left := by omega
        rw [parserCliLoop, order]
        split
        rename_i b next looked
        have inside : b ≤ end_ + 1 := by
          split at looked
          · have line := parserCliLine_le handle p end_ (end_ + 1 - begin_) begin_ console before
            rwa [looked] at line
          · cases looked
            exact Nat.le_succ_of_le before
        split
        · exact Nat.le_add_right_of_le inside
        · exact ih (end_ + 1) b next inside
  unfold parserCliCommand
  split
  · have all := loop p.length 0 0 console le_rfl
    rwa [Nat.zero_add] at all
  · exact Nat.zero_le _

/-- Where a read of the console goes. -/
def readAt (s : UsbConsole σ) : ℕ := if rtSerialRbBufsz ≤ s.uRemain then 0 else s.uRemain

/-- The pass of a read of the console. -/
def consolePasses (s : UsbConsole σ) (e : ConsoleRead) : List Pass :=
  let rxBuf := s.rxBuf.write (readAt s) e.bytes
  [⟨readAt s, e.bytes.length,
    if 0 < e.bytes.length then
      (parserCliCommand handle (rxBuf.read 0 (readAt s + e.bytes.length)) s.console).1
    else 0⟩]

theorem consolePasses_inRange {s s' : UsbConsole σ} {e : ConsoleRead} {o : Unit}
    (step : (usbConsole handle).step s e = some (s', o)) :
    s'.uRemain ≤ rtSerialRbBufsz ∧
      ∀ pass ∈ consolePasses handle s e, pass.InRange rtSerialRbBufsz := by
  have front : readAt s ≤ rtSerialRbBufsz := by
    unfold readAt
    split <;> omega
  have place : (if rtSerialRbBufsz ≤ s.uRemain then 0 else s.uRemain) = readAt s := rfl
  simp only [usbConsole, place] at step
  rw [consolePasses, List.forall_mem_singleton, Pass.inRange_iff]
  split at step
  · cases step
  rename_i enabled
  have room := (not_or.mp enabled).2
  have whole : readAt s + e.bytes.length ≤ rtSerialRbBufsz := by omega
  split at step
  · rename_i some_
    have consumed := consumed_parserCliCommand handle
      ((s.rxBuf.write (readAt s) e.bytes).read 0 (readAt s + e.bytes.length)) s.console
    rw [Block.length_read, Nat.sub_zero, Nat.min_eq_left whole] at consumed
    refine ⟨?_, whole, by rwa [if_pos some_]⟩
    split at step
    · cases step
      exact whole
    · split at step
      · cases step
        exact (Nat.sub_le _ _).trans whole
      · cases step
        exact whole
  · rename_i none_
    cases step
    exact ⟨front, whole, by rw [if_neg none_]; exact Nat.zero_le _⟩

end

/-! ## The three threads -/

/-- **The three threads keep the books of their buffers**, in every run, whatever they read and in
whatever pieces, from the state with an empty buffer on. -/
theorem read_buffers_keep_books {σ : Type} {plc : Plc.PlcThread} {wifi : Network.WifiThread}
    {usb : UsbConsole σ} (plcEmpty : plc.uRemain = 0) (wifiEmpty : wifi.uRemain = 0)
    (usbEmpty : usb.uRemain = 0) (env : Network.Surroundings) (handle : CliHandlers σ) :
    Plc.plcThread.KeepsBooks 512 Plc.PlcThread.uRemain Plc.passes plc ∧
      (Network.wifiThread env).KeepsBooks 1024 Network.WifiThread.uRemain
        (Network.passes env) wifi ∧
      (usbConsole handle).KeepsBooks 1024 UsbConsole.uRemain (consolePasses handle) usb := by
  refine ⟨?_, ?_, ?_⟩
  · exact Machine.keepsBooks_of_step (plcEmpty ▸ Nat.zero_le _) fun τ takes fits =>
      Plc.passes_inRange (Plc.plcThread_cases takes) fits
  · exact Machine.keepsBooks_of_step (wifiEmpty ▸ Nat.zero_le _) fun τ takes fits =>
      Network.passes_inRange (Network.wifiThread_cases takes) fits
  · exact Machine.keepsBooks_of_step (usbEmpty ▸ Nat.zero_le _) fun τ takes _ =>
      consolePasses_inRange handle takes

theorem read_buffers_keep_books_started :
    Plc.plcThread.KeepsBooks 512 Plc.PlcThread.uRemain Plc.passes Plc.startedTs ∧
      (Network.wifiThread Network.someSurroundings).KeepsBooks 1024 Network.WifiThread.uRemain
        (Network.passes Network.someSurroundings) Network.startWifi ∧
      (usbConsole fun _ _ system => (system, false)).KeepsBooks 1024 UsbConsole.uRemain
        (consolePasses fun _ _ system => (system, false))
        (⟨.fill rtSerialRbBufsz 0, 0, ⟨(), [], false⟩⟩ : UsbConsole Unit) :=
  read_buffers_keep_books rfl rfl rfl Network.someSurroundings fun _ _ system => (system, false)

end WhaleShark
