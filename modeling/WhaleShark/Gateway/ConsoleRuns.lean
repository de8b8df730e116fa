import WhaleShark.Foundations.Blocks
import WhaleShark.Foundations.Runs
import WhaleShark.Gateway.ConsoleParser

/-!
# Reading the console

`usbconsole_rx_thread` reads what has come into a buffer, behind what is left there of a line that
has not ended, and has the commands of the whole lines handled. A buffer that is full without the
end of a line is emptied.

Where no line is longer than the buffer, the commands are those of the lines of all that has come,
one after the other, however it was cut into reads (`console_reads_lines`).
-/

set_option autoImplicit false

namespace WhaleShark

open Foundations

/-- `RT_SERIAL_RB_BUFSZ` -/
def rtSerialRbBufsz : ℕ := 1024

/-- `rxBuf`, `uRemain`, and what the commands have led to. -/
structure UsbConsole (σ : Type) where
  rxBuf : Block UInt8 rtSerialRbBufsz
  uRemain : ℕ
  console : Console σ

/-- What one `rt_device_read` returns. -/
structure ConsoleRead where
  bytes : List UInt8

section

variable {σ : Type} (handle : CliHandlers σ)

/-- The inner loop of `usbconsole_rx_thread`, once around. Behind `DeviceReboot` there is nothing. -/
def usbConsole : Machine (UsbConsole σ) ConsoleRead Unit where
  step s e :=
    let uRemain := if rtSerialRbBufsz ≤ s.uRemain then 0 else s.uRemain
    if s.console.rebooted ∨ rtSerialRbBufsz - uRemain < e.bytes.length then none
    else if 0 < e.bytes.length then
      let rxBuf := s.rxBuf.write uRemain e.bytes
      let uRemain := uRemain + e.bytes.length
      let (consumed, console) := parserCliCommand handle (rxBuf.read 0 uRemain) s.console
      if console.rebooted then some (⟨rxBuf, uRemain, console⟩, ())
      else if 0 < consumed then
        let uRemain := uRemain - consumed
        some (⟨if 0 < uRemain then rxBuf.moveDown consumed uRemain else rxBuf, uRemain, console⟩, ())
      else some (⟨rxBuf, uRemain, console⟩, ())
    else some ({ s with uRemain }, ())

abbrev ConsoleTransition (σ : Type) := Transition (UsbConsole σ) ConsoleRead Unit

/-- The bytes that have come. -/
def bytesRead (taken : List (ConsoleTransition σ)) : List UInt8 :=
  taken.flatMap fun τ => τ.event.bytes

/-! ## One read -/

/-- What stands in the buffer in front of what is read. -/
def UsbConsole.held (s : UsbConsole σ) : List UInt8 :=
  s.rxBuf.read 0 (if rtSerialRbBufsz ≤ s.uRemain then 0 else s.uRemain)

/-- Behind a read, `left` stands in the buffer. -/
def UsbConsole.Holds (s : UsbConsole σ) (left : List UInt8) : Prop :=
  s.uRemain ≤ rtSerialRbBufsz ∧ s.rxBuf.read 0 s.uRemain = left

theorem UsbConsole.Holds.length {s : UsbConsole σ} {left : List UInt8} (holds : s.Holds left) :
    left.length = s.uRemain := by
  rw [← holds.2, Block.length_read, Nat.sub_zero, Nat.min_eq_left holds.1]

/-- What is held is read again, unless the buffer is full. -/
theorem UsbConsole.Holds.held {s : UsbConsole σ} {left : List UInt8} (holds : s.Holds left) :
    s.held = if rtSerialRbBufsz ≤ left.length then [] else left := by
  rw [UsbConsole.held, holds.length]
  split
  · rw [Block.read_zero_length]
  · exact holds.2

/-- Nothing is read behind a restart. -/
theorem alive_of_step {s : UsbConsole σ} {e : ConsoleRead} {next : UsbConsole σ × Unit}
    (step : (usbConsole handle).step s e = some next) : s.console.rebooted = false := by
  rw [Bool.eq_false_iff]
  intro rebooted
  simp [usbConsole, rebooted] at step

/-- What has not been consumed stands at the front afterwards. -/
theorem read_unconsumed (rxBuf : Block UInt8 rtSerialRbBufsz) {consumed uRemain : ℕ}
    (within : consumed ≤ uRemain) (fits : uRemain ≤ rtSerialRbBufsz) :
    (if 0 < uRemain - consumed then rxBuf.moveDown consumed (uRemain - consumed) else rxBuf).read 0
        (uRemain - consumed) = (rxBuf.read 0 uRemain).drop consumed := by
  rw [Block.drop_read, Nat.zero_add]
  split
  · rw [Block.read_moveDown _ _ _ (by omega)]
  · rename_i nothing
    rw [Nat.eq_zero_of_not_pos nothing, Block.read_zero_length, Block.read_zero_length]

/-- **A read has the lines handled that have ended**, and keeps the rest. -/
theorem usbConsole_read {s s' : UsbConsole σ} {e : ConsoleRead} {o : Unit}
    (step : (usbConsole handle).step s e = some (s', o)) (unfinished : cr ∉ s.held)
    {lines : List (List UInt8)} {left : List UInt8}
    (all : InLines cr (s.held ++ e.bytes) lines left) :
    s'.console = s.console.readLines handle lines ∧
      (s'.console.rebooted = false → s'.Holds left) := by
  have alive := alive_of_step handle step
  simp only [usbConsole, UsbConsole.held] at step unfinished all
  have front : (if rtSerialRbBufsz ≤ s.uRemain then 0 else s.uRemain) ≤ rtSerialRbBufsz := by
    split <;> omega
  generalize (if rtSerialRbBufsz ≤ s.uRemain then 0 else s.uRemain) = u at front step unfinished all
  split at step
  · cases step
  rename_i enabled
  have room := (not_or.mp enabled).2
  split at step
  · -- something has come: it is written behind what is held, and all of it is parsed
    rename_i some_
    have memory := s.rxBuf.read_write_append u e.bytes (by omega)
    obtain ⟨consumed, parsed, ends⟩ := parserCliCommand_eq handle all alive
    rw [memory, parsed] at step
    dsimp only at step
    have whole : (s.rxBuf.read 0 u ++ e.bytes).length = u + e.bytes.length := by
      rw [List.length_append, Block.length_read, Nat.sub_zero, Nat.min_eq_left front]
    cases next : (s.console.readLines handle lines).rebooted with
    | true =>
        rw [if_pos next] at step
        obtain ⟨rfl, -⟩ := Prod.mk.inj (Option.some.inj step)
        exact ⟨rfl, fun still => absurd (next.symm.trans still) (by decide)⟩
    | false =>
        have rest := all.rest_eq_drop (ends next)
        have within : consumed ≤ u + e.bytes.length := by
          rw [← whole, ← ends next]
          exact Nat.le_add_right consumed left.length
        rw [← memory] at rest
        rw [if_neg (by simp [next])] at step
        split at step
        · obtain ⟨rfl, -⟩ := Prod.mk.inj (Option.some.inj step)
          refine ⟨rfl, fun _ => ⟨by dsimp only; omega, ?_⟩⟩
          rw [rest, ← read_unconsumed _ within (by omega)]
        · -- no line has ended
          rename_i nothing
          obtain ⟨rfl, -⟩ := Prod.mk.inj (Option.some.inj step)
          rw [Nat.eq_zero_of_not_pos nothing, List.drop_zero] at rest
          exact ⟨rfl, fun _ => ⟨by dsimp only; omega, rest.symm⟩⟩
  · -- nothing has come
    rename_i nothing
    have empty : e.bytes = [] := List.length_eq_zero_iff.mp (Nat.eq_zero_of_not_pos nothing)
    rw [empty, List.append_nil] at all
    obtain ⟨rfl, rfl⟩ := all.unique (.of_unfinished unfinished)
    obtain ⟨rfl, -⟩ := Prod.mk.inj (Option.some.inj step)
    exact ⟨rfl, fun _ => ⟨front, rfl⟩⟩

/-! ## Runs -/

/-- `rxBuf` may hold anything. -/
def beforeConsole (rxBuf : Block UInt8 rtSerialRbBufsz) (system : σ) : UsbConsole σ :=
  ⟨rxBuf, 0, ⟨system, [], false⟩⟩

/-- No line is longer than the buffer, with its end. -/
def LinesFit (stream : List UInt8) : Prop :=
  ∀ lines rest, InLines cr stream lines rest → ∀ line ∈ lines, line.length + 1 ≤ rtSerialRbBufsz

theorem LinesFit.of_inLines {stream tail : List UInt8} {lines : List (List UInt8)}
    (all : InLines cr stream lines tail)
    (fit : ∀ line ∈ lines, line.length + 1 ≤ rtSerialRbBufsz) : LinesFit stream := by
  intro lines' rest all'
  obtain ⟨rfl, -⟩ := all.unique all'
  exact fit

/-- The lines of a beginning fit. -/
theorem LinesFit.of_append {stream arrived : List UInt8} (fit : LinesFit (stream ++ arrived)) :
    LinesFit stream := by
  obtain ⟨lines, rest, all⟩ := exists_inLines cr (stream ++ arrived)
  obtain ⟨first, more, rest', rfl, before, -⟩ := all.of_append
  exact .of_inLines before fun line member =>
    fit _ _ all line (List.mem_append_left more member)

theorem bytesRead_concat (past : List (ConsoleTransition σ)) (τ : ConsoleTransition σ) :
    bytesRead (past ++ [τ]) = bytesRead past ++ τ.event.bytes := by
  simp [bytesRead]

/-- What has been read so far: the lines of it have been handled, and the buffer holds the line that
has not ended, unless that one is too long. -/
structure ConsoleSoFar (start : Console σ) (past : List (ConsoleTransition σ)) (s : UsbConsole σ)
    (lines : List (List UInt8)) (rest : List UInt8) : Prop where
  all : InLines cr (bytesRead past) lines rest
  console : s.console = start.readLines handle lines
  holds : s.console.rebooted = false → ∃ left, s.Holds left ∧ cr ∉ left ∧
    (rest.length < rtSerialRbBufsz → left = rest)

/-- **A read goes on from what has been read so far.** -/
theorem ConsoleSoFar.extends {start : Console σ} {past : List (ConsoleTransition σ)}
    {τ : ConsoleTransition σ} {lines : List (List UInt8)} {rest : List UInt8}
    (before : ConsoleSoFar handle start past τ.source lines rest)
    (takes : (usbConsole handle).Takes τ) (fit : LinesFit (bytesRead (past ++ [τ]))) :
    ∃ lines' rest', ConsoleSoFar handle start (past ++ [τ]) τ.target lines' rest' := by
  have alive := alive_of_step handle takes
  obtain ⟨left, holds, noCr, same⟩ := before.holds alive
  have unfinished : cr ∉ τ.source.held := by
    rw [holds.held]
    split
    · exact List.not_mem_nil
    · exact noCr
  obtain ⟨more, rest', after⟩ := exists_inLines cr (rest ++ τ.event.bytes)
  have all := before.all.append after
  rw [← bytesRead_concat] at all
  suffices kept : τ.target.console = start.readLines handle (lines ++ more) ∧
      (τ.target.console.rebooted = false → ∃ left, τ.target.Holds left ∧ cr ∉ left ∧
        (rest'.length < rtSerialRbBufsz → left = rest')) from
    ⟨lines ++ more, rest', all, kept.1, kept.2⟩
  rcases Nat.lt_or_ge rest.length rtSerialRbBufsz with roomy | long
  · -- the unfinished line is what the buffer holds
    obtain rfl := same roomy
    have held : τ.source.held = left := by rw [holds.held, if_neg (Nat.not_le_of_lt roomy)]
    obtain ⟨console, kept⟩ := usbConsole_read handle takes unfinished (held.symm ▸ after)
    rw [before.console, ← readLines_append] at console
    exact ⟨console, fun still => ⟨rest', kept still, after.unfinished, fun _ => rfl⟩⟩
  · -- the unfinished line is longer than any that ends
    obtain rfl : more = [] := by
      cases more with
      | nil => rfl
      | cons line more =>
          have begins := (after.prefix_first before.all.unfinished).length_le
          have short := fit _ _ all line (List.mem_append_right lines List.mem_cons_self)
          omega
    have split : rest ++ τ.event.bytes = rest' := after.split
    have noEnd : cr ∉ τ.source.held ++ τ.event.bytes := by
      intro member
      rcases List.mem_append.mp member with old | new
      · exact unfinished old
      · exact after.unfinished (split ▸ List.mem_append_right rest new)
    obtain ⟨console, kept⟩ := usbConsole_read handle takes unfinished (.of_unfinished noEnd)
    rw [List.append_nil]
    refine ⟨console.trans before.console, fun still => ⟨_, kept still, noEnd, fun short => ?_⟩⟩
    rw [← split, List.length_append] at short
    omega

/-- The commands handled are the first ones of the lines, and all of them unless the gateway
restarts. -/
theorem readLines_commands (lines : List (List UInt8)) (console : Console σ) :
    ∃ behind, console.commands ++ lines.filterMap commandOf =
        (console.readLines handle lines).commands ++ behind ∧
      ((console.readLines handle lines).rebooted = false → behind = []) := by
  induction lines generalizing console with
  | nil => exact ⟨[], rfl, fun _ => rfl⟩
  | cons line lines ih =>
      cases alive : console.rebooted with
      | true =>
          rw [readLines_rebooted handle alive]
          exact ⟨_, rfl, fun still => absurd (alive.symm.trans still) (by decide)⟩
      | false =>
          rw [readLines_cons, readLine_of_commandOf handle alive]
          cases read : commandOf line with
          | none =>
              rw [List.filterMap_cons_none read]
              exact ih console
          | some command =>
              rw [List.filterMap_cons_some read, ← List.singleton_append, ← List.append_assoc]
              exact ih (console.dispatch handle command)

/-- **The console reads line by line.** Where no line is longer than the buffer, what the commands
have led to is what the lines lead to one after the other, however they were cut into reads; the
commands are those of the lines, up to the first one that restarts the gateway. -/
theorem console_reads_lines {rxBuf : Block UInt8 rtSerialRbBufsz} {system : σ}
    {taken : List (ConsoleTransition σ)} {last : UsbConsole σ}
    (run : (usbConsole handle).Run (beforeConsole rxBuf system) taken last)
    {lines : List (List UInt8)} {tail : List UInt8}
    (all : InLines cr (bytesRead taken) lines tail)
    (fit : ∀ line ∈ lines, line.length + 1 ≤ rtSerialRbBufsz) :
    last.console = (⟨system, [], false⟩ : Console σ).readLines handle lines ∧
      ∃ behind, lines.filterMap commandOf = last.console.commands ++ behind ∧
        (last.console.rebooted = false → behind = []) := by
  have condition : ∀ past τ rest, taken = past ++ τ :: rest →
      LinesFit (bytesRead (past ++ [τ])) := by
    intro past τ rest split
    have whole : bytesRead taken = bytesRead (past ++ [τ]) ++ bytesRead rest := by
      simp [split, bytesRead]
    rw [whole] at all
    exact (LinesFit.of_inLines all fit).of_append
  have reads : Machine.Throughout (fun past s => ∃ lines' rest,
      ConsoleSoFar handle ⟨system, [], false⟩ past s lines' rest) taken last := by
    refine run.history_of_past _ ?_ ?_ condition
    · have empty : (beforeConsole rxBuf system).Holds [] :=
        ⟨Nat.zero_le _, Block.read_zero_length rxBuf 0⟩
      exact ⟨[], [], .of_unfinished List.not_mem_nil, rfl,
        fun _ => ⟨[], empty, List.not_mem_nil, fun _ => rfl⟩⟩
    · rintro past τ takes fit ⟨lines', rest, before⟩
      exact before.extends handle takes fit
  obtain ⟨lines', rest, soFar⟩ := reads.1
  obtain ⟨rfl, rfl⟩ := all.unique soFar.all
  refine ⟨soFar.console, ?_⟩
  rw [soFar.console]
  simpa using readLines_commands handle lines ⟨system, [], false⟩

end

/-- `OnSetLocalIP` keeps its value. -/
def onlyLocalIp : CliHandlers (List UInt8)
  | .slip, value, _ => (value, true)
  | _, _, localIp => (localIp, false)

/-- The first line comes in two reads, the second has no command, and the third restarts the
gateway. -/
theorem console_reads_lines_cut : ∃ taken last,
    (usbConsole onlyLocalIp).Run (beforeConsole (.fill rtSerialRbBufsz 0) []) taken last ∧
      (taken.map fun τ => τ.event.bytes) = [text "at+sl", text "ip=9" ++ [cr] ++ text "AT+NONE",
        [cr] ++ text "xAT+RBOT" ++ [cr] ++ text "AT+HELP" ++ [cr]] ∧
      last.console.commands = [(.slip, text "9"), (.rbot, [])] ∧
      last.console = (⟨[], [], false⟩ : Console (List UInt8)).readLines onlyLocalIp
        [text "at+slip=9", text "AT+NONE", text "xAT+RBOT", text "AT+HELP"] := by
  obtain ⟨taken, last, run, passed⟩ := (usbConsole onlyLocalIp).exists_run_of_passes
    (beforeConsole (.fill rtSerialRbBufsz 0) [])
    [⟨text "at+sl"⟩, ⟨text "ip=9" ++ [cr] ++ text "AT+NONE"⟩,
      ⟨[cr] ++ text "xAT+RBOT" ++ [cr] ++ text "AT+HELP" ++ [cr]⟩]
    (fun taken last => decide ((taken.map fun τ => τ.event.bytes) =
      [text "at+sl", text "ip=9" ++ [cr] ++ text "AT+NONE",
        [cr] ++ text "xAT+RBOT" ++ [cr] ++ text "AT+HELP" ++ [cr]]) &&
      decide (last.console.commands = [(.slip, text "9"), (.rbot, [])])) (by decide +kernel)
  rw [Bool.and_eq_true, decide_eq_true_eq, decide_eq_true_eq] at passed
  obtain ⟨reads, commands⟩ := passed
  have all : InLines cr (bytesRead taken)
      [text "at+slip=9", text "AT+NONE", text "xAT+RBOT", text "AT+HELP"] [] := by
    have stream : bytesRead taken = (taken.map fun τ => τ.event.bytes).flatten :=
      List.flatMap_def
    refine ⟨?_, by decide +kernel, List.not_mem_nil⟩
    rw [stream, reads]
    decide +kernel
  exact ⟨taken, last, run, reads, commands,
    (console_reads_lines onlyLocalIp run all (by decide +kernel)).1⟩

end WhaleShark
