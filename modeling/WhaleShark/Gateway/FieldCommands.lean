import WhaleShark.Gateway.CliHandlers

/-!
# Commands that set one field

A command of the console should change the field that it names, and nothing beside it, and leave a
string there that ends inside the field (`KeepsToField`). The value goes on to `memcpy` with the
length it has in the line. So a value that is longer than the field lies over what is behind, and one
that fills the field leaves no `NUL` in it (`keeps_to_field_iff`).
-/

set_option autoImplicit false

namespace WhaleShark

open Foundations

/-- The commands that hand their value on to one field. -/
inductive FieldCommand where
  | slip | ssnm | sgwy | sdns | smac | sdev | sdmi
  deriving DecidableEq, Repr

namespace FieldCommand

/-- Its entry in the table of commands. -/
def info : FieldCommand → CliInfo
  | slip => ⟨.slip, text "SLIP"⟩
  | ssnm => ⟨.ssnm, text "SSNM"⟩
  | sgwy => ⟨.sgwy, text "SGWY"⟩
  | sdns => ⟨.sdns, text "SDNS"⟩
  | smac => ⟨.smac, text "SMAC"⟩
  | sdev => ⟨.sdev, text "SDEV"⟩
  | sdmi => ⟨.sdmi, text "SDMI"⟩

/-- The field that it names. -/
def field : FieldCommand → ConfigField
  | slip => .localIp
  | ssnm => .subnetMask
  | sgwy => .gatewayIp
  | sdns => .dnsServer
  | smac => .macAddress
  | sdev => .device
  | sdmi => .domainInfo

theorem info_mem (x : FieldCommand) : x.info ∈ sCliInfo := by
  cases x <;> decide +kernel

theorem field_inside (x : FieldCommand) : x.field.offset + x.field.length ≤ configSize := by
  cases x <;> decide

end FieldCommand

/-- An empty value is not set either way. -/
theorem onSetText_eq (f : ConfigField) (pData : List UInt8) (s : Ram) :
    Ram.onSetText (fun v s => (Ram.setTextIn f v s).1) pData s = (Ram.setTextIn f pData s).1 := by
  rw [Ram.onSetText]
  split
  · rfl
  · rename_i empty
    obtain rfl : pData = [] := List.length_eq_zero_iff.mp (by omega)
    rw [Ram.setTextIn_of_same rfl]

/-- What the handler of the command does. -/
theorem cliHandlers_field (stack : List UInt8) (others : CliHandlers Ram) (x : FieldCommand)
    (v : List UInt8) (s : Ram) :
    (cliHandlers stack others x.info.id v (some s)).1 = some (Ram.setTextIn x.field v s).1 := by
  cases x with
  | smac =>
      show some (Ram.onSetMacAddress v s).1 = some (Ram.setTextIn .macAddress v s).1
      rw [Ram.onSetMacAddress, ← onSetText_eq, Ram.onSetText]
      split <;> rfl
  | slip | ssnm | sgwy | sdns | sdev | sdmi => exact congrArg some (onSetText_eq _ v s)

/-! ## What is left beside the field -/

/-- No byte beside the field is changed, and but for the device the string in the field ends inside
it. -/
structure KeepsToField (x : FieldCommand) (s s' : Ram) : Prop where
  beside : ∀ i, i < x.field.offset ∨ x.field.offset + x.field.length ≤ i →
    s'.memory.cells[i]? = s.memory.cells[i]?
  terminated : x ≠ .sdev → 0 ∈ s'.get x.field

/-- What is longer than the field must be there already. -/
theorem beside_iff {b : Block UInt8 ramSize} {offset length : ℕ} {v : List UInt8}
    (inside : offset + v.length ≤ ramSize) :
    (∀ i, i < offset ∨ offset + length ≤ i →
      ((b.write offset (List.replicate length 0)).write offset v).cells[i]? = b.cells[i]?) ↔
      v.drop length <+: b.cells.drop (offset + length) := by
  have size : b.cells.length = ramSize := b.length_cells
  have zeros : (List.replicate length (0 : UInt8)).length = length := List.length_replicate
  have byte (i : ℕ) (beside : i < offset ∨ offset + length ≤ i) :
      ((b.write offset (List.replicate length 0)).write offset v).cells[i]? =
        if offset ≤ i ∧ i < offset + v.length then v[i - offset]? else b.cells[i]? := by
    have apart : ¬ (offset ≤ i ∧ i < offset + length) := by omega
    rw [Block.getElem?_write, Block.getElem?_write, zeros, if_neg apart]
    by_cases within : i < ramSize
    · rw [if_pos within, if_pos within]
    · rw [if_neg within, if_neg (by omega), List.getElem?_eq_none (by omega)]
  rw [List.prefix_iff_getElem?]
  constructor
  · intro unchanged i long
    rw [List.length_drop] at long
    have here := unchanged (offset + length + i) (.inr (Nat.le_add_right _ _))
    rw [byte _ (.inr (Nat.le_add_right _ _)), if_pos (by omega), Nat.add_assoc,
      Nat.add_sub_cancel_left] at here
    rw [List.getElem?_drop, List.getElem_drop, Nat.add_assoc, ← here,
      List.getElem?_eq_getElem (by omega)]
  · intro there i beside
    rw [byte i beside]
    split
    · rename_i reached
      obtain ⟨k, rfl⟩ := Nat.exists_eq_add_of_le (show offset + length ≤ i by omega)
      have here := there k (by rw [List.length_drop]; omega)
      rw [List.getElem?_drop, List.getElem_drop] at here
      rw [here, Nat.add_assoc, Nat.add_sub_cancel_left, List.getElem?_eq_getElem (by omega)]
    · rfl

/-- The field holds the value, as far as it fits, and zeros behind it. -/
theorem read_written {b : Block UInt8 ramSize} {offset length : ℕ} {v : List UInt8}
    (field : offset + length ≤ ramSize) :
    ((b.write offset (List.replicate length 0)).write offset v).read offset length =
      (v ++ List.replicate (length - v.length) 0).take length := by
  have zeros : (List.replicate length (0 : UInt8)).length = length := List.length_replicate
  apply List.ext_getElem?
  intro i
  rw [Block.getElem?_read, List.getElem?_take]
  split
  · rw [Block.getElem?_write, if_pos (by omega), Nat.add_sub_cancel_left]
    by_cases value : i < v.length
    · rw [if_pos (by omega), List.getElem?_append_left value]
    · rw [if_neg (by omega), Block.getElem?_write, if_pos (by omega), if_pos (by omega),
        Nat.add_sub_cancel_left, List.getElem?_append_right (by omega), List.getElem?_replicate,
        List.getElem?_replicate, if_pos (by omega), if_pos (by omega)]
  · rfl

/-- There is a `NUL` in the field when the value leaves room for one, or brings it along. -/
theorem zero_mem_written_iff (v : List UInt8) (length : ℕ) :
    0 ∈ (v ++ List.replicate (length - v.length) 0).take length ↔
      v.length < length ∨ 0 ∈ v.take length := by
  rw [List.take_append, List.mem_append, or_comm]
  refine or_congr_left ?_
  rw [List.take_of_length_le (by rw [List.length_replicate]), List.mem_replicate]
  simp only [and_true]
  omega

/-- **A setter keeps to its field** when the value counts as the one that is there already and that
one ends, or when it ends inside the field. -/
theorem setTextIn_keeps_iff (x : FieldCommand) {v : List UInt8} (s : Ram)
    (reach : x.field.offset + v.length ≤ ramSize) :
    KeepsToField x s (Ram.setTextIn x.field v s).1 ↔
      if rtStrncmp (s.at_ x.field) v v.length = 0 then x ≠ .sdev → 0 ∈ s.get x.field
      else v.drop x.field.length <+: s.memory.cells.drop (x.field.offset + x.field.length) ∧
        (x ≠ .sdev → v.length < x.field.length ∨ 0 ∈ v.take x.field.length) := by
  have field : x.field.offset + x.field.length ≤ ramSize :=
    Nat.le_trans x.field_inside Ram.configSize_le
  split
  · rename_i same
    rw [Ram.setTextIn_of_same same]
    exact ⟨fun keeps => keeps.terminated, fun ended => ⟨fun _ _ => rfl, ended⟩⟩
  · rename_i other
    have memory := Ram.setTextIn_of_ne other
    have bytes : (Ram.setTextIn x.field v s).1.get x.field =
        (v ++ List.replicate (x.field.length - v.length) 0).take x.field.length := by
      rw [Ram.get, memory, read_written field]
    rw [← zero_mem_written_iff, ← bytes, ← beside_iff reach, ← memory]
    exact ⟨fun keeps => ⟨keeps.beside, keeps.terminated⟩, fun both => ⟨both.1, both.2⟩⟩

/-! ## A line of the console -/

section

variable {stack : List UInt8} {others : CliHandlers Ram}

/-- What a command line with a value leaves. -/
def afterLine (stack : List UInt8) (others : CliHandlers Ram) (x : FieldCommand) (v : List UInt8)
    (console : Console (Option Ram)) : Option Ram :=
  (parserCliCommand (cliHandlers stack others) (setLine x.info.szCli v ++ [cr]) console).2.system

theorem afterLine_eq (x : FieldCommand) {v : List UInt8} (noCr : cr ∉ v)
    {console : Console (Option Ram)} (alive : console.rebooted = false) {s : Ram}
    (system : console.system = some s) :
    afterLine stack others x v console = some (Ram.setTextIn x.field v s).1 := by
  rw [afterLine, parserCliCommand_setLine _ x.info_mem noCr alive, system, cliHandlers_field]

/-- **A command keeps to its field exactly when** its value counts as the one that is stored and that
one ends inside the field, or it is set, what of it is longer than the field lies there already, and
it leaves room for a `NUL` or brings it along. -/
theorem keeps_to_field_iff (x : FieldCommand) (v : List UInt8) (noCr : cr ∉ v)
    (fits : (setLine x.info.szCli v ++ [cr]).length ≤ rtSerialRbBufsz)
    (console : Console (Option Ram)) (alive : console.rebooted = false) (s : Ram)
    (system : console.system = some s) :
    (∃ s', afterLine stack others x v console = some s' ∧ KeepsToField x s s') ↔
      if rtStrncmp (s.at_ x.field) v v.length = 0 then x ≠ .sdev → 0 ∈ s.get x.field
      else v.drop x.field.length <+: s.memory.cells.drop (x.field.offset + x.field.length) ∧
        (x ≠ .sdev → v.length < x.field.length ∨ 0 ∈ v.take x.field.length) := by
  have short : v.length ≤ rtSerialRbBufsz := by
    rw [setLine, List.length_append, List.length_append, List.length_append, List.length_cons] at fits
    omega
  have reach : x.field.offset + v.length ≤ ramSize :=
    Nat.add_le_add (Nat.le_trans (Nat.le_add_right _ _) x.field_inside) short
  rw [← setTextIn_keeps_iff x s reach, afterLine_eq x noCr alive system]
  constructor
  · rintro ⟨s', same, keeps⟩
    cases same
    exact keeps
  · exact fun keeps => ⟨_, rfl, keeps⟩

end

/-- A gateway with the factory defaults. -/
def factoryRam : Ram where
  memory := (Block.fill ramSize 0).write 0 factoryConfig.cells
  page := Block.fill flashPageSize 0xFF

/-- The console of that gateway. -/
def factoryConsole : Console (Option Ram) := ⟨some factoryRam, [], false⟩

/-- Handlers that do nothing. -/
def idleHandlers : CliHandlers Ram := fun _ _ s => (s, false)

theorem keeps_to_field_iff_address : ∃ s',
    afterLine [] idleHandlers .slip (text "192.168.0.10") factoryConsole = some s' ∧
      KeepsToField .slip factoryRam s' :=
  (keeps_to_field_iff .slip (text "192.168.0.10") (by decide +kernel) (by decide +kernel)
    factoryConsole rfl factoryRam rfl).mpr (by decide +kernel)

/-- **An address of 17 bytes changes the address of the gateway that stands behind it, and one of 16
bytes has no end.** -/
theorem long_address_is_set_beyond :
    (¬ ∃ s', afterLine [] idleHandlers .slip (text "192.168.0.10/24ab") factoryConsole = some s' ∧
      KeepsToField .slip factoryRam s') ∧
    ¬ ∃ s', afterLine [] idleHandlers .slip (text "192.168.0.100/24") factoryConsole = some s' ∧
      KeepsToField .slip factoryRam s' := by
  constructor
  · rintro ⟨s', after, keeps⟩
    rw [afterLine_eq .slip (by decide +kernel) rfl rfl] at after
    obtain rfl := Option.some.inj after
    exact absurd ((setTextIn_keeps_iff .slip factoryRam (by decide +kernel)).mp keeps)
      (by decide +kernel)
  · rintro ⟨s', after, keeps⟩
    rw [afterLine_eq .slip (by decide +kernel) rfl rfl] at after
    obtain rfl := Option.some.inj after
    exact absurd ((setTextIn_keeps_iff .slip factoryRam (by decide +kernel)).mp keeps)
      (by decide +kernel)

end WhaleShark
