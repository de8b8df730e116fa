import WhaleShark.Monitor.MakePacket
import Mathlib.Algebra.Order.BigOperators.Group.List

/-!
# Polling the instruments

The monitor goes through the slaves, their two functions, the descriptions of each function and the
registers of each description, and sends a packet for every register, with the value and the decimal
point set back to zero before each. So a description with a register for the decimal point makes two
packets, one with the value alone and one with the decimal point alone. The second raises when the
decimal point is not zero, since its value is then a `float`. And of a register with the empty name
nothing is read, and the packet says zero. One packet for each description, with the bytes that
`make_packet` makes of its registers, is what is sent exactly when no description has registers with
these two names (`polling_is_right_iff`).

What `read_register` returns is given with the slave. The socket takes what is sent.
-/

set_option autoImplicit false

namespace WhaleShark.Monitor

open Server

/-! ## The instruments -/

/-- A description: registers by their names. -/
abbrev SensorDesc := List (Str × ℕ)

/-- `'decimalpoint'` -/
def decimalpointKey : Str := str "decimalpoint"

/-- What the file says of a slave. -/
structure SlaveDesc where
  comType : Str
  facilityName : Str
  facilityId : Str
  pv : List SensorDesc
  sv : List SensorDesc

/-- `instruments`. Of a register, `none` says that `read_register` raises. -/
structure Instrument where
  comType : Str
  function : List (Str × List SensorDesc)
  facilityName : Str × Str
  facilityId : Str × Str
  readRegister : ℕ → Option UInt16

/-- `(s[0:1], s[1:2])` -/
def slices (s : Str) : Str × Str := (s.take 1, (s.drop 1).take 1)

/-- `connect`. An instrument that is not a serial one gets no attributes. -/
def connect (readRegister : ℕ → Option UInt16) (slaveDesc : SlaveDesc) : Option Instrument :=
  if slaveDesc.comType = str "serial" then
    some {
      comType := str "serial"
      function := [(str "pv", slaveDesc.pv), (str "sv", slaveDesc.sv)]
      facilityName := slices slaveDesc.facilityName
      facilityId := slices slaveDesc.facilityId
      readRegister := readRegister }
  else none

/-- `get_function_value`, where `none` is `None`. -/
def Instrument.getFunctionValue (slave : Instrument) (address : ℕ) : Option ℕ :=
  (slave.readRegister address).map UInt16.toNat

/-! ## One pass -/

/-- What a pass does: it reads a register (`none` says that `read_register` has raised), or sends a
packet. -/
inductive Action where
  | read (address : ℕ) (value : Option ℕ)
  | send (packet : Bytes)
  deriving DecidableEq

def Action.packet? : Action → Option Bytes
  | .read _ _ => none
  | .send packet => some packet

/-- What has been done, and whether the pass has ended by an exception. -/
structure Polled where
  done : List Action
  raised : Bool

/-- The packets that have been sent. -/
def Polled.packets (polled : Polled) : List Bytes := polled.done.filterMap Action.packet?

/-- One part of a pass behind the other. -/
def Polled.andThen (first second : Polled) : Polled :=
  if first.raised then first else ⟨first.done ++ second.done, second.raised⟩

def inTurn (parts : List Polled) : Polled := parts.foldr Polled.andThen ⟨[], false⟩

/-- `send_data`. What `make_packet` raises is no `socket.error`. -/
def Instrument.sendData (slave : Instrument) (fn : Str) (fv : Number) (decimalpoint : ℕ) :
    Polled :=
  match makePacket slave.facilityName slave.facilityId fn fv decimalpoint with
  | none => ⟨[], true⟩
  | some packet => ⟨[.send packet], false⟩

/-- What is read for a register, and `fv` and `decimalpoint` then. -/
def Instrument.readMemType (slave : Instrument) (memType : Str) (address : ℕ) :
    List Action × Option ℕ × Option ℕ :=
  if 0 < memType.length then
    let value := slave.getFunctionValue address
    if memType = decimalpointKey then ([.read address value], some 0, value)
    else ([.read address value], value, some 0)
  else ([], some 0, some 0)

/-- The body of the innermost loop. -/
def Instrument.pollMemType (slave : Instrument) (fn memType : Str) (address : ℕ) : Polled :=
  match slave.readMemType memType address with
  | (reads, none, _) => ⟨reads, false⟩
  -- `None > 0` raises
  | (reads, some _, none) => ⟨reads, true⟩
  | (reads, some fv, some decimalpoint) =>
      Polled.andThen ⟨reads, false⟩ (slave.sendData fn
        (if 0 < decimalpoint then .float fv decimalpoint else .int fv) decimalpoint)

/-- One pass over the slaves. -/
def pollingPass (slaves : List Instrument) : Polled :=
  inTurn (slaves.flatMap fun slave =>
    if slave.comType = str "serial" then
      slave.function.flatMap fun f => f.2.flatMap fun sensorDesc =>
        sensorDesc.map fun memType => slave.pollMemType f.1 memType.1 memType.2
    else [])

/-! ## What a pass is for -/

/-- A description that is not empty names a register for the value, and perhaps one for the decimal
point. The value has any other name. -/
inductive Described : SensorDesc → Prop where
  | empty : Described []
  | value {name : Str} {address : ℕ} (other : name ≠ decimalpointKey) : Described [(name, address)]
  | valueFirst {name : Str} {address point : ℕ} (other : name ≠ decimalpointKey) :
      Described [(name, address), (decimalpointKey, point)]
  | pointFirst {name : Str} {address point : ℕ} (other : name ≠ decimalpointKey) :
      Described [(decimalpointKey, point), (name, address)]

/-- A description, with the slave and the function that it belongs to. -/
structure Entry where
  slave : Instrument
  fn : Str
  sensorDesc : SensorDesc

/-- The descriptions of the slaves, in their order. -/
def entriesOf (slaves : List Instrument) : List Entry :=
  slaves.flatMap fun slave => slave.function.flatMap fun f => f.2.map fun sensorDesc =>
    ⟨slave, f.1, sensorDesc⟩

/-- What is in the register that a description names for its value. -/
def Entry.value (x : Entry) : Option ℕ :=
  (x.sensorDesc.find? fun memType => memType.1 ≠ decimalpointKey).bind fun memType =>
    x.slave.getFunctionValue memType.2

/-- What is in the register for the decimal point, and 0 when there is none. -/
def Entry.point (x : Entry) : Option ℕ :=
  match x.sensorDesc.lookup decimalpointKey with
  | none => some 0
  | some address => x.slave.getFunctionValue address

/-- The packet of a description: what `make_packet` makes of its registers. -/
def Entry.packet (x : Entry) : Option Bytes := do
  let fv ← x.value
  let decimalpoint ← x.point
  makePacket x.slave.facilityName x.slave.facilityId x.fn (.int fv) decimalpoint

/-- What is to be sent for a description: its packet, and nothing for an empty one. -/
def Entry.due (x : Entry) : List (Option Bytes) := if x.sensorDesc = [] then [] else [x.packet]

/-- The packet has this value in front of the decimal point. -/
def Carries (packet : Bytes) (fv : ℕ) : Prop :=
  ∃ front decimalpoint,
    packet = front ++ [(fv / 256).toUInt8, (fv % 256).toUInt8, decimalpoint, 3]

/-- Each packet carries a value that was read since the packet before, or is among these. -/
def ValuesAreRead : List ℕ → List Action → Prop
  | _, [] => True
  | values, .read _ value :: rest => ValuesAreRead (values ++ value.toList) rest
  | values, .send packet :: rest => (∃ fv ∈ values, Carries packet fv) ∧ ValuesAreRead [] rest

/-- The pass ends, sends one packet for each description that is not empty, with the bytes that are
made of the registers of that description, and no packet with a value that was not read for it. -/
structure PollsRight (slaves : List Instrument) : Prop where
  ends : (pollingPass slaves).raised = false
  sends : ((pollingPass slaves).packets.map some).Perm ((entriesOf slaves).flatMap Entry.due)
  reads : ValuesAreRead [] (pollingPass slaves).done

/-- `make_packet` can write the name and the id: the name has two characters, whose hexadecimal
numbers are an even number of digits, and the id two decimal digits. -/
def Writable (slave : Instrument) : Prop :=
  (∃ n0 n1, ord slave.facilityName.1 = some n0 ∧ ord slave.facilityName.2 = some n1 ∧
      Even (formatX n0 ++ formatX n1).length) ∧
    (∃ i0, intOf slave.facilityId.1 = some i0) ∧ ∃ i1, intOf slave.facilityId.2 = some i1

/-! ## Parts in turn -/

theorem inTurn_raised {parts : List Polled} :
    (inTurn parts).raised = false ↔ ∀ part ∈ parts, part.raised = false := by
  induction parts with
  | nil => simp [inTurn]
  | cons part parts ih =>
      rw [List.forall_mem_cons, ← ih, inTurn, List.foldr_cons, Polled.andThen]
      cases raised : part.raised with
      | true => simp [raised]
      | false => simp [inTurn]

/-- Where no part raises, everything is done. -/
theorem inTurn_done {parts : List Polled} (ends : ∀ part ∈ parts, part.raised = false) :
    (inTurn parts).done = parts.flatMap Polled.done := by
  induction parts with
  | nil => rfl
  | cons part parts ih =>
      have first := ends part List.mem_cons_self
      have rest := ih fun other member => ends other (List.mem_cons_of_mem _ member)
      rw [inTurn, List.foldr_cons, Polled.andThen, first, List.flatMap_cons, ← rest]
      rfl

theorem inTurn_packets {parts : List Polled} (ends : ∀ part ∈ parts, part.raised = false) :
    (inTurn parts).packets = parts.flatMap Polled.packets := by
  rw [Polled.packets, inTurn_done ends, List.filterMap_flatMap]
  rfl

/-- Behind a packet the values are read anew. -/
theorem valuesAreRead_append {values : List ℕ} {front rest : List Action} {packet : Bytes} :
    ValuesAreRead values (front ++ .send packet :: rest) ↔
      ValuesAreRead values (front ++ [.send packet]) ∧ ValuesAreRead [] rest := by
  induction front generalizing values with
  | nil => simp [ValuesAreRead]
  | cons action front ih =>
      cases action with
      | read address value => exact ih
      | send packet => simp only [List.cons_append, ValuesAreRead, ih, and_assoc]

/-- A part ends with a packet. -/
def Polled.EndsSending (part : Polled) : Prop :=
  ∃ front packet, part.done = front ++ [.send packet]

/-- Where each part ends with a packet, each one reads its values itself. -/
theorem valuesAreRead_parts {parts : List Polled} (sending : ∀ part ∈ parts, part.EndsSending) :
    ValuesAreRead [] (parts.flatMap Polled.done) ↔
      ∀ part ∈ parts, ValuesAreRead [] part.done := by
  induction parts with
  | nil => simp [ValuesAreRead]
  | cons part parts ih =>
      obtain ⟨front, packet, last⟩ := sending part List.mem_cons_self
      have rest := ih fun other member => sending other (List.mem_cons_of_mem _ member)
      rw [List.forall_mem_cons, ← rest, List.flatMap_cons, last, List.append_assoc]
      exact valuesAreRead_append

/-! ## One description -/

/-- What the innermost loop does for a description. -/
def Entry.polled (x : Entry) : List Polled :=
  x.sensorDesc.map fun memType => x.slave.pollMemType x.fn memType.1 memType.2

theorem pollingPass_eq {slaves : List Instrument}
    (serial : ∀ slave ∈ slaves, slave.comType = str "serial") :
    pollingPass slaves = inTurn ((entriesOf slaves).flatMap Entry.polled) := by
  rw [pollingPass, entriesOf, List.flatMap_assoc]
  congr 1
  refine List.flatMap_congr fun slave member => ?_
  rw [if_pos (serial slave member), List.flatMap_assoc]
  refine List.flatMap_congr fun f _ => ?_
  rw [List.flatMap_map]
  rfl

/-- What `make_packet` writes is of a slave that it can write. -/
theorem writable_of_makePacket {slave : Instrument} {fn : Str} {fv : Number} {decimalpoint : ℕ}
    {packet : Bytes} (made : makePacket slave.facilityName slave.facilityId fn fv decimalpoint =
      some packet) : Writable slave := by
  unfold makePacket at made
  obtain ⟨_, _, made⟩ := Option.bind_eq_some_iff.mp made
  obtain ⟨_, _, made⟩ := Option.bind_eq_some_iff.mp made
  obtain ⟨n0, name0, made⟩ := Option.bind_eq_some_iff.mp made
  obtain ⟨n1, name1, made⟩ := Option.bind_eq_some_iff.mp made
  obtain ⟨name, read, made⟩ := Option.bind_eq_some_iff.mp made
  obtain ⟨i0, id0, made⟩ := Option.bind_eq_some_iff.mp made
  obtain ⟨i1, id1, -⟩ := Option.bind_eq_some_iff.mp made
  refine ⟨⟨n0, n1, name0, name1, ?_⟩, ⟨i0, id0⟩, ⟨i1, id1⟩⟩
  have pairs := fromHex_of_digits (s := formatX n0 ++ formatX n1) (digits_append n0 n1)
  by_contra odd
  rw [if_neg odd, read] at pairs
  cases pairs

theorem sendData_ends {slave : Instrument} {fn : Str} {fv : Number} {decimalpoint : ℕ}
    (ends : (slave.sendData fn fv decimalpoint).raised = false) :
    (∃ packet, slave.sendData fn fv decimalpoint = ⟨[.send packet], false⟩) ∧ Writable slave := by
  unfold Instrument.sendData at ends ⊢
  split at ends
  · cases ends
  · rename_i packet made
    exact ⟨⟨packet, rfl⟩, writable_of_makePacket made⟩

/-- Every register of the slave can be read. -/
def Instrument.Reads (slave : Instrument) : Prop := ∀ address, (slave.readRegister address).isSome

theorem Instrument.Reads.gets {slave : Instrument} (reads : slave.Reads) (address : ℕ) :
    ∃ v < 65536, slave.getFunctionValue address = some v := by
  obtain ⟨v, got⟩ := Option.isSome_iff_exists.mp (reads address)
  exact ⟨v.toNat, v.toNat_lt, by rw [getFunctionValue, got, Option.map_some]⟩

/-- Where every register can be read, each one makes a packet behind what is read for it, unless
something raises. -/
theorem pollMemType_ends {slave : Instrument} (reads : slave.Reads) {fn memType : Str}
    {address : ℕ} (ends : (slave.pollMemType fn memType address).raised = false) :
    (∃ packet, slave.pollMemType fn memType address =
      ⟨(slave.readMemType memType address).1 ++ [.send packet], false⟩) ∧ Writable slave := by
  obtain ⟨v, -, got⟩ := reads.gets address
  obtain ⟨done, fv, decimalpoint, values⟩ : ∃ done fv decimalpoint,
      slave.readMemType memType address = (done, some fv, some decimalpoint) := by
    simp only [Instrument.readMemType, got]
    split_ifs
    · exact ⟨_, 0, v, rfl⟩
    · exact ⟨_, v, 0, rfl⟩
    · exact ⟨_, 0, 0, rfl⟩
  simp only [Instrument.pollMemType, values, Polled.andThen, Bool.false_eq_true, if_false]
    at ends ⊢
  obtain ⟨⟨packet, sent⟩, writable⟩ := sendData_ends ends
  exact ⟨⟨packet, by rw [sent]⟩, writable⟩

/-- What is read is no packet. -/
theorem packets_readMemType (slave : Instrument) (memType : Str) (address : ℕ) :
    (slave.readMemType memType address).1.filterMap Action.packet? = [] := by
  simp only [Instrument.readMemType]
  split_ifs <;> rfl

/-- So a description makes as many packets as it names registers. -/
theorem length_polled {x : Entry} (reads : x.slave.Reads)
    (ends : ∀ part ∈ x.polled, part.raised = false) :
    (x.polled.flatMap Polled.packets).length = x.sensorDesc.length := by
  have one : ∀ part ∈ x.polled, part.packets.length = 1 := by
    intro part member
    obtain ⟨memType, -, rfl⟩ := List.mem_map.mp member
    obtain ⟨⟨packet, polls⟩, -⟩ := pollMemType_ends reads (ends _ member)
    rw [polls, Polled.packets, List.filterMap_append, packets_readMemType]
    rfl
  rw [List.length_flatMap, List.map_congr_left one, List.map_const', Entry.polled, List.length_map]
  simp

/-- Each part of a description ends with a packet. -/
theorem polled_sending {x : Entry} (reads : x.slave.Reads)
    (ends : ∀ part ∈ x.polled, part.raised = false) : ∀ part ∈ x.polled, part.EndsSending := by
  intro part member
  obtain ⟨memType, -, rfl⟩ := List.mem_map.mp member
  obtain ⟨⟨packet, polls⟩, -⟩ := pollMemType_ends reads (ends _ member)
  exact ⟨_, packet, by rw [polls]⟩

/-- Of a register with the empty name nothing is read. -/
theorem named_of_valuesAreRead {x : Entry} (reads : x.slave.Reads)
    (ends : ∀ part ∈ x.polled, part.raised = false)
    (read : ∀ part ∈ x.polled, ValuesAreRead [] part.done) : x.sensorDesc.lookup [] = none := by
  rw [List.lookup_eq_none_iff]
  rintro ⟨name, address⟩ member
  have here : x.slave.pollMemType x.fn name address ∈ x.polled := List.mem_map.mpr ⟨_, member, rfl⟩
  obtain ⟨⟨packet, polls⟩, -⟩ := pollMemType_ends reads (ends _ here)
  have values := read _ here
  rw [polls] at values
  by_contra empty
  have noName : name = [] := by simpa using empty
  subst noName
  obtain ⟨⟨fv, none_, -⟩, -⟩ := values
  cases none_

/-- A slave with the functions that `connect` gives it. -/
def Connected (slave : Instrument) : Prop :=
  ∃ readRegister slaveDesc, connect readRegister slaveDesc = some slave

theorem Connected.serial {slave : Instrument} (connected : Connected slave) :
    slave.comType = str "serial" := by
  obtain ⟨readRegister, slaveDesc, made⟩ := connected
  obtain ⟨-, same⟩ := Option.ite_none_right_eq_some.mp made
  cases same
  rfl

theorem Connected.fn {slave : Instrument} (connected : Connected slave)
    {f : Str × List SensorDesc} (member : f ∈ slave.function) :
    f.1 = ['p', 'v'] ∨ f.1 = ['s', 'v'] := by
  obtain ⟨readRegister, slaveDesc, made⟩ := connected
  obtain ⟨-, same⟩ := Option.ite_none_right_eq_some.mp made
  cases same
  simp only [List.mem_cons, List.not_mem_nil, or_false] at member
  have pv : str "pv" = ['p', 'v'] := by decide
  have sv : str "sv" = ['s', 'v'] := by decide
  rcases member with rfl | rfl
  · exact .inl pv
  · exact .inr sv

/-- A packet without a decimal point is made of a slave that can be written, and carries its
value. -/
theorem makePacket_of_writable {slave : Instrument} (writable : Writable slave) {fn : Str}
    (named : fn = ['p', 'v'] ∨ fn = ['s', 'v']) {fv : ℕ} (half : fv < 65536) :
    ∃ packet, makePacket slave.facilityName slave.facilityId fn (.int fv) 0 = some packet ∧
      Carries packet fv := by
  obtain ⟨⟨n0, n1, name0, name1, even⟩, ⟨i0, id0⟩, ⟨i1, id1⟩⟩ := writable
  have pairs := fromHex_of_digits (digits_append n0 n1)
  rw [if_pos even] at pairs
  obtain ⟨name, read, -⟩ := pairs
  obtain ⟨f0, f1, code, rfl, written⟩ : ∃ f0 f1 code, fn = [f0, f1] ∧
      fromHex (formatX (Char.toNat f0) ++ formatX (Char.toNat f1)) = some code := by
    rcases named with rfl | rfl
    · exact ⟨'p', 'v', [0x70, 0x76], rfl, by decide +kernel⟩
    · exact ⟨'s', 'v', [0x73, 0x76], rfl, by decide +kernel⟩
  rw [makePacket_eq name0 name1 id0 id1 f0 f1 half (by decide), read, written]
  exact ⟨_, rfl, _, _, rfl⟩

/-- A description with a register for the value alone, which has a name, makes the packet that it is
to make. -/
theorem polled_of_value {x : Entry} (reads : x.slave.Reads) (described : Described x.sensorDesc)
    (named : x.fn = ['p', 'v'] ∨ x.fn = ['s', 'v'])
    (good : x.sensorDesc ≠ [] → x.sensorDesc.lookup decimalpointKey = none ∧
      x.sensorDesc.lookup [] = none ∧ Writable x.slave) :
    (∀ part ∈ x.polled, part.raised = false ∧ ValuesAreRead [] part.done) ∧
      (x.polled.flatMap Polled.packets).map some = x.due := by
  obtain ⟨slave, fn, sensorDesc⟩ := x
  cases described with
  | empty => simp [Entry.polled, Entry.due]
  | @value name address other =>
      obtain ⟨v, small, got⟩ := reads.gets address
      obtain ⟨-, noEmpty, writable⟩ := good (List.cons_ne_nil _ _)
      obtain ⟨packet, made, carries⟩ := makePacket_of_writable writable named small
      have some_ : name ≠ [] := by
        have apart := List.lookup_eq_none_iff.mp noEmpty _ List.mem_cons_self
        rintro rfl
        simp at apart
      have apart : (decimalpointKey == name) = false := by simpa using other.symm
      have polls : slave.pollMemType fn name address =
          ⟨[.read address (some v), .send packet], false⟩ := by
        simp only [Instrument.pollMemType, Instrument.readMemType,
          if_pos (List.length_pos_iff.mpr some_), if_neg other, got, Instrument.sendData, made,
          lt_irrefl, if_false, Polled.andThen, Bool.false_eq_true]
        rfl
      refine ⟨?_, ?_⟩
      · rw [Entry.polled, List.map_singleton, List.forall_mem_singleton, polls]
        exact ⟨rfl, ⟨v, by simp, carries⟩, trivial⟩
      · have sent : (Entry.polled ⟨slave, fn, [(name, address)]⟩).flatMap Polled.packets =
            [packet] := by
          rw [Entry.polled, List.map_singleton, polls]
          rfl
        rw [sent]
        simp [Entry.due, Entry.packet, Entry.value, Entry.point, other, got, apart,
          List.lookup_cons, made]
  | valueFirst other =>
      obtain ⟨none_, -⟩ := good (List.cons_ne_nil _ _)
      have missing := List.lookup_eq_none_iff.mp none_ _ (List.mem_cons_of_mem _ List.mem_cons_self)
      simp at missing
  | pointFirst other =>
      obtain ⟨none_, -⟩ := good (List.cons_ne_nil _ _)
      have missing := List.lookup_eq_none_iff.mp none_ _ List.mem_cons_self
      simp at missing

/-! ## The whole pass -/

/-- A description with more than one register has one for the decimal point. -/
theorem Described.lookup_eq_none_iff {sensorDesc : SensorDesc} (described : Described sensorDesc)
    (some_ : sensorDesc ≠ []) :
    sensorDesc.lookup decimalpointKey = none ↔ sensorDesc.length ≤ 1 := by
  rw [List.lookup_eq_none_iff]
  cases described with
  | empty => exact absurd rfl some_
  | value other => simpa using other.symm
  | valueFirst other => simp
  | pointFirst other => simp

theorem mem_entriesOf {slaves : List Instrument} {x : Entry} : x ∈ entriesOf slaves ↔
    x.slave ∈ slaves ∧ ∃ f ∈ x.slave.function, f.1 = x.fn ∧ x.sensorDesc ∈ f.2 := by
  obtain ⟨slave, fn, sensorDesc⟩ := x
  simp only [entriesOf, List.mem_flatMap, List.mem_map, Entry.mk.injEq]
  constructor
  · rintro ⟨slave', inside, f, function, sensorDesc', desc, rfl, rfl, rfl⟩
    exact ⟨inside, f, function, rfl, desc⟩
  · rintro ⟨inside, f, function, rfl, desc⟩
    exact ⟨slave, inside, f, function, sensorDesc, desc, rfl, rfl, rfl⟩

/-- At most one packet is due for a description, and it is one for each register. -/
theorem length_due_le (x : Entry) : x.due.length ≤ x.sensorDesc.length ∧ x.due.length ≤ 1 := by
  rw [Entry.due]
  split
  · exact ⟨Nat.zero_le _, Nat.zero_le _⟩
  · rename_i some_
    exact ⟨List.length_pos_iff.mpr some_, le_rfl⟩

/-- **A pass is right exactly when** no description has a register for the decimal point or one with
the empty name, and the slaves that have a description that is not empty can be written. -/
theorem polling_is_right_iff {slaves : List Instrument}
    (connected : ∀ slave ∈ slaves, Connected slave) (reads : ∀ slave ∈ slaves, slave.Reads)
    (described : ∀ x ∈ entriesOf slaves, Described x.sensorDesc) :
    PollsRight slaves ↔ ∀ x ∈ entriesOf slaves, x.sensorDesc ≠ [] →
      x.sensorDesc.lookup decimalpointKey = none ∧ x.sensorDesc.lookup [] = none ∧
        Writable x.slave := by
  have pass := pollingPass_eq fun slave member => (connected slave member).serial
  have readable : ∀ x ∈ entriesOf slaves, x.slave.Reads :=
    fun x member => reads x.slave (mem_entriesOf.mp member).1
  constructor
  · rintro ⟨ends, sends, read⟩ x member some_
    rw [pass] at ends sends read
    have all := inTurn_raised.mp ends
    have each : ∀ y ∈ entriesOf slaves, ∀ part ∈ y.polled, part.raised = false :=
      fun y inside part here => all part (List.mem_flatMap.mpr ⟨y, inside, here⟩)
    rw [inTurn_done all, valuesAreRead_parts (by
      intro part here
      obtain ⟨y, inside, own⟩ := List.mem_flatMap.mp here
      exact polled_sending (readable y inside) (each y inside) part own)] at read
    refine ⟨?_, named_of_valuesAreRead (readable x member) (each x member) fun part here =>
      read part (List.mem_flatMap.mpr ⟨x, member, here⟩), ?_⟩
    · -- a second register would make one packet more than there are descriptions
      rw [(described x member).lookup_eq_none_iff some_]
      by_contra more
      have count := sends.length_eq
      rw [List.length_map, inTurn_packets all, List.flatMap_assoc, List.length_flatMap,
        List.map_congr_left fun y inside => length_polled (readable y inside) (each y inside),
        List.length_flatMap] at count
      refine Nat.ne_of_gt (List.sum_lt_sum _ _ (fun y _ => (length_due_le y).1) ⟨x, member, ?_⟩)
        count
      have one := (length_due_le x).2
      omega
    · obtain ⟨memType, rest, split⟩ := List.exists_cons_of_ne_nil some_
      have first : x.slave.pollMemType x.fn memType.1 memType.2 ∈ x.polled := by
        rw [Entry.polled, split]
        exact List.mem_cons_self
      exact (pollMemType_ends (readable x member) (each x member _ first)).2
  · intro good
    have polled : ∀ x ∈ entriesOf slaves,
        (∀ part ∈ x.polled, part.raised = false ∧ ValuesAreRead [] part.done) ∧
          (x.polled.flatMap Polled.packets).map some = x.due := by
      intro x member
      obtain ⟨inside, f, function, named, -⟩ := mem_entriesOf.mp member
      exact polled_of_value (readable x member) (described x member)
        (named ▸ (connected _ inside).fn function) (good x member)
    have all : ∀ part ∈ (entriesOf slaves).flatMap Entry.polled, part.raised = false := by
      intro part here
      obtain ⟨x, member, own⟩ := List.mem_flatMap.mp here
      exact ((polled x member).1 part own).1
    refine ⟨by rw [pass]; exact inTurn_raised.mpr all, ?_, ?_⟩
    · rw [pass, inTurn_packets all, List.flatMap_assoc, List.map_flatMap,
        List.flatMap_congr fun x member => (polled x member).2]
    · rw [pass, inTurn_done all, valuesAreRead_parts]
      · intro part here
        obtain ⟨x, member, own⟩ := List.mem_flatMap.mp here
        exact ((polled x member).1 part own).2
      · intro part here
        obtain ⟨x, member, own⟩ := List.mem_flatMap.mp here
        exact polled_sending (readable x member)
          (fun part own => ((polled x member).1 part own).1) part own

/-- A slave with these descriptions, and `point` in the register for the decimal point. -/
def slaveWith (pv sv : List SensorDesc) (point : UInt16) : Instrument where
  comType := str "serial"
  function := [(str "pv", pv), (str "sv", sv)]
  facilityName := slices (str "TS")
  facilityId := slices (str "01")
  readRegister address := some (if address = 1001 then point else 250)

theorem slaveWith_connected (pv sv : List SensorDesc) (point : UInt16) :
    Connected (slaveWith pv sv point) :=
  ⟨_, ⟨str "serial", str "TS", str "01", pv, sv⟩, rfl⟩

/-- The temperature, and nothing. -/
def temperatureOnly : Instrument :=
  slaveWith [[(str "temp", 1000)], []] [[(str "temp", 1003)]] 0

/-- The descriptions that come with the monitor. -/
def temperatures (point : UInt16) : Instrument :=
  slaveWith [[(str "temp", 1000), (str "decimalpoint", 1001)], []]
    [[(str "temp", 1003), (str "decimalpoint", 1001)]] point

/-- A register with the empty name. -/
def namelessRegister : Instrument := slaveWith [[([], 1000)]] [] 0

theorem slaveWith_writable (pv sv : List SensorDesc) (point : UInt16) :
    Writable (slaveWith pv sv point) := by
  have name : ord (slices (str "TS")).1 = some 84 ∧ ord (slices (str "TS")).2 = some 83 := by decide
  have id_ : intOf (slices (str "01")).1 = some 0 ∧ intOf (slices (str "01")).2 = some 1 := by
    decide +kernel
  exact ⟨⟨84, 83, name.1, name.2, by decide +kernel⟩, ⟨0, id_.1⟩, ⟨1, id_.2⟩⟩

theorem polling_is_right_iff_temperature : PollsRight [temperatureOnly] := by
  have entries : entriesOf [temperatureOnly] =
      [⟨temperatureOnly, str "pv", [(str "temp", 1000)]⟩, ⟨temperatureOnly, str "pv", []⟩,
        ⟨temperatureOnly, str "sv", [(str "temp", 1003)]⟩] := rfl
  have temp : str "temp" ≠ [] ∧ str "temp" ≠ decimalpointKey := by decide
  have without (address : ℕ) : [(str "temp", address)].lookup decimalpointKey = none ∧
      [(str "temp", address)].lookup [] = none := by
    rw [List.lookup_eq_none_iff, List.lookup_eq_none_iff]
    simpa using ⟨temp.2.symm, temp.1⟩
  have writable := slaveWith_writable [[(str "temp", 1000)], []] [[(str "temp", 1003)]] 0
  refine (polling_is_right_iff ?_ ?_ ?_).mpr ?_
  · exact List.forall_mem_singleton.mpr (slaveWith_connected _ _ _)
  · exact List.forall_mem_singleton.mpr fun _ => rfl
  · rw [entries]
    simp only [List.forall_mem_cons, List.not_mem_nil, false_imp_iff, implies_true, and_true]
    exact ⟨.value temp.2, .empty, .value temp.2⟩
  · rw [entries]
    simp only [List.forall_mem_cons, List.not_mem_nil, false_imp_iff, implies_true, and_true]
    exact ⟨fun _ => ⟨(without 1000).1, (without 1000).2, writable⟩, fun some_ => absurd rfl some_,
      fun _ => ⟨(without 1003).1, (without 1003).2, writable⟩⟩

/-- **A decimal point makes a packet of its own.** Where it is 0, four packets are sent for the two
descriptions that are not empty; where it is 1, the first of them ends the pass. And of a register
with the empty name, which holds 250, a packet with the value 0 is sent. -/
theorem decimal_points_are_sent_apart :
    (pollingPass [temperatures 0]).packets.length = 4 ∧ ¬ PollsRight [temperatures 0] ∧
      (pollingPass [temperatures 1]).raised = true ∧ ¬ PollsRight [temperatures 1] ∧
      ¬ PollsRight [namelessRegister] := by
  have four : (pollingPass [temperatures 0]).packets.length = 4 := by decide +kernel
  have two : ((entriesOf [temperatures 0]).flatMap Entry.due).length = 2 := by decide +kernel
  have raised : (pollingPass [temperatures 1]).raised = true := by decide +kernel
  have sent : (pollingPass [namelessRegister]).packets.map some ≠
      (entriesOf [namelessRegister]).flatMap Entry.due := by decide +kernel
  have one : ((entriesOf [namelessRegister]).flatMap Entry.due).length = 1 := by decide +kernel
  refine ⟨four, fun right => ?_, raised, fun right => ?_, fun right => ?_⟩
  · have count := right.sends.length_eq
    rw [List.length_map, four, two] at count
    cases count
  · cases raised.symm.trans right.ends
  · obtain ⟨due, only⟩ := List.length_eq_one_iff.mp one
    have same := right.sends
    rw [only, List.perm_singleton, ← only] at same
    exact sent same

end WhaleShark.Monitor
