import WhaleShark.Gateway.ConfigStrings

/-!
# The memory at the configuration

A setter copies as many bytes into its field as it is told to, and does not look at the size of the
field. What is too long for the field lies in the fields behind it, and then in the memory behind
`Config`. So the setters are given here once more, on that memory. For a value that ends inside the
configuration they are the setters of the configuration (`setTextIn_configuration`).
-/

set_option autoImplicit false

namespace WhaleShark

open Foundations

/-- How much of the memory is looked at: the configuration, and behind it more than a line of the
console has bytes. -/
def ramSize : ℕ := configSize + 1024

/-- The memory from the configuration on, and the page of the flash. -/
structure Ram where
  memory : Block UInt8 ramSize
  page : FlashPage

namespace Ram

/-- The memory at a field. -/
def at_ (s : Ram) (f : ConfigField) : List UInt8 := s.memory.cells.drop f.offset

/-- The bytes of a field. -/
def get (s : Ram) (f : ConfigField) : List UInt8 := s.memory.read f.offset f.length

/-- `FlashWrite((rt_uint8_t *)pCfg, sizeof(Config))` -/
def store (s : Ram) : Ram × Bool :=
  let (page, retVal) := flashWrite s.page s.memory.cells configSize
  ({ s with page }, retVal)

/-- A setter of a text of `pData.length` bytes, and what it returns. -/
def setTextIn (f : ConfigField) (pData : List UInt8) (s : Ram) : Ram × Bool :=
  if rtStrncmp (s.at_ f) pData pData.length ≠ 0 then
    let memory := s.memory.write f.offset (List.replicate f.length 0)
    let memory := memory.write f.offset pData
    store { s with memory }
  else (s, false)

/-- A setter of a number, given by its bytes, and what it returns. -/
def setNumberIn (f : ConfigField) (data : List UInt8) (s : Ram) : Ram × Bool :=
  if s.get f ≠ data then store { s with memory := s.memory.write f.offset data } else (s, false)

theorem store_memory (s : Ram) : s.store.1.memory = s.memory := by rw [store]

theorem setTextIn_memory (f : ConfigField) (pData : List UInt8) (s : Ram) :
    (setTextIn f pData s).1.memory = withText s.memory f.offset f.length pData := by
  rw [setTextIn, withText, at_]
  split
  · exact store_memory _
  · rfl

/-- A text that counts as the same is not set. -/
theorem setTextIn_of_same {f : ConfigField} {pData : List UInt8} {s : Ram}
    (same : rtStrncmp (s.at_ f) pData pData.length = 0) : (setTextIn f pData s).1 = s := by
  rw [setTextIn, if_neg (not_not.mpr same)]

/-- Any other one is. -/
theorem setTextIn_of_ne {f : ConfigField} {pData : List UInt8} {s : Ram}
    (other : rtStrncmp (s.at_ f) pData pData.length ≠ 0) : (setTextIn f pData s).1.memory =
      (s.memory.write f.offset (List.replicate f.length 0)).write f.offset pData := by
  rw [setTextIn, if_pos other]
  exact store_memory _

/-! ## The configuration in the memory -/

theorem configSize_le : configSize ≤ ramSize := by decide

/-- The configuration, and the page. -/
def configuration (s : Ram) : Configuration := ⟨s.memory.front configSize configSize_le, s.page⟩

/-- The two bytes behind the configuration. -/
def behind (s : Ram) : Behind :=
  (byteAt s.memory.cells configSize, byteAt s.memory.cells (configSize + 1))

/-- What is written are the bytes of the configuration, and the two behind them. -/
theorem take_cells (s : Ram) :
    s.memory.cells.take (4 * 68) = s.configuration.cfg.memory s.behind := by
  have size : s.memory.cells.length = ramSize := s.memory.length_cells
  have first : configSize < s.memory.cells.length := by rw [size]; decide
  have second : configSize + 1 < s.memory.cells.length := by rw [size]; decide
  have words : 4 * 68 = configSize + 1 + 1 := rfl
  rw [words, List.take_add_one, List.take_add_one, getElem?_eq_byteAt first,
    getElem?_eq_byteAt second, List.append_assoc]
  rfl

/-- The page is written from the configuration. -/
theorem store_configuration (s : Ram) :
    (s.store.1.configuration, s.store.2) = Configuration.store s.behind s.configuration := by
  have long : 4 * 68 ≤ s.memory.cells.length := by rw [s.memory.length_cells]; decide
  have short : 4 * 68 ≤ (s.configuration.cfg.memory s.behind).length := by rw [length_memory]
  have whole : (s.configuration.cfg.memory s.behind).take (4 * 68) =
      s.configuration.cfg.memory s.behind :=
    List.take_of_length_le (by rw [length_memory])
  have same : programmed s.memory.cells 68 =
      programmed (s.configuration.cfg.memory s.behind) 68 := by
    rw [programmed, programmed, Block.writePieces_eq _ _ _ _ _ long,
      Block.writePieces_eq _ _ _ _ _ short, take_cells, whole]
  have does := flashWrite_eq s.page s.memory.cells (show 0 < configSize by decide) (by decide)
  rw [store_eq, ← same, store, does]
  rfl

theorem at_configuration (s : Ram) (f : ConfigField) :
    s.configuration.cfg.at_ f = (s.at_ f).take (configSize - f.offset) := by
  rw [Config.at_, at_, ← List.drop_take]
  rfl

/-- A write that ends inside the configuration leaves the bytes behind it. -/
theorem behind_write (memory : Block UInt8 ramSize) (page : FlashPage) {offset : ℕ}
    {xs : List UInt8} (inside : offset + xs.length ≤ configSize) :
    behind ⟨memory.write offset xs, page⟩ = behind ⟨memory, page⟩ := by
  have beyond (i : ℕ) (inRam : configSize + i < ramSize) :
      byteAt (memory.write offset xs).cells (configSize + i) =
        byteAt memory.cells (configSize + i) := by
    rw [byteAt_eq, byteAt_eq, Block.getElem?_write, if_pos inRam, if_neg (by omega)]
  exact Prod.ext (beyond 0 (by decide)) (beyond 1 (by decide))

/-- **A value that ends inside the configuration is set as the setters of the configuration set
it.** -/
theorem setTextIn_configuration {f : ConfigField} {pData : List UInt8}
    (field : f.offset + f.length ≤ configSize) (fits : f.offset + pData.length ≤ configSize)
    (s : Ram) :
    ((setTextIn f pData s).1.configuration, (setTextIn f pData s).2) =
      setText f pData s.behind s.configuration := by
  have compared : rtStrncmp (s.configuration.cfg.cells.drop f.offset) pData pData.length =
      rtStrncmp (s.at_ f) pData pData.length := by
    have own : s.configuration.cfg.cells.drop f.offset = s.configuration.cfg.at_ f := rfl
    rw [own, at_configuration, rtStrncmp_take (by omega)]
  rw [setTextIn, setText, compared]
  split
  · have zeros : f.offset + (List.replicate f.length (0 : UInt8)).length ≤ configSize := by
      rw [List.length_replicate]
      exact field
    rw [store_configuration, behind_write _ _ fits, behind_write _ _ zeros, configuration,
      Block.front_write, Block.front_write]
    rfl
  · rfl

/-- So are numbers. -/
theorem setNumberIn_configuration {f : ConfigField} {data : List UInt8}
    (field : f.offset + f.length ≤ configSize) (fits : f.offset + data.length ≤ configSize)
    (s : Ram) :
    ((setNumberIn f data s).1.configuration, (setNumberIn f data s).2) =
      setNumber f data s.behind s.configuration := by
  have same : s.configuration.cfg.get f = s.get f := by
    rw [Config.get, get, Block.read, Block.read]
    show ((s.memory.cells.take configSize).drop f.offset).take f.length = _
    rw [List.drop_take, List.take_take, Nat.min_eq_left (by omega)]
  rw [setNumberIn, setNumber, same]
  split
  · rw [store_configuration, behind_write _ _ fits, configuration, Block.front_write]
    rfl
  · rfl

end Ram

end WhaleShark
