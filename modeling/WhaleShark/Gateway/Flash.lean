import WhaleShark.Foundations.Blocks
import WhaleShark.Gateway.CLibrary

/-!
# The flash page of the configuration

The configuration is kept in a page of the flash. Writing it erases the page, so that every byte
reads `0xFF`, and then programs one word after the other. The last word takes in the two bytes that
lie behind the configuration in memory. The driver refuses what lies behind the end of the flash,
which no call here comes to (`flashRead_eq`, `flashWrite_eq`).
-/

set_option autoImplicit false

namespace WhaleShark

open Foundations

/-- `FLASH_PAGESIZE` -/
def flashPageSize : ℕ := 2048

/-- `FLASH_WATERMART_ADDRESS`, where the page begins. -/
def flashWatermartAddress : ℕ := 0x08009000

/-- `STM32_FLASH_END_ADDRESS` -/
def stm32FlashEndAddress : ℕ := 0x08000000 + 256 * 1024

abbrev FlashPage := Block UInt8 flashPageSize

/-- `stm32_flash_read`, at an address in the page. -/
def stm32FlashRead (page : FlashPage) (addr size : ℕ) : Option (List UInt8) :=
  if stm32FlashEndAddress < addr + size then none
  else some (page.read (addr - flashWatermartAddress) size)

/-- `stm32_flash_erase`, for the page. -/
def stm32FlashErase (addr size : ℕ) : Option FlashPage :=
  if stm32FlashEndAddress < addr + size then none
  else some (Block.fill flashPageSize 0xFF)

/-- `stm32_flash_write`, from the memory at `buf`, at an address in the page. -/
def stm32FlashWrite (page : FlashPage) (addr : ℕ) (buf : List UInt8) (size : ℕ) :
    Option FlashPage :=
  if addr % 4 ≠ 0 then none
  else if stm32FlashEndAddress < addr + size then none
  else some (page.writePieces 4 (addr - flashWatermartAddress) ((size + 3) / 4) buf)

/-- `FlashRead` -/
def flashRead (page : FlashPage) (size : ℕ) : Option (List UInt8) :=
  if 0 < size then stm32FlashRead page flashWatermartAddress size else none

/-- `FlashWrite`, from the memory at `pData`. -/
def flashWrite (page : FlashPage) (pData : List UInt8) (size : ℕ) : FlashPage × Bool :=
  if 0 < size then
    match stm32FlashErase flashWatermartAddress flashPageSize with
    | none => (page, false)
    | some erased =>
        match stm32FlashWrite erased flashWatermartAddress pData size with
        | none => (erased, false)
        | some page => (page, true)
  else (page, false)

/-- What the page holds when it has been erased and the first words of the memory are programmed. -/
def programmed (buf : List UInt8) (words : ℕ) : FlashPage :=
  (Block.fill flashPageSize 0xFF).writePieces 4 0 words buf

/-- The beginning of the page is read. -/
theorem flashRead_eq (page : FlashPage) {size : ℕ} (some_ : 0 < size) (fits : size ≤ flashPageSize) :
    flashRead page size = some (page.read 0 size) := by
  rw [flashRead, if_pos some_, stm32FlashRead, if_neg, Nat.sub_self]
  simp only [stm32FlashEndAddress, flashWatermartAddress, flashPageSize] at fits ⊢
  omega

/-- The page is written, word by word, over erased bytes. -/
theorem flashWrite_eq (page : FlashPage) (pData : List UInt8) {size : ℕ} (some_ : 0 < size)
    (fits : size ≤ flashPageSize) :
    flashWrite page pData size = (programmed pData ((size + 3) / 4), true) := by
  have inside : ¬ stm32FlashEndAddress < flashWatermartAddress + size := by
    simp only [stm32FlashEndAddress, flashWatermartAddress, flashPageSize] at fits ⊢
    omega
  have erased : stm32FlashErase flashWatermartAddress flashPageSize =
      some (Block.fill flashPageSize 0xFF) := if_neg (by decide)
  rw [flashWrite, if_pos some_, erased]
  simp only [stm32FlashWrite, if_neg (by decide : ¬ flashWatermartAddress % 4 ≠ 0), if_neg inside,
    Nat.sub_self, programmed]

/-- The bytes that are programmed stand in front, and behind them all is erased. -/
theorem read_programmed (buf : List UInt8) (words size : ℕ) (enough : 4 * words ≤ buf.length)
    (fits : 4 * words ≤ flashPageSize) (inside : size ≤ flashPageSize) :
    (programmed buf words).read 0 size =
      (buf.take (4 * words)).take size ++ List.replicate (size - 4 * words) 0xFF := by
  have count : (buf.take (4 * words)).length = 4 * words := by
    rw [List.length_take]
    omega
  rw [programmed, Block.writePieces_eq _ _ _ _ _ enough]
  have front := Block.read_write_self (Block.fill flashPageSize (0xFF : UInt8)) 0
    (buf.take (4 * words)) (by rw [count]; omega)
  rw [count] at front
  rcases Nat.le_total size (4 * words) with short | long
  · rw [← Block.take_read _ 0 (4 * words) size short, front, Nat.sub_eq_zero_of_le short]
    simp
  · obtain ⟨rest, rfl⟩ := Nat.exists_eq_add_of_le long
    have back := Block.read_write_after (Block.fill flashPageSize (0xFF : UInt8)) 0
      (buf.take (4 * words)) (4 * words) rest (by rw [count, Nat.zero_add])
    have whole : (buf.take (4 * words)).take (4 * words + rest) = buf.take (4 * words) :=
      List.take_of_length_le (by rw [count]; omega)
    rw [Block.read_add, front, Nat.zero_add, back, Block.read_fill, Nat.add_sub_cancel_left, whole,
      Nat.min_eq_left (by omega)]

end WhaleShark
