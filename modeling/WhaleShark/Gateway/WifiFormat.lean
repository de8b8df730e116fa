import WhaleShark.Foundations.Escapes
import WhaleShark.Gateway.Configuration

/-!
# The escaped name and password

The name and the password of the access point go into a command of the module between quotes, and so
`MakeWifiFormat` puts a backslash in front of every byte that is neither a digit nor a letter, and of
`0`, `9` and the first and last letter of the alphabet. It rewrites the string in place, in an array
on the stack that has the size of the field, and `InitWifInformation` then copies as many bytes as the
field has. So a string that grows beyond the field is cut off. A byte from `0x80` on is not passed, so
that nothing behind it is escaped; and the body of the loop is run once for the empty string as well
(`escaping_is_faithful_iff`).
-/

set_option autoImplicit false

namespace WhaleShark

open Foundations

/-! ## `MakeWifiFormat` -/

/-- `\` -/
def backslash : UInt8 := 0x5C

/-- A byte that is passed as it is. -/
def isKept (b : UInt8) : Bool :=
  (0x30 < b && b < 0x39) || (0x41 < b && b < 0x5A) || (0x61 < b && b < 0x7A)

section

variable {n : ℕ}

/-- The body of the loop: the memory at `pData`, and `pos` in it. -/
def formatByte (pData : Block UInt8 n) (pos len : ℕ) : Block UInt8 n × ℕ :=
  let b := byteAt pData.cells pos
  if isKept b then (pData, pos + 1)
  else if b < 0x80 then
    let buf := pData.read pos len
    let pData := pData.write pos [backslash]
    (pData.write (pos + 1) buf, pos + 2)
  else (pData, pos)

/-- The loop, with `len`. -/
def formatLoop : ℕ → Block UInt8 n → ℕ → Block UInt8 n
  | 0, pData, pos => (formatByte pData pos 0).1
  | len + 1, pData, pos =>
      let (pData, pos) := formatByte pData pos (len + 1)
      if byteAt pData.cells pos ≠ 0 then formatLoop len pData pos else pData

/-- `MakeWifiFormat` -/
def makeWifiFormat (pData : Block UInt8 n) : Block UInt8 n :=
  formatLoop (rtStrlen pData.cells).toUInt8.toNat pData 0

end

/-- `wifiInfo.ssid` and `wifiInfo.password`. -/
structure WifiCredentials where
  ssid : Block UInt8 (32 + 32)
  password : Block UInt8 (64 + 64)

/-- What `InitWifInformation` does with the name and the password, with what the stack holds from its
two arrays on. -/
def initWifInformation (cfg : Config) (ssid : Block UInt8 (32 + 32))
    (password : Block UInt8 (64 + 64)) (wifiInfo : WifiCredentials) : WifiCredentials :=
  let ssid := ssid.write 0 (cfg.get .apSSID)
  let wifiInfo := { wifiInfo with ssid := wifiInfo.ssid.write 0 ((makeWifiFormat ssid).read 0 32) }
  let password := password.write 0 (cfg.get .apPassword)
  { wifiInfo with password := wifiInfo.password.write 0 ((makeWifiFormat password).read 0 64) }

/-! ## What the loop does -/

/-- A byte with what is put in front of it. -/
def formatted (b : UInt8) : List UInt8 := if isKept b then [b] else [backslash, b]

/-- The bytes that get a backslash. -/
def escapeCount (s : List UInt8) : ℕ := s.countP fun b => !isKept b

theorem length_formatted (s : List UInt8) :
    (s.flatMap formatted).length = s.length + escapeCount s := by
  induction s with
  | nil => rfl
  | cons b s ih =>
      rw [List.flatMap_cons, List.length_append, ih, escapeCount, escapeCount, List.countP_cons,
        formatted]
      cases isKept b with
      | true => simp; omega
      | false => simp; omega

section

variable {n : ℕ} {pData : Block UInt8 n} {front rest behind : List UInt8} {b : UInt8}

theorem byteAt_split (split : pData.cells = front ++ rest) :
    byteAt pData.cells front.length = byteAt rest 0 := by
  rw [split, byteAt_append_right le_rfl, Nat.sub_self]

/-- One byte of the string is passed, and takes its place from what is behind the string. -/
theorem formatByte_pass (split : pData.cells = front ++ (b :: rest ++ behind)) (ascii : b < 0x80)
    (room : escapeCount [b] ≤ behind.length) :
    (formatByte pData front.length (b :: rest).length).1.cells =
        front ++ (formatted b ++ (rest ++ behind.drop (escapeCount [b]))) ∧
      (formatByte pData front.length (b :: rest).length).2 = (front ++ formatted b).length := by
  have here : byteAt pData.cells front.length = b := byteAt_split split
  cases kept : isKept b with
  | true =>
      have none_ : escapeCount [b] = 0 := by simp [escapeCount, kept]
      have does : formatByte pData front.length (b :: rest).length = (pData, front.length + 1) := by
        simp only [formatByte, here, kept, if_true]
      rw [does, none_, List.drop_zero, split, formatted, kept]
      simp
  | false =>
      have one : escapeCount [b] = 1 := by simp [escapeCount, kept]
      rw [one] at room
      obtain ⟨c, behind, rfl⟩ := List.exists_cons_of_length_pos room
      have buf : pData.read front.length (b :: rest).length = b :: rest := pData.read_split split
      have first : (pData.write front.length [backslash]).cells =
          front ++ ([backslash] ++ (rest ++ c :: behind)) :=
        pData.cells_write_split front [b] split rfl
      have count : front.length + 1 = (front ++ [backslash]).length := by simp
      have second : ((pData.write front.length [backslash]).write (front ++ [backslash]).length
          (b :: rest)).cells = front ++ [backslash] ++ (b :: rest ++ behind) :=
        Block.cells_write_split _ (front ++ [backslash]) (rest ++ [c]) (by rw [first]; simp)
          (by simp)
      simp only [formatByte, here, kept, Bool.false_eq_true, if_false, if_pos ascii, buf, count,
        second, formatted, one]
      simp

/-- A byte from `0x80` on is not passed. -/
theorem formatLoop_high (split : pData.cells = front ++ (b :: rest)) (high : ¬ b < 0x80)
    (len : ℕ) : formatLoop len pData front.length = pData := by
  have here : byteAt pData.cells front.length = b := byteAt_split split
  have other : isKept b = false := by
    have low : 0x80 ≤ b.toNat := by
      rw [UInt8.lt_iff_toNat_lt] at high
      simpa using high
    simp only [isKept, Bool.or_eq_false_iff, Bool.and_eq_false_iff, decide_eq_false_iff_not,
      UInt8.lt_iff_toNat_lt]
    simp
    omega
  have stays (len : ℕ) : formatByte pData front.length len = (pData, front.length) := by
    simp only [formatByte, here, other, Bool.false_eq_true, if_false, if_neg high]
  induction len with
  | zero => rw [formatLoop, stays]
  | succ len ih =>
      rw [formatLoop, stays]
      dsimp only
      split
      · exact ih
      · rfl

/-- What stands behind the string afterwards: what stood there, unless the loop goes on behind the
string. -/
def Follows (rest old new : List UInt8) : Prop :=
  new = old ∨ rest = [] ∧ byteAt old 0 ≠ 0 ∧ byteAt new 0 ≠ 0

/-- The loop may look at one byte behind the string. -/
theorem formatLoop_zero (split : pData.cells = front ++ behind) (some_ : byteAt behind 0 ≠ 0) :
    ∃ new, (formatLoop 0 pData front.length).cells = front ++ new ∧ Follows [] behind new := by
  obtain ⟨b, behind, rfl⟩ : ∃ b more, behind = b :: more := by
    cases behind with
    | nil => exact absurd rfl some_
    | cons b behind => exact ⟨b, behind, rfl⟩
  have here : byteAt pData.cells front.length = b := byteAt_split split
  by_cases escapes : isKept b = false ∧ b < 0x80
  · have written : (pData.write front.length [backslash]).cells =
        front ++ ([backslash] ++ behind) := pData.cells_write_split front [b] split rfl
    refine ⟨backslash :: behind, ?_, .inr ⟨rfl, some_, by show backslash ≠ 0; decide⟩⟩
    simp only [formatLoop, formatByte, here, escapes.1, Bool.false_eq_true, if_false,
      if_pos escapes.2, Block.read_zero_length, Block.write_nil, written]
    rfl
  · refine ⟨b :: behind, ?_, .inl rfl⟩
    simp only [formatLoop, formatByte, here]
    by_cases kept : isKept b = true
    · rw [if_pos kept, split]
    · have high : ¬ b < 0x80 := fun low => escapes ⟨by simpa using kept, low⟩
      rw [if_neg kept, if_neg high, split]

/-- **What the loop does with a string**: the bytes before the first one from `0x80` on are
escaped, and what is behind the string is pushed over. -/
theorem formatLoop_eq {ascii high : List UInt8} (low : ∀ b ∈ ascii, b < 0x80)
    (noNul : ∀ b ∈ ascii ++ high, b ≠ 0) (first : ∀ b ∈ high.head?, ¬ b < 0x80)
    (some_ : ascii ++ high ≠ []) (room : escapeCount ascii ≤ behind.length)
    (split : pData.cells = front ++ (ascii ++ high ++ behind)) :
    ∃ new, (formatLoop (ascii ++ high).length pData front.length).cells =
        front ++ (ascii.flatMap formatted ++ (high ++ new)) ∧
      Follows high (behind.drop (escapeCount ascii)) new := by
  induction ascii generalizing pData front behind with
  | nil =>
      obtain ⟨b, high, rfl⟩ := List.exists_cons_of_ne_nil some_
      have opens : pData.cells = front ++ (b :: (high ++ behind)) := by simpa using split
      have stays := formatLoop_high opens (first b rfl) (([] : List UInt8) ++ b :: high).length
      rw [stays]
      exact ⟨behind, split, .inl rfl⟩
  | cons b ascii ih =>
      obtain ⟨lowHere, lowLater⟩ := List.forall_mem_cons.mp low
      have count : escapeCount (b :: ascii) = escapeCount [b] + escapeCount ascii := by
        rw [escapeCount, ← List.singleton_append, List.countP_append]
        rfl
      have opens : pData.cells = front ++ (b :: (ascii ++ high) ++ behind) := split
      obtain ⟨memory, pos⟩ := formatByte_pass opens lowHere (by omega)
      have step : formatLoop (b :: ascii ++ high).length pData front.length =
          if byteAt (formatByte pData front.length (b :: (ascii ++ high)).length).1.cells
              (front ++ formatted b).length ≠ 0 then
            formatLoop (ascii ++ high).length
              (formatByte pData front.length (b :: (ascii ++ high)).length).1
              (front ++ formatted b).length
          else (formatByte pData front.length (b :: (ascii ++ high)).length).1 := by
        rw [← pos]
        rfl
      generalize formatByte pData front.length (b :: (ascii ++ high)).length = passed at memory step
      have memory : passed.1.cells =
          front ++ formatted b ++ (ascii ++ high ++ behind.drop (escapeCount [b])) :=
        memory.trans (List.append_assoc _ _ _).symm
      have here := byteAt_split memory
      rw [step, here]
      by_cases last : ascii ++ high = []
      · -- the string has ended
        obtain ⟨rfl, rfl⟩ := List.append_eq_nil_iff.mp last
        have none_ : escapeCount ([] : List UInt8) = 0 := rfl
        rw [count, none_, Nat.add_zero]
        simp only [List.append_nil, List.nil_append, List.flatMap_cons, List.flatMap_nil,
          List.length_nil] at memory ⊢
        split
        · rename_i goesOn
          obtain ⟨new, does, follows⟩ := formatLoop_zero memory goesOn
          exact ⟨new, by rw [does, List.append_assoc], follows⟩
        · exact ⟨_, by rw [memory, List.append_assoc], .inl rfl⟩
      · have goesOn : byteAt (ascii ++ high ++ behind.drop (escapeCount [b])) 0 ≠ 0 := by
          have inside : 0 < (ascii ++ high).length := List.length_pos_iff.mpr last
          rw [byteAt_append_left inside]
          exact noNul _ (List.mem_cons_of_mem b (byteAt_mem inside))
        obtain ⟨new, does, follows⟩ := ih lowLater
          (fun c member => noNul c (List.mem_cons_of_mem b member)) last
          (by rw [List.length_drop]; omega) memory
        rw [if_pos goesOn]
        refine ⟨new, ?_, ?_⟩
        · rw [does, List.flatMap_cons, List.append_assoc, List.append_assoc]
        · rwa [List.drop_drop, ← count] at follows

/-- The empty string gets a backslash as well. -/
theorem formatLoop_nul (split : pData.cells = 0 :: behind) :
    (formatLoop 0 pData 0).cells = backslash :: behind := by
  have here : byteAt pData.cells 0 = 0 := by rw [split]; rfl
  have kept : isKept 0 = false := by decide
  have written : (pData.write 0 [backslash]).cells = backslash :: behind :=
    pData.cells_write_split [] [0] split rfl
  simp only [formatLoop, formatByte, here, kept, Bool.false_eq_true, if_false,
    if_pos (by decide : (0 : UInt8) < 0x80), Block.read_zero_length, Block.write_nil, written]

end

/-! ## What is placed -/

/-- A byte that must be escaped between quotes. -/
def IsSpecial (b : UInt8) : Prop := b = 0x22 ∨ b = 0x2C ∨ b = backslash

instance (b : UInt8) : Decidable (IsSpecial b) := inferInstanceAs (Decidable (_ ∨ _ ∨ _))

/-- The string is placed with a backslash in front of some bytes, and of all special ones. -/
abbrev Faithful (s placed : List UInt8) : Prop := Escapes backslash IsSpecial s placed

/-- The bytes that are passed, before the first one from `0x80` on. -/
def passed (s : List UInt8) : List UInt8 := s.takeWhile fun b => b < 0x80

/-- The bytes from there on. -/
def stuck (s : List UInt8) : List UInt8 := s.dropWhile fun b => b < 0x80

/-- The length of a string when it is escaped. -/
def escapedLength (s : List UInt8) : ℕ := s.length + escapeCount (passed s)

/-- How a field must be for its string to be escaped: the string is not empty, the escaped one has
room in the field, and where the escaping gets stuck, nothing special follows, but for as many
backslashes as the field holds behind that room. -/
structure FormatsWell (field : List UInt8) : Prop where
  some_ : cString field ≠ []
  fits : escapedLength (cString field) ≤ field.length
  behind : ∃ k ordinary, stuck (cString field) = ordinary ++ List.replicate k backslash ∧
    cString (field.drop (escapedLength (cString field))) = List.replicate k backslash ∧
    ∀ b ∈ ordinary, ¬ IsSpecial b

theorem isSpecial_backslash : IsSpecial backslash := .inr (.inr rfl)

theorem passed_append_stuck (s : List UInt8) : passed s ++ stuck s = s :=
  List.takeWhile_append_dropWhile

/-- What is passed is escaped. -/
theorem faithful_formatted (s : List UInt8) : Faithful s (s.flatMap formatted) := by
  induction s with
  | nil => exact .nil
  | cons b s ih =>
      rw [List.flatMap_cons, formatted]
      cases kept : isKept b with
      | true =>
          refine .plain ?_ ih
          rintro (rfl | rfl | rfl) <;> exact absurd kept (by decide)
      | false => exact .escaped ih

theorem formatted_ne_zero {s : List UInt8} (noNul : ∀ b ∈ s, b ≠ 0) :
    ∀ b ∈ s.flatMap formatted, b ≠ 0 := by
  intro b member
  obtain ⟨c, inside, here⟩ := List.mem_flatMap.mp member
  rw [formatted] at here
  split at here
  · rw [List.mem_singleton] at here
    exact here ▸ noNul c inside
  · rcases List.mem_cons.mp here with rfl | here
    · decide
    · rw [List.mem_singleton] at here
      exact here ▸ noNul c inside

/-- A string that is cut off is not placed faithfully. -/
theorem not_faithful_of_cut {s : List UInt8} {size : ℕ} (cut : size < escapedLength s) :
    ¬ Faithful s (((passed s).flatMap formatted ++ stuck s).take size) := by
  intro faithful
  have whole : (passed s).length + (stuck s).length = s.length := by
    rw [← List.length_append, passed_append_stuck]
  have length := length_formatted (passed s)
  rw [escapedLength] at cut
  rw [List.take_append] at faithful
  rcases Nat.lt_or_ge size ((passed s).flatMap formatted).length with inside | beyond
  · -- what is left is the beginning of what is passed
    rw [Nat.sub_eq_zero_of_le (Nat.le_of_lt inside), List.take_zero, List.append_nil] at faithful
    obtain ⟨s', out', front, back, rest⟩ := faithful.of_prefix isSpecial_backslash
      (faithful_formatted (passed s)) (List.take_prefix _ _)
    have none_ : s' = [] := by
      have count := congrArg List.length front
      rw [List.length_append] at count
      exact List.length_eq_zero_iff.mp (by omega)
    rw [none_] at rest
    have empty := escapes_nil_iff.mp rest
    have count := congrArg List.length back
    rw [empty, List.append_nil, List.length_take] at count
    omega
  · rw [List.take_of_length_le beyond] at faithful
    have taken : Faithful (passed s ++ stuck s) ((passed s).flatMap formatted ++
          (stuck s).take (size - ((passed s).flatMap formatted).length)) ↔
        Faithful (stuck s) ((stuck s).take (size - ((passed s).flatMap formatted).length)) :=
      (faithful_formatted (passed s)).append_iff isSpecial_backslash
    rw [passed_append_stuck] at taken
    have short := (taken.mp faithful).length_le
    rw [List.length_take] at short
    omega

/-- What follows decides as what stood there. -/
theorem faithful_congr_of_follows {high old new : List UInt8} (follows : Follows high old new)
    (m : ℕ) :
    Faithful high (high ++ cString (new.take m)) ↔ Faithful high (high ++ cString (old.take m)) := by
  rcases follows with rfl | ⟨rfl, before, after⟩
  · exact Iff.rfl
  · have empty (t : List UInt8) (some_ : byteAt t 0 ≠ 0) : cString (t.take m) = [] ↔ m = 0 := by
      cases t with
      | nil => exact absurd rfl some_
      | cons b t =>
          have notNul : b ≠ 0 := some_
          cases m with
          | zero => simp [cString_nil]
          | succ m => simp [cString_cons, notNul]
    rw [List.nil_append, List.nil_append]
    exact escapes_nil_iff.trans (((empty new after).trans (empty old before).symm).trans
      escapes_nil_iff.symm)

theorem formatsWell_iff (field : List UInt8) :
    FormatsWell field ↔ cString field ≠ [] ∧ escapedLength (cString field) ≤ field.length ∧
      Faithful (stuck (cString field))
        (stuck (cString field) ++ cString (field.drop (escapedLength (cString field)))) := by
  rw [Faithful, escapes_self_append_iff isSpecial_backslash]
  exact ⟨fun ⟨some_, fits, behind⟩ => ⟨some_, fits, behind⟩,
    fun ⟨some_, fits, behind⟩ => ⟨some_, fits, behind⟩⟩

section

variable {s behind : List UInt8} (noNul : ∀ b ∈ s, b ≠ 0)

include noNul

/-- The part of the memory that is copied. -/
theorem faithful_take_iff (size : ℕ) (new : List UInt8) :
    Faithful s (cString (((passed s).flatMap formatted ++ (stuck s ++ new)).take size)) ↔
      escapedLength s ≤ size ∧
        Faithful (stuck s) (stuck s ++ cString (new.take (size - escapedLength s))) := by
  have lengths : ((passed s).flatMap formatted).length + (stuck s).length = escapedLength s := by
    have parts := congrArg List.length (passed_append_stuck s)
    rw [List.length_append] at parts
    rw [length_formatted, escapedLength]
    omega
  have noNulPassed : ∀ b ∈ (passed s).flatMap formatted, b ≠ 0 :=
    formatted_ne_zero fun b member => noNul b ((List.takeWhile_prefix _).subset member)
  have noNulStuck : ∀ b ∈ stuck s, b ≠ 0 := fun b member =>
    noNul b ((List.dropWhile_suffix _).subset member)
  rcases Nat.lt_or_ge size (escapedLength s) with cut | fits
  · have string : cString (((passed s).flatMap formatted ++ (stuck s ++ new)).take size) =
        ((passed s).flatMap formatted ++ stuck s).take size := by
      rw [← List.append_assoc, List.take_append_of_le_length (by rw [List.length_append]; omega)]
      refine List.takeWhile_eq_self_iff.mpr fun b member => ?_
      rcases List.mem_append.mp (List.mem_of_mem_take member) with inside | inside
      · simpa using noNulPassed b inside
      · simpa using noNulStuck b inside
    rw [string]
    constructor
    · exact fun faithful => absurd faithful (not_faithful_of_cut cut)
    · exact fun both => absurd both.1 (Nat.not_le_of_lt cut)
  · have string : cString (((passed s).flatMap formatted ++ (stuck s ++ new)).take size) =
        (passed s).flatMap formatted ++
          (stuck s ++ cString (new.take (size - escapedLength s))) := by
      rw [List.take_append, List.take_of_length_le (by omega), List.take_append,
        List.take_of_length_le (by omega), cString_append noNulPassed, cString_append noNulStuck,
        Nat.sub_sub, lengths]
    have taken : Faithful (passed s ++ stuck s) ((passed s).flatMap formatted ++
          (stuck s ++ cString (new.take (size - escapedLength s)))) ↔
        Faithful (stuck s) (stuck s ++ cString (new.take (size - escapedLength s))) :=
      (faithful_formatted (passed s)).append_iff isSpecial_backslash
    rw [passed_append_stuck] at taken
    rw [string]
    exact taken.trans ⟨fun faithful => ⟨fits, faithful⟩, And.right⟩

variable {n : ℕ} {memory : Block UInt8 n}

/-- `MakeWifiFormat` counts the string in a byte. -/
theorem makeWifiFormat_count (small : s.length < 256) (ended : byteAt behind 0 = 0)
    (split : memory.cells = s ++ behind) :
    makeWifiFormat memory = formatLoop s.length memory 0 := by
  have string : cString memory.cells = s := by
    rw [split, cString_eq_iff noNul, byteAt_append_right le_rfl, Nat.sub_self]
    exact ⟨List.prefix_append _ _, ended⟩
  have count : s.length.toUInt8.toNat = s.length := by
    simp only [Nat.toUInt8_eq, UInt8.toNat_ofNat']
    omega
  rw [makeWifiFormat, rtStrlen, string, count]

/-- What `MakeWifiFormat` makes of a string. -/
theorem makeWifiFormat_eq (small : s.length < 256) (ended : byteAt behind 0 = 0)
    (split : memory.cells = s ++ behind) (some_ : s ≠ [])
    (room : escapeCount (passed s) ≤ behind.length) :
    ∃ new, (makeWifiFormat memory).cells =
        (passed s).flatMap formatted ++ (stuck s ++ new) ∧
      Follows (stuck s) (behind.drop (escapeCount (passed s))) new := by
  have parts : memory.cells = [] ++ (passed s ++ stuck s ++ behind) := by
    rw [passed_append_stuck, List.nil_append, split]
  have low : ∀ b ∈ passed s, b < 0x80 := fun b member => by
    simpa using List.mem_takeWhile_imp member
  have first : ∀ b ∈ (stuck s).head?, ¬ b < 0x80 := fun b member => by
    have stops := List.head?_dropWhile_not (fun b : UInt8 => decide (b < 0x80)) s
    rw [stuck] at member
    rw [Option.mem_def.mp member] at stops
    simpa using stops
  have does := formatLoop_eq low (by rwa [passed_append_stuck]) first (by rwa [passed_append_stuck])
    room parts
  rw [passed_append_stuck] at does
  rw [makeWifiFormat_count noNul small ended split]
  exact does

end

section

variable {size : ℕ}

/-- The array on the stack, and what is behind it. -/
theorem cells_array {field : List UInt8} (length : field.length = size)
    (stack : Block UInt8 (size + size)) :
    (stack.write 0 field).cells = field ++ stack.cells.drop size := by
  have count : field.length = (stack.cells.take size).length := by
    rw [List.length_take, stack.length_cells, length]
    omega
  exact stack.cells_write_split [] _ (List.take_append_drop size stack.cells).symm count

/-- What is copied has zeros behind it. -/
theorem cString_copied (some_ : 0 < size) (memory : Block UInt8 (size + size)) :
    cString ((Block.fill (size + size) 0).write 0 (memory.read 0 size)).cells =
      cString (memory.cells.take size) := by
  have count : (memory.read 0 size).length = (List.replicate size (0 : UInt8)).length := by
    rw [Block.length_read, List.length_replicate]
    omega
  have halves : (Block.fill (size + size) (0 : UInt8)).cells =
      [] ++ (List.replicate size 0 ++ List.replicate size 0) := by
    rw [Block.fill, List.nil_append, List.replicate_append_replicate]
  have zeros : ((Block.fill (size + size) 0).write 0 (memory.read 0 size)).cells =
      memory.read 0 size ++ List.replicate size 0 :=
    Block.cells_write_split _ [] _ halves count
  obtain ⟨more, same⟩ := Nat.exists_eq_succ_of_ne_zero (Nat.ne_of_gt some_)
  have nul : List.replicate size (0 : UInt8) = 0 :: List.replicate more 0 := by
    rw [same, List.replicate_succ]
  rw [zeros, nul, cString_append_nul]
  rfl

/-- **A field is placed faithfully** exactly when it is as it must be. -/
theorem faithful_iff (small : size ≤ 128) {field : List UInt8} (length : field.length = size)
    (short : (cString field).length < size) (stack : Block UInt8 (size + size)) :
    Faithful (cString field) (cString ((Block.fill (size + size) 0).write 0
        ((makeWifiFormat (stack.write 0 field)).read 0 size)).cells) ↔ FormatsWell field := by
  have noNul : ∀ b ∈ cString field, b ≠ 0 := fun b member => ne_zero_of_mem_cString member
  obtain ⟨⟨behind, whole⟩, nul⟩ := (cString_eq_iff noNul field).mp rfl
  have array := cells_array length stack
  have stackLength : (stack.cells.drop size).length = size := by
    rw [List.length_drop, stack.length_cells]
    omega
  rw [formatsWell_iff, cString_copied (Nat.zero_lt_of_lt short)]
  generalize stack.write 0 field = memory at array
  generalize stack.cells.drop size = behindArray at array stackLength
  generalize cString field = s at noNul whole nul short
  rw [← whole, List.append_assoc] at array
  have count : s.length + behind.length = size := by rw [← length, ← whole, List.length_append]
  have ended : byteAt (behind ++ behindArray) 0 = 0 := by
    rw [← whole, byteAt_append_right le_rfl, Nat.sub_self] at nul
    rw [byteAt_append_left (by omega), nul]
  by_cases some_ : s = []
  · -- the empty string gets a backslash
    subst some_
    obtain ⟨b, more, same⟩ := List.exists_cons_of_length_pos (show 0 < behind.length by omega)
    have zero : b = 0 := by rwa [same] at ended
    rw [same, zero, List.nil_append] at array
    obtain ⟨left, positive⟩ : ∃ left, size = left + 1 :=
      Nat.exists_eq_succ_of_ne_zero (Nat.ne_of_gt (Nat.zero_lt_of_lt short))
    have notNul : backslash ≠ 0 := by decide
    have placed : cString ((makeWifiFormat memory).cells.take size) ≠ [] := by
      rw [makeWifiFormat_count (s := []) noNul (by decide) rfl array, List.length_nil,
        formatLoop_nul array]
      rw [positive, List.take_succ_cons, cString_cons, if_neg notNul]
      exact List.cons_ne_nil _ _
    constructor
    · exact fun faithful => absurd (escapes_nil_iff.mp faithful) placed
    · exact fun all => absurd rfl all.1
  · have notMany : escapeCount (passed s) ≤ s.length :=
      Nat.le_trans List.countP_le_length (List.takeWhile_prefix _).length_le
    obtain ⟨new, does, follows⟩ := makeWifiFormat_eq noNul (by omega) ended array some_
      (by rw [List.length_append, stackLength]; omega)
    rw [does, faithful_take_iff noNul, faithful_congr_of_follows follows, length]
    have stale (fits : escapedLength s ≤ size) :
        ((behind ++ behindArray).drop (escapeCount (passed s))).take
          (size - escapedLength s) = field.drop (escapedLength s) := by
      rw [escapedLength] at fits ⊢
      rw [← whole, ← List.drop_drop, List.drop_left, List.drop_append_of_le_length (by omega)]
      refine List.take_left' ?_
      rw [List.length_drop]
      omega
    constructor
    · rintro ⟨fits, faithful⟩
      exact ⟨some_, fits, stale fits ▸ faithful⟩
    · rintro ⟨-, fits, faithful⟩
      exact ⟨fits, (stale fits).symm ▸ faithful⟩

end

/-- `wifiInfo` before anything has been placed. -/
def freshWifiInfo : WifiCredentials := ⟨Block.fill _ 0, Block.fill _ 0⟩

/-- The name and the password are placed so that they can be read back. -/
def PlacesFaithfully (cfg : Config) (wifiInfo : WifiCredentials) : Prop :=
  Faithful (cString (cfg.get .apSSID)) (cString wifiInfo.ssid.cells) ∧
    Faithful (cString (cfg.get .apPassword)) (cString wifiInfo.password.cells)

/-- **The name and the password are placed faithfully exactly when** neither is empty, both have room
in their fields when they are escaped, and nothing special follows a byte from `0x80` on. -/
theorem escaping_is_faithful_iff (cfg : Config)
    (ssidEnds : (cString (cfg.get .apSSID)).length < 32)
    (passwordEnds : (cString (cfg.get .apPassword)).length < 64)
    (ssid : Block UInt8 (32 + 32)) (password : Block UInt8 (64 + 64)) :
    PlacesFaithfully cfg (initWifInformation cfg ssid password freshWifiInfo) ↔
      FormatsWell (cfg.get .apSSID) ∧ FormatsWell (cfg.get .apPassword) := by
  have length (f : ConfigField) (inside : f.offset + f.length ≤ configSize) :
      (cfg.get f).length = f.length := by
    rw [Config.get, Block.length_read]
    omega
  exact and_congr (faithful_iff (by decide) (length .apSSID (by decide)) ssidEnds ssid)
    (faithful_iff (by decide) (length .apPassword (by decide)) passwordEnds password)

theorem escaping_is_faithful_iff_factory :
    PlacesFaithfully factoryConfig
      (initWifInformation factoryConfig (Block.fill _ 0xA5) (Block.fill _ 0xA5) freshWifiInfo) :=
  (escaping_is_faithful_iff factoryConfig (by decide +kernel) (by decide +kernel) _ _).mpr
    ⟨⟨by decide +kernel, by decide +kernel, 0, [], by decide +kernel, by decide +kernel, by simp⟩,
      ⟨by decide +kernel, by decide +kernel, 0, [], by decide +kernel, by decide +kernel, by simp⟩⟩

/-- A configuration with this name and password. -/
def configWith (ssid password : List UInt8) : Config :=
  (((Block.fill configSize 0).write ConfigField.apSSID.offset ssid).write
    ConfigField.apPassword.offset password)

/-- **An empty name becomes a backslash, a comma behind a byte from `0x80` on is not escaped, and a
password of 40 commas is cut off.** -/
theorem empty_name_is_not_kept :
    (∀ ssid password, ¬ PlacesFaithfully (configWith [] (text "secret"))
      (initWifInformation (configWith [] (text "secret")) ssid password freshWifiInfo)) ∧
    (∀ ssid password, ¬ PlacesFaithfully (configWith [0xE9, 0x2C] (text "secret"))
      (initWifInformation (configWith [0xE9, 0x2C] (text "secret")) ssid password freshWifiInfo)) ∧
    ∀ ssid password, ¬ PlacesFaithfully (configWith (text "lab") (List.replicate 40 0x2C))
      (initWifInformation (configWith (text "lab") (List.replicate 40 0x2C)) ssid password
        freshWifiInfo) := by
  refine ⟨fun ssid password places => ?_, fun ssid password places => ?_,
    fun ssid password places => ?_⟩
  · have formats :=
      (faithful_iff (by decide) (by decide +kernel) (by decide +kernel) ssid).mp places.1
    exact absurd formats.some_ (by decide +kernel)
  · have formats :=
      (faithful_iff (by decide) (by decide +kernel) (by decide +kernel) ssid).mp places.1
    obtain ⟨k, ordinary, follows, stale, none_⟩ := formats.behind
    have nothing : cString ((Config.get (configWith [0xE9, 0x2C] (text "secret")) .apSSID).drop
        (escapedLength (cString (Config.get (configWith [0xE9, 0x2C] (text "secret")) .apSSID)))) =
          [] := by decide +kernel
    have rest : stuck (cString (Config.get (configWith [0xE9, 0x2C] (text "secret")) .apSSID)) =
        [0xE9, 0x2C] := by decide +kernel
    obtain rfl : k = 0 := by
      have count := congrArg List.length (nothing.symm.trans stale)
      simpa using count.symm
    rw [rest, List.replicate_zero, List.append_nil] at follows
    exact none_ 0x2C (by rw [← follows]; decide) (.inr (.inl rfl))
  · have formats := (faithful_iff (by decide) (by decide +kernel) (by decide +kernel)
      password).mp places.2
    exact absurd formats.fits (by decide +kernel)

end WhaleShark
