import WhaleShark.Gateway.ApCommand

/-!
# The command for the server

`AT+STCP=ip/port` should set the address and the port of the server, and any other value should
change neither (`SetsTcp`). `OnSetTcp` copies the value into an array of 32 bytes that it does not
clear, and takes what stands in the array up to the first `/` for the address and what stands behind
it for the port, in the value or not. So an address and a port that fit are set when the digits with
which the stack goes on leave the number what it is, and any other value changes nothing only when it
reads, with the stack behind it, as the address and the port that are stored (`sets_tcp_iff`).
-/

set_option autoImplicit false

namespace WhaleShark

open Foundations

/-! ## What the command should do -/

/-- The value is an address, `/` and a port. -/
structure IsTcpValue (v ip : List UInt8) (port : UInt16) : Prop where
  some_ : ip ≠ []
  short : ip.length < ConfigField.destIp.length
  letters : ∀ b ∈ ip, b ≠ 0 ∧ b ≠ slash
  value : ∃ digits, v = ip ++ slash :: digits ∧ digits ≠ [] ∧ (∀ b ∈ digits, isDigit b = true) ∧
    decimal digits = port.toNat

/-- What the command leaves is what its value says, and no more than the field holds is handed to
`SetTcpIP`. -/
structure SetsTcp (stack v : List UInt8) (s : Ram) (after : Option Ram) : Prop where
  sets : ∃ s', after = some s' ∧
    (∀ ip port, IsTcpValue v ip port →
      cString (s'.at_ .destIp) = ip ∧ s'.get .destPort = leBytes16 port) ∧
    ((∀ ip port, ¬ IsTcpValue v ip port) →
      s'.get .destIp = s.get .destIp ∧ s'.get .destPort = s.get .destPort)
  size : v ≠ [] → ∀ ip port, Ram.tcpArguments stack v = some (ip, port) →
    ip.length ≤ ConfigField.destIp.length

/-- What stands behind the slash of a value are the digits of its port. -/
theorem IsTcpValue.digits {v ip digits : List UInt8} {port : UInt16} (valid : IsTcpValue v ip port)
    (split : v = ip ++ slash :: digits) :
    digits ≠ [] ∧ (∀ b ∈ digits, isDigit b = true) ∧ decimal digits = port.toNat := by
  obtain ⟨-, -, -, digits', split', nonempty, row, number⟩ := valid
  obtain ⟨-, rfl⟩ := List.cons.inj (List.append_cancel_left (split.symm.trans split'))
  exact ⟨nonempty, row, number⟩

/-! ## How the array is read -/

/-- The value fits into the array, and the array and the stack behind it read as slashes, the text
`t`, a slash that lies in the array, and a string that begins `r`. -/
structure TcpReads (stack v t r : List UInt8) : Prop where
  fits : v.length ≤ buffSize
  some_ : t ≠ []
  letters : ∀ b ∈ t, b ≠ 0 ∧ b ≠ slash
  rest : byteAt r 0 ≠ 0
  memory : ∃ slashes, (∀ b ∈ slashes, b = slash) ∧
    v ++ stack.drop v.length = slashes ++ (t ++ slash :: r) ∧ slashes.length + t.length < buffSize

theorem text_slash : text "/" = [slash] := by decide +kernel

theorem strtok_null (size : ℕ) (memory delim : List UInt8) :
    strtok size memory none delim = some ⟨none, memory, none⟩ := rfl

/-- Without delimiters the rest of the string is one token. -/
theorem strtok_rest (size : ℕ) (front r : List UInt8) :
    strtok size (front ++ r) (some front.length) [] =
      some ⟨if byteAt r 0 = 0 then none else some front.length, front ++ r, none⟩ := by
  obtain ⟨leading, token, rest, rfl, splits⟩ := exists_splits [] r
  have none_ : leading = [] := by
    cases leading with
    | nil => rfl
    | cons b leading => exact absurd (splits.leads b List.mem_cons_self).2 List.not_mem_nil
  subst none_
  have ended : byteAt rest 0 = 0 := splits.ends.resolve_right fun both => List.not_mem_nil both.2
  rw [strtok_eq splits size front]
  cases token with
  | nil => rw [if_pos rfl, List.nil_append, List.nil_append, if_pos ended]
  | cons b token =>
      have notNul : byteAt ([] ++ (b :: token ++ rest)) 0 ≠ 0 :=
        (splits.inside b List.mem_cons_self).1
      rw [if_neg (List.cons_ne_nil b token), if_pos ended, if_neg notNul]
      rfl

/-- What is handed on is what is read. -/
theorem TcpReads.tcpArguments {stack v t r : List UInt8} (reads : TcpReads stack v t r) :
    Ram.tcpArguments stack v = some (t ++ [0], r) := by
  obtain ⟨fits, some_, letters, rest, slashes, all, memory, inside⟩ := reads
  have splits : Splits (text "/") slashes t (slash :: r) := by
    rw [text_slash]
    refine ⟨fun b member => ?_, fun b member => ?_, .inr ⟨some_, List.mem_singleton_self slash⟩⟩
    · rw [all b member]
      exact ⟨by decide, List.mem_singleton_self slash⟩
    · rw [List.mem_singleton]
      exact letters b member
  have notNul : byteAt (slash :: r) 0 ≠ 0 := by
    show slash ≠ 0
    decide
  have first := strtok_eq splits buffSize []
  rw [if_neg some_, if_neg notNul, if_neg (by simpa using inside)] at first
  simp only [List.nil_append, List.length_nil, Nat.zero_add, List.tail_cons] at first
  have count : slashes.length + t.length + 1 = (slashes ++ (t ++ [0])).length := by
    simp [Nat.add_assoc]
  have apart : slashes ++ (t ++ 0 :: r) = slashes ++ (t ++ [0]) ++ r := by simp
  have second := strtok_rest buffSize (slashes ++ (t ++ [0])) r
  rw [← count, ← apart, if_neg rest] at second
  have ip : ((slashes ++ (t ++ 0 :: r)).drop slashes.length).take
      (slashes.length + t.length + 1 - slashes.length) = t ++ [0] := by
    have length : slashes.length + t.length + 1 - slashes.length = (t ++ [0]).length := by
      rw [List.length_append, List.length_singleton]
      omega
    have split : t ++ 0 :: r = t ++ [0] ++ r := by simp
    rw [List.drop_left, length, split, List.take_left]
  have port : (slashes ++ (t ++ 0 :: r)).drop (slashes.length + t.length + 1) = r := by
    rw [apart, count, List.drop_left]
  have text_ : strtok buffSize (slashes ++ (t ++ slash :: r)) (some 0) (text "/") =
      some ⟨some slashes.length, slashes ++ (t ++ 0 :: r),
        some (slashes.length + t.length + 1)⟩ := first
  rw [Ram.tcpArguments, if_neg (Nat.not_lt_of_le fits)]
  simp only [memory, text_, second, Option.bind_some, Option.map_some, ip, port]

/-- Nothing else is handed on. -/
theorem exists_tcpReads {stack v : List UInt8} {arguments : List UInt8 × List UInt8}
    (handed : Ram.tcpArguments stack v = some arguments) : ∃ t r, TcpReads stack v t r := by
  rw [Ram.tcpArguments] at handed
  split at handed
  · cases handed
  rename_i fits
  obtain ⟨leading, token, rest, whole, splits⟩ :=
    exists_splits (text "/") (v ++ stack.drop v.length)
  have first := strtok_eq splits buffSize []
  simp only [List.nil_append, List.length_nil, Nat.zero_add] at first
  rw [whole] at handed
  by_cases empty : token = []
  · rw [if_pos empty] at first
    simp only [first, Option.bind_some, strtok_null, Option.bind_none] at handed
    cases handed
  by_cases ended : byteAt rest 0 = 0
  · rw [if_neg empty, if_pos ended] at first
    simp only [first, Option.bind_some, strtok_null, Option.map_none] at handed
    cases handed
  by_cases past : buffSize ≤ leading.length + token.length
  · rw [if_neg empty, if_neg ended, if_pos past] at first
    simp only [first, Option.bind_none] at handed
    cases handed
  rw [if_neg empty, if_neg ended, if_neg past] at first
  obtain ⟨b, r, rfl⟩ : ∃ b r, rest = b :: r := by
    cases rest with
    | nil => exact absurd rfl ended
    | cons b r => exact ⟨b, r, rfl⟩
  have here : b = slash := by
    have delim := (splits.ends.resolve_left ended).2
    rw [text_slash] at delim
    exact List.mem_singleton.mp delim
  refine ⟨token, r, Nat.le_of_not_lt fits, empty, fun c member => ?_, ?_, leading,
    fun c member => ?_, by rw [whole, here], Nat.lt_of_not_le past⟩
  · have inside := splits.inside c member
    rwa [text_slash, List.mem_singleton] at inside
  · -- an empty rest gives no port
    intro none_
    have count : leading.length + token.length + 1 = (leading ++ (token ++ [0])).length := by
      simp [Nat.add_assoc]
    have apart : leading ++ (token ++ 0 :: r) = leading ++ (token ++ [0]) ++ r := by simp
    have second := strtok_rest buffSize (leading ++ (token ++ [0])) r
    rw [← count, ← apart, if_pos none_] at second
    have text_ : strtok buffSize (leading ++ (token ++ b :: r)) (some 0) (text "/") =
        some ⟨some leading.length, leading ++ (token ++ 0 :: r),
          some (leading.length + token.length + 1)⟩ := first
    simp only [text_, second, Option.bind_some, Option.map_none] at handed
    cases handed
  · have delim := (splits.leads c member).2
    rw [text_slash] at delim
    exact List.mem_singleton.mp delim

/-- The array reads as the address and the digits of the value, which the stack continues. -/
theorem TcpReads.eq_value {stack v t r ip digits : List UInt8} {port : UInt16}
    (reads : TcpReads stack v t r) (valid : IsTcpValue v ip port)
    (split : v = ip ++ slash :: digits) :
    t = ip ∧ r = digits ++ stack.drop v.length := by
  obtain ⟨-, some_, letters, -, slashes, all, memory, -⟩ := reads
  obtain ⟨someIp, -, lettersIp, -⟩ := valid
  have whole : v ++ stack.drop v.length = ip ++ slash :: (digits ++ stack.drop v.length) := by
    conv_lhs => rw [split]
    simp [split]
  rw [whole] at memory
  -- the value does not begin with a slash
  have none_ : slashes = [] := by
    cases slashes with
    | nil => rfl
    | cons b slashes =>
        obtain ⟨c, ip, rfl⟩ := List.exists_cons_of_ne_nil someIp
        obtain ⟨rfl, -⟩ := List.cons.inj memory
        exact absurd (all c List.mem_cons_self) (lettersIp c List.mem_cons_self).2
  rw [none_, List.nil_append] at memory
  have apart : slash ∉ t := fun inside => (letters slash inside).2 rfl
  have apartIp : slash ∉ ip := fun inside => (lettersIp slash inside).2 rfl
  obtain ⟨same, behind⟩ := InLines.split_unique apartIp apart memory
  exact ⟨same.symm, behind.symm⟩

/-- An address and a port that fit into the array are read, with what the stack goes on with. -/
theorem tcpReads_of_value {stack v ip digits : List UInt8} {port : UInt16}
    (valid : IsTcpValue v ip port) (split : v = ip ++ slash :: digits) (fits : v.length ≤ buffSize) :
    TcpReads stack v ip (digits ++ stack.drop v.length) := by
  obtain ⟨nonempty, all, -⟩ := valid.digits split
  refine ⟨fits, valid.some_, valid.letters, ?_, [], by simp, ?_, ?_⟩
  · obtain ⟨d, more, rfl⟩ := List.exists_cons_of_ne_nil nonempty
    intro zero
    have digit := all d List.mem_cons_self
    rw [show d = 0 from zero] at digit
    exact absurd digit (by decide)
  · conv_lhs => rw [split]
    simp [split]
  · exact Nat.lt_of_lt_of_le (by simpa using valid.short) (by decide)

/-! ## The setters -/

namespace Ram

theorem setNumberIn_memory (f : ConfigField) (data : List UInt8) (s : Ram) :
    (setNumberIn f data s).1.memory =
      if s.get f ≠ data then s.memory.write f.offset data else s.memory := by
  rw [setNumberIn]
  split
  · exact store_memory _
  · rfl

theorem get_setTcpPort (port : UInt16) (s : Ram) :
    (setTcpPort port s).get .destPort = leBytes16 port := by
  rw [get, setTcpPort, setNumberIn_memory]
  by_cases same : s.get .destPort = leBytes16 port
  · rw [if_neg (not_not.mpr same)]
    exact same
  · rw [if_pos same]
    exact Block.read_write_self _ _ (leBytes16 port) (by rw [length_leBytes16]; decide)

/-- The port stands behind the address. -/
theorem get_destIp_setTcpPort (port : UInt16) (s : Ram) :
    (setTcpPort port s).get .destIp = s.get .destIp := by
  rw [get, get, setTcpPort, setNumberIn_memory]
  split
  · exact Block.read_write_before _ _ _ _ _ (by decide)
  · rfl

section

variable {t : List UInt8} (noNul : ∀ b ∈ t, b ≠ 0) (short : t.length < ConfigField.destIp.length)

include noNul short

/-- The address that is set is the one that is read. -/
theorem cString_setTcpIP (s : Ram) : cString ((setTcpIP (t ++ [0]) s).at_ .destIp) = t := by
  rw [at_, setTcpIP, setTextIn_memory, withText]
  by_cases same : rtStrncmp (s.memory.cells.drop ConfigField.destIp.offset) (t ++ [0])
      (t ++ [0]).length = 0
  · rw [if_neg (not_not.mpr same)]
    exact (rtStrncmp_string_eq_zero_iff noNul _).mp same
  · rw [if_pos same]
    generalize s.memory.write ConfigField.destIp.offset _ = b
    have room : ConfigField.destIp.offset + ConfigField.destIp.length ≤ ramSize := by decide
    have written := Block.read_write_self b ConfigField.destIp.offset (t ++ [0])
      (by rw [List.length_append, List.length_singleton]; omega)
    obtain ⟨rest, split⟩ : t ++ [0] <+: (b.write ConfigField.destIp.offset (t ++ [0])).cells.drop
        ConfigField.destIp.offset := List.prefix_iff_eq_take.mpr written.symm
    rw [← split, cString_eq_iff noNul, List.append_assoc, byteAt_append_right le_rfl, Nat.sub_self]
    exact ⟨List.prefix_append _ _, rfl⟩

/-- The bytes of the address stay when it is the one that was stored. -/
theorem get_setTcpIP_iff (s : Ram) :
    (setTcpIP (t ++ [0]) s).get .destIp = s.get .destIp ↔ t = cString (s.at_ .destIp) := by
  constructor
  · intro same
    exact ((cString_eq_iff_of_take noNul short same).mp (cString_setTcpIP noNul short s)).symm
  · intro stored
    have equal : rtStrncmp (s.at_ .destIp) (t ++ [0]) (t ++ [0]).length = 0 :=
      (rtStrncmp_string_eq_zero_iff noNul _).mpr stored.symm
    rw [setTcpIP, setTextIn_of_same equal]

end

end Ram

/-! ## The command -/

/-- No value is empty. -/
theorem not_isTcpValue_nil (ip : List UInt8) (port : UInt16) : ¬ IsTcpValue [] ip port := by
  rintro ⟨-, -, -, digits, none_, -⟩
  simp at none_

/-- What the handler leaves for a value that is read so. -/
theorem TcpReads.onSetTcp {stack v t r : List UInt8} (reads : TcpReads stack v t r)
    (nonempty : v ≠ []) (s : Ram) : Ram.onSetTcp stack v s =
      some (Ram.setTcpPort (atoi r).toUInt16 (Ram.setTcpIP (t ++ [0]) s)) := by
  rw [Ram.onSetTcp, if_pos (List.length_pos_iff.mpr nonempty), reads.tcpArguments, Option.map_some]

/-- The string begins with a number that is this port, in the 16 bits that a port has. -/
def WritesPort (r : List UInt8) (port : UInt16) : Prop :=
  ∃ n, Writes r n ∧ clip n % 2 ^ 16 = port.toNat

/-- That is the port that `atoi` reads. -/
theorem writesPort_iff (r : List UInt8) (port : UInt16) :
    WritesPort r port ↔ (atoi r).toUInt16 = port := by
  have read {n : ℤ} (writes : Writes r n) :
      clip n % 2 ^ 16 = port.toNat ↔ (atoi r).toUInt16 = port := by
    have value := atoi_of_writes writes
    rw [← UInt16.toNat_inj, UInt32.toNat_toUInt16]
    omega
  constructor
  · rintro ⟨n, writes, same⟩
    exact (read writes).mp same
  · intro same
    obtain ⟨n, writes⟩ := exists_writes r
    exact ⟨n, writes, (read writes).mpr same⟩

/-- The digits with which the stack goes on behind the value. -/
def digitsBehind (stack v : List UInt8) : List UInt8 := (stack.drop v.length).takeWhile isDigit

/-- How the value, the stack and the configuration must be: the value is empty; or it fits into the
array and is an address and a port, which is also the number of its digits with those that the stack
goes on with; or it is none, and reads, with the stack behind it, as the address and the port that
are stored. -/
inductive TcpGoesWell (stack v : List UInt8) (s : Ram) : Prop where
  | empty (none_ : v = [])
  | sets {ip digits : List UInt8} {port : UInt16} (valid : IsTcpValue v ip port)
      (split : v = ip ++ slash :: digits) (fits : v.length ≤ buffSize)
      (number : clip (decimal (digits ++ digitsBehind stack v)) % 2 ^ 16 = port.toNat)
  | keeps {r : List UInt8} {port : UInt16} (other : ∀ ip port, ¬ IsTcpValue v ip port)
      (reads : TcpReads stack v (cString (s.at_ .destIp)) r)
      (short : (cString (s.at_ .destIp)).length < ConfigField.destIp.length)
      (stored : s.get .destPort = leBytes16 port) (writes : WritesPort r port)

/-- The number that is read for the port of a value. -/
theorem writesPort_digits {stack v ip digits : List UInt8} {port : UInt16}
    (valid : IsTcpValue v ip port) (split : v = ip ++ slash :: digits) (read : UInt16) :
    WritesPort (digits ++ stack.drop v.length) read ↔
      clip (decimal (digits ++ digitsBehind stack v)) % 2 ^ 16 = read.toNat := by
  obtain ⟨nonempty, all, -⟩ := valid.digits split
  have row : ∀ b ∈ digits ++ digitsBehind stack v, isDigit b = true := by
    intro b member
    rcases List.mem_append.mp member with own | behind
    · exact all b own
    · exact List.mem_takeWhile_imp behind
  obtain ⟨more, rest, whole, rowMore, ends⟩ := exists_digits (stack.drop v.length)
  have behind : digitsBehind stack v = more := by
    rw [digitsBehind, whole, takeWhile_isDigit rowMore ends]
  rw [behind] at row ⊢
  have writes : Writes (digits ++ stack.drop v.length) (decimal (digits ++ more)) := by
    rw [whole, ← List.append_assoc]
    exact writes_digits (by simp [nonempty]) row ends
  constructor
  · intro reads
    have same := (writesPort_iff _ _).mp reads
    have value := atoi_of_writes writes
    rw [← same, UInt32.toNat_toUInt16]
    omega
  · exact fun number => ⟨_, writes, number⟩

theorem onSetTcp_iff (stack v : List UInt8) (s : Ram) :
    SetsTcp stack v s (Ram.onSetTcp stack v s) ↔ TcpGoesWell stack v s := by
  by_cases nonempty : v = []
  · subst nonempty
    refine ⟨fun _ => .empty rfl, fun _ => ⟨⟨s, rfl, fun ip port valid => ?_, fun _ => ⟨rfl, rfl⟩⟩, ?_⟩⟩
    · exact absurd valid (not_isTcpValue_nil ip port)
    · exact fun some_ => absurd rfl some_
  constructor
  · rintro ⟨⟨s', after, valid, other⟩, size⟩
    obtain ⟨arguments, handed⟩ : ∃ arguments, Ram.tcpArguments stack v = some arguments := by
      rw [Ram.onSetTcp, if_pos (List.length_pos_iff.mpr nonempty), Option.map_eq_some_iff] at after
      obtain ⟨arguments, handed, -⟩ := after
      exact ⟨arguments, handed⟩
    obtain ⟨t, r, reads⟩ := exists_tcpReads handed
    have noNul : ∀ b ∈ t, b ≠ 0 := fun b member => (reads.letters b member).1
    have short : t.length < ConfigField.destIp.length := by
      have bound := size nonempty _ _ reads.tcpArguments
      rwa [List.length_append, List.length_singleton] at bound
    rw [reads.onSetTcp nonempty] at after
    obtain rfl := Option.some.inj after
    by_cases value : ∃ ip port, IsTcpValue v ip port
    · obtain ⟨ip, port, is⟩ := value
      obtain ⟨digits, split, -⟩ := is.value
      obtain ⟨rfl, rfl⟩ := reads.eq_value is split
      refine .sets is split reads.fits ((writesPort_digits is split port).mp ?_)
      have same := (valid t port is).2
      rw [Ram.get_setTcpPort, leBytes16_inj] at same
      exact (writesPort_iff _ _).mpr same
    · have none_ : ∀ ip port, ¬ IsTcpValue v ip port := fun ip port is => value ⟨ip, port, is⟩
      obtain ⟨ip, port⟩ := other none_
      rw [Ram.get_destIp_setTcpPort, Ram.get_setTcpIP_iff noNul short] at ip
      rw [Ram.get_setTcpPort] at port
      exact .keeps none_ (ip ▸ reads) (ip ▸ short) port.symm ((writesPort_iff _ _).mpr rfl)
  · -- what is read is the address and the port of the value, or those that are stored
    intro well
    obtain ⟨t, r, reads, short, valid, other⟩ : ∃ t r, TcpReads stack v t r ∧
        t.length < ConfigField.destIp.length ∧
        (∀ ip port, IsTcpValue v ip port → t = ip ∧ (atoi r).toUInt16 = port) ∧
        ((∀ ip port, ¬ IsTcpValue v ip port) →
          t = cString (s.at_ .destIp) ∧ leBytes16 (atoi r).toUInt16 = s.get .destPort) := by
      cases well with
      | empty none_ => exact absurd none_ nonempty
      | @sets ip digits port valid split fits number =>
          refine ⟨ip, _, tcpReads_of_value valid split fits, valid.short, fun ip' port' is => ?_,
            fun none_ => absurd valid (none_ ip port)⟩
          have reads : TcpReads stack v ip _ := tcpReads_of_value valid split fits
          obtain ⟨_, split', -⟩ := is.value
          obtain ⟨rfl, -⟩ := reads.eq_value is split'
          obtain rfl : port = port' :=
            UInt16.toNat_inj.mp ((valid.digits split).2.2.symm.trans (is.digits split).2.2)
          exact ⟨rfl, (writesPort_iff _ _).mp ((writesPort_digits valid split _).mpr number)⟩
      | keeps other reads short stored writes =>
          refine ⟨_, _, reads, short, fun ip port is => absurd is (other ip port), fun _ => ⟨rfl, ?_⟩⟩
          rw [(writesPort_iff _ _).mp writes, stored]
    have noNul : ∀ b ∈ t, b ≠ 0 := fun b member => (reads.letters b member).1
    refine ⟨⟨_, reads.onSetTcp nonempty s, fun ip port is => ⟨?_, ?_⟩, fun none_ => ⟨?_, ?_⟩⟩, ?_⟩
    · -- the port stands behind the address that is read
      have stays : cString ((Ram.setTcpPort (atoi r).toUInt16 (Ram.setTcpIP (t ++ [0]) s)).at_
          .destIp) = t ↔ cString ((Ram.setTcpIP (t ++ [0]) s).at_ .destIp) = t :=
        cString_eq_iff_of_take noNul short (Ram.get_destIp_setTcpPort _ _)
      rw [← (valid ip port is).1]
      exact stays.mpr (Ram.cString_setTcpIP noNul short s)
    · rw [Ram.get_setTcpPort, (valid ip port is).2]
    · rw [Ram.get_destIp_setTcpPort]
      exact (Ram.get_setTcpIP_iff noNul short s).mpr (other none_).1
    · rw [Ram.get_setTcpPort, (other none_).2]
    · intro _ ip port handed
      rw [reads.tcpArguments] at handed
      obtain ⟨rfl, -⟩ := Prod.mk.inj (Option.some.inj handed)
      rw [List.length_append, List.length_singleton]
      exact short

/-- What the command line leaves. -/
def afterTcp (stack : List UInt8) (others : CliHandlers Ram) (v : List UInt8)
    (console : Console (Option Ram)) : Option Ram :=
  (parserCliCommand (cliHandlers stack others) (setLine (text "STCP") v ++ [cr]) console).2.system

theorem afterTcp_eq {stack : List UInt8} {others : CliHandlers Ram} {v : List UInt8} (noCr : cr ∉ v)
    {console : Console (Option Ram)} (alive : console.rebooted = false) {s : Ram}
    (system : console.system = some s) :
    afterTcp stack others v console = Ram.onSetTcp stack v s := by
  have member : (⟨.stcp, text "STCP"⟩ : CliInfo) ∈ sCliInfo := by decide +kernel
  rw [afterTcp, parserCliCommand_setLine _ member noCr alive, system]
  rfl

/-- **The command does what its value says exactly when** the value is empty, or is an address and a
port, fits into the array, and its digits with those that the stack goes on with are the number of
that port, or is none and reads, with the stack, as the address and the port that are stored. -/
theorem sets_tcp_iff (stack : List UInt8) (others : CliHandlers Ram) (v : List UInt8)
    (noCr : cr ∉ v) {console : Console (Option Ram)} (alive : console.rebooted = false) {s : Ram}
    (system : console.system = some s) :
    SetsTcp stack v s (afterTcp stack others v console) ↔ TcpGoesWell stack v s := by
  rw [afterTcp_eq noCr alive system, onSetTcp_iff]


/-- An address and a port that fit into the array are set when the stack does not go on with a
digit. -/
theorem tcpGoesWell_of_not_digit {stack v ip : List UInt8} {port : UInt16}
    (valid : IsTcpValue v ip port) (fits : v.length ≤ buffSize)
    (ends : isDigit (byteAt stack v.length) = false) (s : Ram) : TcpGoesWell stack v s := by
  obtain ⟨digits, split, -, -, number⟩ := valid.value
  have none_ : digitsBehind stack v = [] := by
    have stops : isDigit (byteAt (stack.drop v.length) 0) = false := by
      rwa [byteAt_drop, Nat.add_zero]
    exact @takeWhile_isDigit [] _ (by simp) stops
  refine .sets valid split fits ?_
  rw [none_, List.append_nil, number, clip]
  have small := port.toNat_lt
  omega

/-- `10.0.0.7/8080` -/
theorem isTcpValue_server : IsTcpValue (text "10.0.0.7/8080") (text "10.0.0.7") 8080 :=
  ⟨by decide +kernel, by decide +kernel, by decide +kernel, text "8080", by decide +kernel,
    by decide +kernel, by decide +kernel, by decide +kernel⟩

theorem sets_tcp_iff_server :
    SetsTcp [] (text "10.0.0.7/8080") factoryRam
      (afterTcp [] idleHandlers (text "10.0.0.7/8080") factoryConsole) :=
  (sets_tcp_iff [] idleHandlers (text "10.0.0.7/8080") (by decide +kernel) rfl rfl).mpr
    (tcpGoesWell_of_not_digit isTcpValue_server (by decide +kernel) (by decide +kernel) _)

/-- A stack that goes on with the digit `5` behind a value of 13 bytes. -/
def staleStack : List UInt8 := List.replicate 13 0 ++ text "5"

/-- **A digit that the stack holds behind the value is read into the port, and a value without a port
is not passed over.** -/
theorem stale_digit_is_read :
    ¬ SetsTcp staleStack (text "10.0.0.7/8080") factoryRam
      (afterTcp staleStack idleHandlers (text "10.0.0.7/8080") factoryConsole) ∧
    ¬ SetsTcp [] (text "10.0.0.7/x") factoryRam
      (afterTcp [] idleHandlers (text "10.0.0.7/x") factoryConsole) := by
  constructor
  · rw [afterTcp_eq (by decide +kernel) rfl rfl]
    rintro ⟨⟨s', after, valid, -⟩, -⟩
    have port := (valid _ _ isTcpValue_server).2
    have read : (Ram.onSetTcp staleStack (text "10.0.0.7/8080") factoryRam).map
        (fun s => s.get .destPort) = some (leBytes16 15269) := by decide +kernel
    rw [after, Option.map_some, port] at read
    exact absurd read (by decide +kernel)
  · rw [afterTcp_eq (by decide +kernel) rfl rfl]
    rintro ⟨⟨s', after, -, other⟩, -⟩
    have none_ : ∀ ip port, ¬ IsTcpValue (text "10.0.0.7/x") ip port := by
      rintro ip port ⟨-, -, letters, digits, value, -, all, -⟩
      have apart : slash ∉ ip := fun inside => (letters slash inside).2 rfl
      have split : text "10.0.0.7/x" = text "10.0.0.7" ++ slash :: text "x" := by decide +kernel
      obtain ⟨-, rfl⟩ := InLines.split_unique (by decide +kernel) apart (split.symm.trans value)
      exact absurd (all 0x78 (by decide +kernel)) (by decide)
    have read : (Ram.onSetTcp [] (text "10.0.0.7/x") factoryRam).map (fun s => s.get .destIp) ≠
        some (factoryRam.get .destIp) := by decide +kernel
    rw [after, Option.map_some, (other none_).1] at read
    exact read rfl

end WhaleShark
