import WhaleShark.Gateway.CLibrary
import WhaleShark.Gateway.WifiReads

/-!
# What a read tells

At each position of its walk `ParserWifiData` takes at most one line for an answer, and notes in
`networkInfoData` what the answer says (`Notes`). `takenAlong` lists the lines that a walk takes,
each with what it is taken for.

A report of the DHCP mode brings a number whose second bit is the mode. It is marked at
`DHCP_COMPARE_RESULT` whether that is the configured one, and where the line that is taken for such
a report is one (`IsDhcpLine`), a mark says that it brings the configured mode
(`bringsDhcp_of_marked`).
-/

set_option autoImplicit false

namespace WhaleShark.Network

open Foundations

/-! ## What a position of the walk notes -/

/-- What happens to `networkInfoData` at a position of the walk, and the answer that is taken. -/
inductive Notes (env : Surroundings) (info : NetworkInfoData) :
    List Answer → NetworkInfoData → Prop where
  | nothing : Notes env info [] info
  | prompted : Notes env info []
      { info with response := .ok, networkStatus := .readyToSendData }
  | responds (response : WifiResponse)
      {answer : Answer} : Notes env info [answer] { info with response := response }
  | unknown : Notes env info [.report none] info
  | reports {w : WifiInfo} (here : w.networkInfoData = info) (id : WifiCommandId)
      (value : List UInt8) :
      Notes env info [(takeReport env w id value).2] (takeReport env w id value).1.networkInfoData

/-- At most one answer is taken. -/
theorem Notes.toList {env : Surroundings} {info info' : NetworkInfoData} {answers : List Answer}
    (notes : Notes env info answers info') : (answers[0]?).toList = answers := by
  cases notes <;> rfl

theorem parseReport_notes (env : Surroundings) (w : WifiInfo) (begin_ end_ : ℕ) :
    Notes env w.networkInfoData [(parseReport env w begin_ end_).2]
      (parseReport env w begin_ end_).1.networkInfoData := by
  simp only [parseReport]
  split
  · exact .unknown
  · exact .reports rfl _ _

theorem decideLine_notes (env : Surroundings) (s : Scan) (begin_ end_ : ℕ) :
    ∃ answers, (decideLine env s begin_ end_).answers = s.answers ++ answers ∧
      Notes env s.wifi.networkInfoData answers
        (decideLine env s begin_ end_).wifi.networkInfoData := by
  simp only [decideLine]
  split_ifs
  · exact ⟨[.ok], rfl, .responds .ok⟩
  · exact ⟨[.error], rfl, .responds .error⟩
  · exact ⟨[.fail], rfl, .responds .fail⟩
  · exact ⟨[.sendOk], rfl, .responds .ok⟩
  · exact ⟨[.sendFail], rfl, .responds .fail⟩
  · exact ⟨[_], rfl, parseReport_notes env s.wifi (begin_ + 1) end_⟩
  · exact ⟨[], (List.append_nil _).symm, .nothing⟩

/-- Each position notes something of this kind. -/
theorem parseStep_notes (env : Surroundings) (s : Scan) (end_ : ℕ) :
    ∃ answers, (parseStep env s end_).answers = s.answers ++ answers ∧
      Notes env s.wifi.networkInfoData answers
        (parseStep env s end_).wifi.networkInfoData := by
  have nothing : s.answers = s.answers ++ [] := (List.append_nil _).symm
  cases begun : s.begin_ with
  | none =>
      rw [parseStep_of_none env begun]
      split_ifs
      · exact ⟨[], nothing, .nothing⟩
      · exact ⟨[], nothing, .prompted⟩
      · exact ⟨[], nothing, .nothing⟩
  | some begin_ =>
      rw [parseStep_of_some env begun]
      split_ifs
      · exact ⟨[], nothing, .prompted⟩
      · exact decideLine_notes env s begin_ end_
      · exact ⟨[], nothing, .nothing⟩

/-! ## The lines that are taken -/

/-- The line that ends at this position, from its beginning to its `LF`. -/
def lineAt (s : Scan) (end_ : ℕ) : List UInt8 :=
  s.wifi.rxBuf.read (s.begin_.getD 0) (end_ + 1 - s.begin_.getD 0)

/-- The line that is taken at this position, and what it is taken for. -/
def takenAt (env : Surroundings) (s : Scan) (end_ : ℕ) : Option (List UInt8 × Answer) :=
  ((parseStep env s end_).answers[s.answers.length]?).map fun answer => (lineAt s end_, answer)

/-- The lines that are taken at these positions. -/
def takenAlong (env : Surroundings) : Scan → List ℕ → List (List UInt8 × Answer)
  | _, [] => []
  | s, end_ :: positions =>
      (takenAt env s end_).toList ++ takenAlong env (parseStep env s end_) positions

/-- Each answer is one of a line that is taken. -/
theorem answers_parseStep (env : Surroundings) (s : Scan) (end_ : ℕ) :
    (parseStep env s end_).answers =
      s.answers ++ (takenAt env s end_).toList.map Prod.snd := by
  obtain ⟨answers, more, notes⟩ := parseStep_notes env s end_
  rw [takenAt, more, List.getElem?_append_right (Nat.le_refl _), Nat.sub_self, ← notes.toList]
  cases (answers[0]?) <;> rfl

theorem takenAt_of_answers {env : Surroundings} {s : Scan} {end_ : ℕ} {answer : Answer}
    (taken : (parseStep env s end_).answers = s.answers ++ [answer]) :
    takenAt env s end_ = some (lineAt s end_, answer) := by
  rw [takenAt, taken, List.getElem?_append_right (Nat.le_refl _), Nat.sub_self]
  rfl

theorem takenAlong_concat (env : Surroundings) (positions : List ℕ) (end_ : ℕ) (s : Scan) :
    takenAlong env s (positions ++ [end_]) =
      takenAlong env s positions ++
        (takenAt env (positions.foldl (parseStep env) s) end_).toList := by
  induction positions generalizing s with
  | nil => simp [takenAlong]
  | cons first positions ih =>
      rw [List.cons_append, takenAlong, takenAlong, ih, List.append_assoc, List.foldl_cons]

/-- The answers of a walk are those of the lines that are taken along it. -/
theorem answers_takenAlong (env : Surroundings) (positions : List ℕ) (s : Scan) :
    (positions.foldl (parseStep env) s).answers =
      s.answers ++ (takenAlong env s positions).map Prod.snd := by
  induction positions generalizing s with
  | nil => simp [takenAlong]
  | cons end_ positions ih =>
      rw [List.foldl_cons, ih, answers_parseStep, takenAlong, List.map_append, List.append_assoc]

/-! ## The DHCP mode -/

theorem byteAt_write {size : ℕ} (b : Block UInt8 size) (offset : ℕ) (xs : List UInt8) {i : ℕ}
    (inside : i < size) :
    byteAt (b.write offset xs).cells i =
      if offset ≤ i ∧ i < offset + xs.length then byteAt xs (i - offset) else byteAt b.cells i := by
  rw [byteAt_eq, Block.getElem?_write, if_pos inside]
  split_ifs
  · rw [byteAt_eq]
  · rw [byteAt_eq]

/-- The line is a report of the DHCP mode, with its `LF` inside the buffer and not longer than a
`rt_uint8_t` can count. -/
def IsDhcpLine (line : List UInt8) : Prop :=
  text "+CWDHCP_DEF:" <+: line ∧ [cr, lf] <:+ line ∧ line.length ≤ 256

instance (line : List UInt8) : Decidable (IsDhcpLine line) :=
  inferInstanceAs (Decidable (_ ∧ _))

/-- The line reports this DHCP mode: it is the second bit of the number behind the colon. -/
def BringsDhcp (dhcpMode : UInt8) (line : List UInt8) : Prop :=
  ∃ value n, line = text "+CWDHCP_DEF:" ++ (value ++ [cr, lf]) ∧ Writes value n ∧
    clip n / 2 % 2 = dhcpMode.toNat

theorem IsDhcpLine.exists_value {line : List UInt8} (dhcp : IsDhcpLine line) :
    ∃ value, line = text "+CWDHCP_DEF:" ++ (value ++ [cr, lf]) := by
  obtain ⟨⟨rest, rfl⟩, ⟨front, ends⟩, -⟩ := dhcp
  rcases List.append_eq_append_iff.mp ends with ⟨part, name, whole⟩ | ⟨value, -, rest⟩
  · cases part with
    | nil => exact ⟨[], by rw [List.nil_append, whole, List.nil_append]⟩
    | cons b part =>
        obtain ⟨rfl, -⟩ := List.cons.inj whole
        have inside : cr ∈ text "+CWDHCP_DEF:" := by
          rw [name]
          simp
        exact absurd inside (by decide +kernel)
  · exact ⟨value, by rw [rest]⟩

/-- The second bit of an `int`. -/
theorem second_bit (x : UInt32) :
    (((x >>> 1).toUInt8 &&& (0x01 : UInt8)).toNat : ℤ) = (x.toNat : ℤ) / 2 % 2 := by
  have low : ((x >>> 1).toUInt8 &&& (0x01 : UInt8)).toNat = x.toNat / 2 % 2 := by
    simp [Nat.shiftRight_eq_div_pow]
  rw [low]
  norm_cast

theorem compared_getDhcp (env : Surroundings) (w : WifiInfo) (value : List UInt8) :
    byteAt (takeReport env w .getDhcp value).1.networkInfoData.data.cells dhcpCompareResult =
      if (atoi value >>> 1).toUInt8 &&& (0x01 : UInt8) = env.dhcpMode then 1 else 0 := by
  have inside : dhcpCompareResult < 128 := by decide
  simp only [takeReport]
  rw [byteAt_write _ _ _ inside, if_pos (by simp), Nat.sub_self]
  rfl

/-- **The mark of a report of the DHCP mode** says whether the number that is read has the
configured mode. -/
theorem marked_getDhcp_iff (env : Surroundings) (w : WifiInfo) {found value : List UInt8}
    (number : atoi found = atoi value) {n : ℤ} (writes : Writes value n) :
    byteAt (takeReport env w .getDhcp found).1.networkInfoData.data.cells dhcpCompareResult = 1 ↔
      clip n / 2 % 2 = env.dhcpMode.toNat := by
  have mode := second_bit (atoi value)
  rw [atoi_of_writes writes] at mode
  have same : (((atoi value >>> 1).toUInt8 &&& (0x01 : UInt8)).toNat : ℤ) = clip n / 2 % 2 := by
    omega
  rw [compared_getDhcp, number, ← same, Int.natCast_inj, UInt8.toNat_inj]
  split_ifs with equal
  · simp [equal]
  · simp [equal]

theorem compared_getMode (env : Surroundings) (w : WifiInfo) (value : List UInt8) :
    byteAt (takeReport env w .getMode value).1.networkInfoData.data.cells dhcpCompareResult =
      byteAt w.networkInfoData.data.cells dhcpCompareResult := by
  have inside : dhcpCompareResult < 128 := by decide
  simp only [takeReport]
  rw [byteAt_write _ _ _ inside, if_neg (by simp [dhcpCompareResult])]

/-- While there is no mark, a value that is copied brings none: `data` has one letter at most. -/
theorem compared_copyValue {info : NetworkInfoData}
    (unmarked : byteAt info.data.cells dhcpCompareResult = 0) (value : List UInt8) :
    byteAt (copyValue info value).data.cells dhcpCompareResult = 0 := by
  have inside : dhcpCompareResult < 128 := by decide
  have short : rtStrlen info.data.cells ≤ dhcpCompareResult := rtStrlen_le unmarked
  rw [copyValue, byteAt_write _ _ _ inside, if_neg, unmarked]
  rintro ⟨-, reached⟩
  rw [List.length_take] at reached
  omega

/-- What `FindValue` finds in a report is read as the number of its value. -/
theorem atoi_findValue {name value : List UInt8} (noNul : (0 : UInt8) ∉ name)
    (noColon : (0x3A : UInt8) ∉ name) (short : (name ++ 0x3A :: value).length < 255)
    (more : List UInt8) :
    let pCmd := name ++ 0x3A :: value ++ cr :: 0 :: more
    atoi (pCmd.drop (findValue pCmd)) = atoi value := by
  have colon (v : List UInt8) : behindColon (name ++ 0x3A :: v) = v := by
    rw [behindColon, dropWhile_ne noColon]
    rfl
  have plain {v : List UInt8} (inside : (0 : UInt8) ∉ v) : (0 : UInt8) ∉ name ++ 0x3A :: v := by
    simp [noNul, inside]
  simp only [List.length_append, List.length_cons] at short
  by_cases ends : (0 : UInt8) ∈ value
  · obtain ⟨v, behind, rfl, inside⟩ := List.eq_append_cons_of_mem ends
    have regroup : name ++ 0x3A :: (v ++ 0 :: behind) ++ cr :: 0 :: more =
        (name ++ 0x3A :: v) ++ 0 :: (behind ++ cr :: 0 :: more) := by
      simp
    simp only [List.length_append, List.length_cons] at short
    intro pCmd
    rw [show pCmd = _ from regroup, drop_findValue (plain inside) (by simp; omega), colon,
      atoi_append_nul, atoi_append_nul]
  · have regroup : name ++ 0x3A :: value ++ cr :: 0 :: more =
        (name ++ 0x3A :: (value ++ [cr])) ++ 0 :: more := by
      simp
    have inside : (0 : UInt8) ∉ value ++ [cr] := by simp [ends, cr]
    intro pCmd
    rw [show pCmd = _ from regroup, drop_findValue (plain inside) (by simp; omega), colon,
      atoi_append_nul]
    exact atoi_append rfl rfl rfl rfl value

/-- Of the lines only a report is taken for one. -/
theorem decideLine_getDhcp {env : Surroundings} {s : Scan} {begin_ end_ : ℕ}
    (taken : (decideLine env s begin_ end_).answers = s.answers ++ [.report (some .getDhcp)]) :
    (parseReport env s.wifi (begin_ + 1) end_).2 = .report (some .getDhcp) ∧
      (decideLine env s begin_ end_).wifi = (parseReport env s.wifi (begin_ + 1) end_).1 := by
  simp only [decideLine, Scan.respond] at taken ⊢
  split_ifs at taken ⊢
  · simp at taken
  · simp at taken
  · simp at taken
  · simp at taken
  · simp at taken
  · exact ⟨List.singleton_inj.mp (List.append_cancel_left taken), rfl⟩
  · simp at taken

/-- Behind a line in the buffer there is more. -/
theorem drop_rxMemory_of_read (env : Surroundings) {w : WifiInfo} {begin_ count : ℕ}
    (some_ : w.rxBuf.read begin_ count ≠ []) :
    ∃ more, (rxMemory env w).drop begin_ = w.rxBuf.read begin_ count ++ more := by
  have size := w.rxBuf.length_cells
  have inside : begin_ < w.rxBuf.cells.length := by
    have length := List.length_pos_iff.mpr some_
    rw [Block.length_read] at length
    omega
  refine ⟨(w.rxBuf.cells.drop begin_).drop count ++ [env.behindRxBuf], ?_⟩
  rw [rxMemory, List.drop_append_of_le_length (by omega), Block.read, ← List.append_assoc,
    List.take_append_drop]

/-- Where a line ends that is taken with its `LF`. -/
theorem end_of_line {env : Surroundings} {w : WifiInfo} {begin_ end_ : ℕ} {front : List UInt8}
    (line : w.rxBuf.read begin_ (end_ + 1 - begin_) = front ++ [cr, lf])
    (second : byteAt (rxMemory env w) end_ = lf)
    (first : byteAt (rxMemory env w) (end_ - 1) = cr) :
    end_ = begin_ + front.length + 1 ∧ end_ < wifiRxBuff := by
  have length := congrArg List.length line
  rw [Block.length_read, List.length_append, List.length_cons, List.length_singleton] at length
  rcases Nat.lt_or_ge end_ wifiRxBuff with inside | outside
  · omega
  · obtain ⟨more, mem⟩ := drop_rxMemory_of_read env
      (show w.rxBuf.read begin_ (end_ + 1 - begin_) ≠ [] by simp [line])
    have last : byteAt (rxMemory env w) (begin_ + (front.length + 1)) = lf := by
      rw [← byteAt_drop, mem, line, List.append_assoc, byteAt_append_right (by omega)]
      simp [byteAt_eq]
    have room : begin_ + (front.length + 1) = wifiRxBuff - 1 := by omega
    rcases Nat.eq_or_lt_of_le outside with here | behind
    · rw [← here, ← room, last] at first
      exact absurd first (by decide)
    · have size := length_rxMemory env w
      rw [byteAt_eq, List.getElem?_eq_none (by omega)] at second
      exact absurd second (by decide)

/-- A report of the DHCP mode notes the number of its value. -/
theorem parseReport_getDhcp {env : Surroundings} {w : WifiInfo} {begin_ end_ : ℕ}
    {value : List UInt8}
    (line : w.rxBuf.read begin_ (end_ + 1 - begin_) = text "+CWDHCP_DEF:" ++ (value ++ [cr, lf]))
    (short : value.length ≤ 242) (second : byteAt (rxMemory env w) end_ = lf)
    (first : byteAt (rxMemory env w) (end_ - 1) = cr)
    (dhcp : (parseReport env w (begin_ + 1) end_).2 = .report (some .getDhcp)) :
    ∃ w' found, (parseReport env w (begin_ + 1) end_).1 = (takeReport env w' .getDhcp found).1 ∧
      atoi found = atoi value := by
  have name : text "+CWDHCP_DEF:" = 0x2B :: (text "CWDHCP_DEF" ++ [0x3A]) := by decide +kernel
  have size : (text "CWDHCP_DEF").length = 10 := by decide +kernel
  have regroup : text "+CWDHCP_DEF:" ++ (value ++ [cr, lf]) =
      (0x2B :: (text "CWDHCP_DEF" ++ 0x3A :: value)) ++ [cr, lf] := by
    rw [name]
    simp
  rw [regroup] at line
  obtain ⟨ends, inside⟩ := end_of_line line second first
  obtain ⟨more, mem⟩ := drop_rxMemory_of_read env
    (show w.rxBuf.read begin_ (end_ + 1 - begin_) ≠ [] by simp [line])
  have behind : (rxMemory env w).drop (begin_ + 1) =
      (text "CWDHCP_DEF" ++ 0x3A :: value) ++ cr :: lf :: more := by
    rw [← List.drop_drop, mem, line]
    simp
  have length : (text "CWDHCP_DEF" ++ 0x3A :: value).length = value.length + 11 := by
    rw [List.length_append, List.length_cons, size]
    omega
  obtain ⟨garbage, parsed⟩ := parseReport_search behind
    (by rw [ends, List.length_cons]; omega) inside (by omega)
  rw [parsed] at dhcp ⊢
  revert dhcp
  generalize findCommand w.responseLen _ commandIds w.responseLen = hit
  obtain ⟨_ | id, left⟩ := hit
  · simp
  · intro dhcp
    have own : id = .getDhcp := by
      cases id <;> first | rfl | cases dhcp
    subst own
    exact ⟨_, _, rfl, atoi_findValue (by decide +kernel) (by decide +kernel) (by omega) more⟩

/-- A report of the DHCP mode that leaves the mark brings the configured mode. -/
theorem bringsDhcp_of_marked {env : Surroundings} {s : Scan} {end_ : ℕ}
    (taken : (parseStep env s end_).answers = s.answers ++ [.report (some .getDhcp)])
    (dhcp : IsDhcpLine (lineAt s end_))
    (marked : byteAt (parseStep env s end_).wifi.networkInfoData.data.cells dhcpCompareResult = 1) :
    BringsDhcp env.dhcpMode (lineAt s end_) := by
  obtain ⟨value, whole⟩ := dhcp.exists_value
  obtain ⟨n, writes⟩ := exists_writes value
  refine ⟨value, n, whole, writes, ?_⟩
  have short : value.length ≤ 242 := by
    have size : (text "+CWDHCP_DEF:").length = 12 := by decide +kernel
    have bound := dhcp.2.2
    rw [whole, List.length_append, List.length_append, size] at bound
    simp only [List.length_cons, List.length_nil] at bound
    omega
  cases begun : s.begin_ with
  | none =>
      rw [parseStep_of_none env begun] at taken
      split_ifs at taken
      all_goals simp [Scan.prompted] at taken
  | some begin_ =>
      rw [parseStep_of_some env begun] at taken marked
      split_ifs at taken marked with prompt ended
      · simp [Scan.prompted] at taken
      · obtain ⟨reported, same⟩ := decideLine_getDhcp taken
        have line : s.wifi.rxBuf.read begin_ (end_ + 1 - begin_) =
            text "+CWDHCP_DEF:" ++ (value ++ [cr, lf]) := by
          rw [← whole, lineAt, begun, Option.getD_some]
        obtain ⟨w, found, noted, number⟩ :=
          parseReport_getDhcp line short ended.1 ended.2 reported
        rw [same, noted] at marked
        exact (marked_getDhcp_iff env w number writes).mp marked
      · simp at taken

end WhaleShark.Network
