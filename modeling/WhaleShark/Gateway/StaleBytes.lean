import WhaleShark.Gateway.WifiRuns

/-!
# What the parser sees of stale bytes

Behind the bytes received the buffer holds bytes of earlier reads, and the local `szCmd` whatever
was on the stack. Two calls of `ParserWifiData` over buffers that hold the same received bytes go the
same way position by position (`parseStep_over`), as long as what a report is compared with and
what it copies has been received (`ReadsReceived`). The walk then goes one position too far. Where
the last byte received is a `CR`, or a prompt is awaited, the byte there decides: a stale `LF` ends
the line, a stale `CR` completes the prompt. In all other cases the call is a function of the bytes
received (`independent_iff`).
-/

set_option autoImplicit false

namespace WhaleShark.Network

open Foundations

/-! ## Up to the `NUL` -/

/-- Where the value begins is told in front of the `NUL`. -/
theorem findValue_append_nul (s rest : List UInt8) :
    findValue (s ++ 0 :: rest) = findValue s ∧ findValue s ≤ s.length := by
  have strlen : rtStrlen (s ++ 0 :: rest) = rtStrlen s := by
    rw [rtStrlen, cString_append_nul, rtStrlen]
  have short : rtStrlen s ≤ s.length := List.takeWhile_prefix _ |>.length_le
  have count : (rtStrlen s).toUInt8.toNat ≤ s.length := by
    rw [UInt8.toNat_ofNat']
    exact (Nat.mod_le _ _).trans short
  have front : (s ++ 0 :: rest).take (rtStrlen s).toUInt8.toNat =
      s.take (rtStrlen s).toUInt8.toNat := List.take_append_of_le_length count
  have bound : ((s.take (rtStrlen s).toUInt8.toNat).takeWhile fun b => b != 0x3A).length ≤
      s.length :=
    ((List.takeWhile_prefix _).length_le.trans (List.length_take_le' _ _))
  have here : byteAt (s ++ 0 :: rest)
      ((s.take (rtStrlen s).toUInt8.toNat).takeWhile fun b => b != 0x3A).length =
        byteAt s ((s.take (rtStrlen s).toUInt8.toNat).takeWhile fun b => b != 0x3A).length := by
    rcases Nat.eq_or_lt_of_le bound with last | inside
    · rw [last, byteAt_append_right le_rfl, Nat.sub_self, byteAt_eq, byteAt_eq]
      simp
    · exact byteAt_append_left inside
  simp only [findValue, strlen, front, here, true_and]
  split_ifs with colon
  · by_contra outside
    have last : ((s.take (rtStrlen s).toUInt8.toNat).takeWhile fun b => b != 0x3A).length =
        s.length := by omega
    rw [last, byteAt_eq] at colon
    simp at colon
  · exact short

theorem compareLocalInfo_append_nul (set : CommandSettings) (data : Block UInt8 128)
    (value rest : List UInt8) :
    compareLocalInfo set data (value ++ 0 :: rest) = compareLocalInfo set data value := by
  have plain : ∀ name ∈ [text "ip", text "gateway", text "netmask"], ∀ b ∈ name, b ≠ 0 := by
    decide +kernel
  have same (name : List UInt8) (own : name ∈ [text "ip", text "gateway", text "netmask"]) :
      rtStrncmp name (value ++ 0 :: rest) (name.length + 1) = 0 ↔
        rtStrncmp name value (name.length + 1) = 0 := by
    rw [rtStrncmp_name_eq_zero_iff (plain name own), rtStrncmp_name_eq_zero_iff (plain name own),
      cString_append_nul]
  simp only [compareLocalInfo, same (text "ip") (by simp), same (text "gateway") (by simp),
    same (text "netmask") (by simp)]

/-! ## What is not a matter of the bytes received -/

/-- Other contents of the byte behind the buffer and of `szCmd`. -/
def Surroundings.over (env : Surroundings) (behind : UInt8) (szCmd : Block UInt8 cmdMaxLen) :
    Surroundings :=
  { env with behindRxBuf := behind, szCmd := szCmd }

/-- Another receive buffer. -/
def WifiInfo.over (w : WifiInfo) (rxBuf : Block UInt8 wifiRxBuff) : WifiInfo :=
  { w with rxBuf := rxBuf }

def Scan.over (s : Scan) (rxBuf : Block UInt8 wifiRxBuff) : Scan :=
  { s with wifi := s.wifi.over rxBuf }

/-- The first bytes are the same. -/
def Shares (n : ℕ) (env : Surroundings) (w : WifiInfo) (behind : UInt8)
    (rxBuf : Block UInt8 wifiRxBuff) : Prop :=
  ∀ i < n, byteAt (rxBuf.cells ++ [behind]) i = byteAt (rxMemory env w) i

/-- What a call leaves: what it consumed, and what it says of the network. -/
def Scan.outcome (s : Scan) : ℕ × UInt8 × NetworkInfoData :=
  (s.consumed, s.wifi.responseLen, s.wifi.networkInfoData)

/-- The call is a function of the bytes received. -/
def Independent (env : Surroundings) (w : WifiInfo) (rxSize : ℕ) : Prop :=
  ∀ (behind : UInt8) (szCmd : Block UInt8 cmdMaxLen) (rxBuf : Block UInt8 wifiRxBuff),
    rxBuf.read 0 rxSize = w.rxBuf.read 0 rxSize →
      (parserWifiData (env.over behind szCmd) (w.over rxBuf) rxSize).outcome =
        (parserWifiData env w rxSize).outcome

/-! ## The condition -/

/-- The bytes that are copied tell how the comparison with a name goes. -/
def Settles (copied name : List UInt8) (count : ℕ) : Prop :=
  count ≤ copied.length ∨
    ∃ j, j < copied.length ∧ (byteAt copied j ≠ byteAt name j ∨ byteAt copied j = 0)

instance (copied name : List UInt8) (count : ℕ) : Decidable (Settles copied name count) :=
  inferInstanceAs (Decidable (_ ∨ _))

/-- They tell how the search goes, as far as it goes. -/
def SettlesSearch (copied : List UInt8) (responseLen : UInt8) : List WifiCommandId → Prop
  | [] => True
  | id :: ids =>
      Settles copied (szCli id) (responseLenFor responseLen id).toNat ∧
        (rtStrncmp copied (szCli id) (responseLenFor responseLen id).toNat = 0 ∨
          SettlesSearch copied responseLen ids)

instance settlesSearchDecidable (copied : List UInt8) (responseLen : UInt8) :
    (ids : List WifiCommandId) → Decidable (SettlesSearch copied responseLen ids)
  | [] => isTrue trivial
  | _ :: ids =>
      have := settlesSearchDecidable copied responseLen ids
      inferInstanceAs (Decidable (_ ∧ (_ ∨ _)))

/-- The length of a report, as it is kept. -/
def keptLen (begin_ end_ : ℕ) : ℕ := (end_ - begin_).toUInt8.toNat

/-- What is copied to `szCmd`. -/
def copiedName (env : Surroundings) (w : WifiInfo) (begin_ end_ : ℕ) : List UInt8 :=
  ((rxMemory env w).drop begin_).take (keptLen begin_ end_)

/-- The report that is found. -/
def foundReport (env : Surroundings) (w : WifiInfo) (begin_ end_ : ℕ) : Option WifiCommandId :=
  (findCommand w.responseLen (copiedName env w begin_ end_) commandIds w.responseLen).1

/-- Where its value begins. -/
def valueBegin (env : Surroundings) (w : WifiInfo) (begin_ end_ : ℕ) : ℕ :=
  begin_ + findValue (copiedName env w begin_ end_)

/-- The reports whose value is copied to `data`. -/
def copyingReports : List WifiCommandId := [.getDhcp, .getApInfo, .getLocalInfo, .getMacInfo]

/-- What a report is compared with and what is copied of it has been received. -/
structure Received (env : Surroundings) (n : ℕ) (w : WifiInfo) (begin_ end_ : ℕ) : Prop where
  name : SettlesSearch (copiedName env w begin_ end_) w.responseLen commandIds
  value : ∀ id ∈ copyingReports, foundReport env w begin_ end_ = some id →
    valueBegin env w begin_ end_ + rtStrlen w.networkInfoData.data.cells ≤ n

instance (env : Surroundings) (n : ℕ) (w : WifiInfo) (begin_ end_ : ℕ) :
    Decidable (Received env n w begin_ end_) :=
  decidable_of_iff (SettlesSearch (copiedName env w begin_ end_) w.responseLen commandIds ∧
    ∀ id ∈ copyingReports, foundReport env w begin_ end_ = some id →
      valueBegin env w begin_ end_ + rtStrlen w.networkInfoData.data.cells ≤ n)
    ⟨fun ⟨name, value⟩ => ⟨name, value⟩, fun ⟨name, value⟩ => ⟨name, value⟩⟩

/-- A report that is decided at a position has been received. -/
def ReceivedAt (env : Surroundings) (n : ℕ) (s : Scan) (end_ : ℕ) : Prop :=
  match s.begin_ with
  | none => True
  | some begin_ =>
      byteAt (rxMemory env s.wifi) end_ = lf → byteAt (rxMemory env s.wifi) (end_ - 1) = cr →
        byteAt (rxMemory env s.wifi) begin_ = 0x2B → Received env n s.wifi (begin_ + 1) end_

instance (env : Surroundings) (n : ℕ) (s : Scan) (end_ : ℕ) :
    Decidable (ReceivedAt env n s end_) := by
  unfold ReceivedAt
  split <;> infer_instance

/-- Every report of the call has been received. -/
def ReadsReceived (env : Surroundings) (w : WifiInfo) (rxSize : ℕ) : Prop :=
  ∀ end_ < rxSize, ReceivedAt env rxSize (walk env ⟨w, none, 0, []⟩ 0 end_) end_

instance (env : Surroundings) (w : WifiInfo) (rxSize : ℕ) :
    Decidable (ReadsReceived env w rxSize) :=
  inferInstanceAs (Decidable (∀ end_ < rxSize, _))

/-- The position behind the bytes received decides nothing: neither a line nor a prompt can end
there. -/
def Ended (env : Surroundings) (s : Scan) (rxSize : ℕ) : Prop :=
  ¬ (s.atBegin env = 0x3E ∧ s.wifi.networkInfoData.networkStatus = .setSendDataLength) ∧
    (s.begin_ ≠ none → byteAt (rxMemory env s.wifi) (rxSize - 1) ≠ cr)

instance (env : Surroundings) (s : Scan) (rxSize : ℕ) : Decidable (Ended env s rxSize) :=
  inferInstanceAs (Decidable (_ ∧ _))

/-! ## One position, over another buffer -/

section Over

variable {env : Surroundings} {behind : UInt8} {szCmd : Block UInt8 cmdMaxLen} {w : WifiInfo}
  {rxBuf : Block UInt8 wifiRxBuff} {n : ℕ}

theorem rxMemory_over (env : Surroundings) (w : WifiInfo) :
    rxMemory (env.over behind szCmd) (w.over rxBuf) = rxBuf.cells ++ [behind] := rfl

/-- What lies in the first bytes is read alike. -/
theorem Shares.take_drop (shares : Shares n env w behind rxBuf) {from_ count : ℕ}
    (inside : from_ + count ≤ n) (fits : n ≤ wifiRxBuff) :
    ((rxBuf.cells ++ [behind]).drop from_).take count = ((rxMemory env w).drop from_).take count := by
  apply List.ext_getElem?
  intro i
  rw [List.getElem?_take, List.getElem?_take]
  split_ifs with here
  · have long : (rxBuf.cells ++ [behind]).length = wifiRxBuff + 1 := by
      rw [List.length_append, rxBuf.length_cells, List.length_singleton]
    rw [List.getElem?_drop, List.getElem?_drop, getElem?_eq_byteAt (by omega),
      getElem?_eq_byteAt (by rw [length_rxMemory]; omega), shares (from_ + i) (by omega)]
  · rfl

/-- A byte among them is overwritten. -/
theorem Shares.write (shares : Shares n env w behind rxBuf) {i : ℕ} (before : i < n)
    (fits : n ≤ wifiRxBuff) (b : UInt8) :
    Shares n env { w with rxBuf := w.rxBuf.write i [b] } behind (rxBuf.write i [b]) := by
  intro j inside
  have here := rxMemory_write (env.over behind env.szCmd) (w.over rxBuf) (i := i) (by omega) b
  have there := rxMemory_write env w (i := i) (by omega) b
  have own : rxMemory (env.over behind env.szCmd)
      { w.over rxBuf with rxBuf := (w.over rxBuf).rxBuf.write i [b] } =
        (rxBuf.write i [b]).cells ++ [behind] := rfl
  rw [← own, here, there]
  by_cases same : j = i
  · subst same
    rw [byteAt_eq, byteAt_eq, List.getElem?_set_self (by rw [length_rxMemory]; omega),
      List.getElem?_set_self (by rw [length_rxMemory]; omega)]
  · rw [byteAt_set_ne _ same, byteAt_set_ne _ same]
    exact shares j inside

/-! ### A report -/

theorem Settles.compare {copied name : List UInt8} {count : ℕ}
    (settles : Settles copied name count) (garbage : List UInt8) :
    rtStrncmp (copied ++ garbage) name count = rtStrncmp copied name count := by
  rcases settles with enough | ⟨j, inside, ends⟩
  · exact rtStrncmp_append enough garbage name
  · refine rtStrncmp_congr (j := j) ?_ (fun _ _ => rfl) ends count
    intro i bound
    exact byteAt_append_left (by omega)

/-- What is copied to `szCmd` decides the search. -/
theorem SettlesSearch.findCommand {copied : List UInt8} {keep : UInt8} (garbage : List UInt8) :
    ∀ {ids : List WifiCommandId} {responseLen : UInt8}, SettlesSearch copied keep ids →
      Network.findCommand keep (copied ++ garbage) ids responseLen =
        Network.findCommand keep copied ids responseLen
  | [], _, _ => rfl
  | id :: ids, responseLen, settles => by
      obtain ⟨here, found | later⟩ := settles
      · simp only [Network.findCommand, here.compare garbage, found, if_true]
      · simp only [Network.findCommand, here.compare garbage, later.findCommand garbage]

/-- A report does the same with a value that ends at the same `NUL`, when what it copies of it is
the same. -/
theorem takeReport_over (id : WifiCommandId) {value more more' : List UInt8}
    (copied : id ∈ copyingReports →
      (value ++ 0 :: more').take (rtStrlen w.networkInfoData.data.cells) =
        (value ++ 0 :: more).take (rtStrlen w.networkInfoData.data.cells)) :
    takeReport (env.over behind szCmd) (w.over rxBuf) id (value ++ 0 :: more') =
      ((takeReport env w id (value ++ 0 :: more)).1.over rxBuf,
        (takeReport env w id (value ++ 0 :: more)).2) := by
  have first : byteAt (value ++ 0 :: more') 0 = byteAt (value ++ 0 :: more) 0 := by
    cases value <;> rfl
  have copies (own : id ∈ copyingReports) :
      copyValue (w.over rxBuf).networkInfoData (value ++ 0 :: more') =
        copyValue w.networkInfoData (value ++ 0 :: more) := by
    have same : (w.over rxBuf).networkInfoData = w.networkInfoData := rfl
    rw [same, copyValue, copyValue, copied own]
  cases id
  case getMode =>
    simp only [takeReport, first]
    rfl
  case getDhcp =>
    simp only [takeReport, copies (by simp [copyingReports]), atoi_append_nul]
    rfl
  case getApInfo =>
    simp only [takeReport, copies (by simp [copyingReports])]
    rfl
  case getLocalInfo =>
    simp only [takeReport, copies (by simp [copyingReports]), compareLocalInfo_append_nul]
    rfl
  case getMacInfo =>
    simp only [takeReport, copies (by simp [copyingReports])]
    rfl
  case receiveData =>
    simp only [takeReport, dataStatus_eq]
    rfl
  all_goals rfl

theorem keptLen_le (begin_ end_ : ℕ) : keptLen begin_ end_ ≤ end_ - begin_ := by
  rw [keptLen, UInt8.toNat_ofNat']
  exact Nat.mod_le _ _

/-- What the search sees begins with what is copied. -/
theorem exists_szCmd (env : Surroundings) (w : WifiInfo) (begin_ end_ : ℕ) :
    ∃ garbage, (env.szCmd.write 0 (copiedName env w begin_ end_)).cells =
      copiedName env w begin_ end_ ++ garbage := by
  apply szCmd_write
  have small : keptLen begin_ end_ < 256 := UInt8.toNat_lt _
  exact (List.length_take_le _ _).trans small.le

/-- The `NUL` behind a report stands behind what is copied. -/
theorem drop_overwritten (env : Surroundings) (w : WifiInfo) {begin_ end_ : ℕ}
    (inside : begin_ + keptLen begin_ end_ < wifiRxBuff) :
    ∃ more, (rxMemory env
        { w with rxBuf := w.rxBuf.write (begin_ + keptLen begin_ end_) [0] }).drop begin_ =
      copiedName env w begin_ end_ ++ 0 :: more := by
  have room : keptLen begin_ end_ < ((rxMemory env w).drop begin_).length := by
    rw [List.length_drop, length_rxMemory]
    omega
  refine ⟨((rxMemory env w).drop begin_).drop (keptLen begin_ end_ + 1), ?_⟩
  rw [rxMemory_write env w inside, List.drop_set, if_neg (by omega), Nat.add_sub_cancel_left,
    List.set_eq_take_append_cons_drop, if_pos room, copiedName]

/-- What is done about a report that was found, whose `NUL` is written. -/
def takeFound (env : Surroundings) (w : WifiInfo) (id : WifiCommandId) (begin_ : ℕ) :
    WifiInfo × Answer :=
  let pCmd := (rxMemory env w).drop begin_
  takeReport env w id (pCmd.drop (findValue pCmd))

theorem takeFound_over (shares : Shares n env w behind rxBuf) (fits : n ≤ wifiRxBuff)
    (id : WifiCommandId) {begin_ : ℕ} {front more more' : List UInt8}
    (pCmd : (rxMemory env w).drop begin_ = front ++ 0 :: more)
    (pCmd' : (rxBuf.cells ++ [behind]).drop begin_ = front ++ 0 :: more')
    (received : id ∈ copyingReports →
      begin_ + findValue front + rtStrlen w.networkInfoData.data.cells ≤ n) :
    takeFound (env.over behind szCmd) (w.over rxBuf) id begin_ =
      ((takeFound env w id begin_).1.over rxBuf, (takeFound env w id begin_).2) := by
  have value (rest : List UInt8) : (front ++ 0 :: rest).drop (findValue (front ++ 0 :: rest)) =
      front.drop (findValue front) ++ 0 :: rest := by
    obtain ⟨same, bound⟩ := findValue_append_nul front rest
    rw [same, List.drop_append_of_le_length bound]
  simp only [takeFound, rxMemory_over, pCmd, pCmd', value]
  apply takeReport_over
  intro copies
  have bound := (findValue_append_nul front more).2
  rw [← List.drop_append_of_le_length bound, ← List.drop_append_of_le_length bound, ← pCmd,
    ← pCmd', List.drop_drop, List.drop_drop]
  exact shares.take_drop (received copies) fits

theorem parseReport_of_szCmd {begin_ end_ : ℕ} {garbage : List UInt8}
    (own : (env.szCmd.write 0 (copiedName env w begin_ end_)).cells =
      copiedName env w begin_ end_ ++ garbage) :
    parseReport env w begin_ end_ =
      let found := findCommand w.responseLen (copiedName env w begin_ end_ ++ garbage) commandIds
        w.responseLen
      match found.1 with
      | none => ({ w with responseLen := found.2 }, .report none)
      | some id =>
          takeFound env
            { w with
              responseLen := found.2
              rxBuf := w.rxBuf.write (begin_ + keptLen begin_ end_) [0] } id begin_ := by
  rw [← own]
  rfl

/-- **A report over another buffer.** -/
theorem parseReport_over (szCmd : Block UInt8 cmdMaxLen) (shares : Shares n env w behind rxBuf)
    {begin_ end_ : ℕ}
    (before : end_ < n) (fits : n ≤ wifiRxBuff) (ordered : begin_ ≤ end_)
    (received : Received env n w begin_ end_) :
    ∃ rxBuf', parseReport (env.over behind szCmd) (w.over rxBuf) begin_ end_ =
        ((parseReport env w begin_ end_).1.over rxBuf', (parseReport env w begin_ end_).2) ∧
      Shares n env (parseReport env w begin_ end_).1 behind rxBuf' := by
  have len := keptLen_le begin_ end_
  have copied : copiedName (env.over behind szCmd) (w.over rxBuf) begin_ end_ =
      copiedName env w begin_ end_ := shares.take_drop (by omega) fits
  obtain ⟨garbage, own⟩ := exists_szCmd env w begin_ end_
  obtain ⟨garbage', other⟩ := exists_szCmd (env.over behind szCmd) (w.over rxBuf) begin_ end_
  rw [copied] at other
  have found : foundReport env w begin_ end_ =
      (findCommand w.responseLen (copiedName env w begin_ end_ ++ garbage) commandIds
        w.responseLen).1 := by
    rw [foundReport, received.name.findCommand garbage]
  have search : findCommand w.responseLen (copiedName env w begin_ end_ ++ garbage') commandIds
      w.responseLen = findCommand w.responseLen (copiedName env w begin_ end_ ++ garbage) commandIds
        w.responseLen := by
    rw [received.name.findCommand garbage, received.name.findCommand garbage']
  have same : (w.over rxBuf).responseLen = w.responseLen := rfl
  rw [parseReport_of_szCmd own, parseReport_of_szCmd (copied.symm ▸ other), copied, same, search]
  generalize findCommand w.responseLen (copiedName env w begin_ end_ ++ garbage) commandIds
    w.responseLen = hit at found
  obtain ⟨_ | id, left⟩ := hit
  · exact ⟨rxBuf, rfl, shares⟩
  · have written := shares.write (i := begin_ + keptLen begin_ end_) (by omega) fits 0
    have room : begin_ + keptLen begin_ end_ < wifiRxBuff := by omega
    obtain ⟨more, pCmd⟩ := drop_overwritten env w room
    obtain ⟨more', pCmd'⟩ := drop_overwritten (env.over behind szCmd) (w.over rxBuf) room
    rw [copied] at pCmd'
    let overwritten : WifiInfo :=
      { w with
        responseLen := left
        rxBuf := w.rxBuf.write (begin_ + keptLen begin_ end_) [0] }
    have shared : Shares n env overwritten behind
        (rxBuf.write (begin_ + keptLen begin_ end_) [0]) := written
    have pCmd : (rxMemory env overwritten).drop begin_ = copiedName env w begin_ end_ ++ 0 :: more :=
      pCmd
    have taken : takeFound (env.over behind szCmd)
        (overwritten.over (rxBuf.write (begin_ + keptLen begin_ end_) [0])) id begin_ =
          ((takeFound env overwritten id begin_).1.over
            (rxBuf.write (begin_ + keptLen begin_ end_) [0]),
            (takeFound env overwritten id begin_).2) :=
      takeFound_over shared fits id pCmd pCmd' fun copies => received.value id copies found
    refine ⟨rxBuf.write (begin_ + keptLen begin_ end_) [0], taken, ?_⟩
    have kept : (takeFound env overwritten id begin_).1.rxBuf = overwritten.rxBuf :=
      takeReport_rxBuf env overwritten id _
    have memory : rxMemory env (takeFound env overwritten id begin_).1 =
        rxMemory env overwritten := by
      rw [rxMemory, kept, rxMemory]
    intro i inside
    exact (written i inside).trans (congrArg (byteAt · i) memory.symm)

/-! ### A line -/

theorem byteAt_ne_of_not_mem {s : List UInt8} {b : UInt8} (absent : b ∉ s) (notNul : b ≠ 0)
    (i : ℕ) : byteAt s i ≠ b := by
  rcases Nat.lt_or_ge i s.length with inside | outside
  · rintro rfl
    exact absent (byteAt_mem inside)
  · rw [byteAt_eq, List.getElem?_eq_none outside]
    exact notNul.symm

/-- A text that holds no `CR` is compared with a line up to its `CR` at most. -/
theorem rtStrncmp_over (shares : Shares n env w behind rxBuf) {begin_ end_ : ℕ}
    (inside : begin_ < end_) (before : end_ < n)
    (ended : byteAt (rxMemory env w) (end_ - 1) = cr) {t : List UInt8} (noCr : cr ∉ t)
    (count : ℕ) :
    rtStrncmp t ((rxBuf.cells ++ [behind]).drop begin_) count =
      rtStrncmp t ((rxMemory env w).drop begin_) count := by
  refine rtStrncmp_congr (j := end_ - 1 - begin_) (fun _ _ => rfl) ?_ ?_ count
  · intro i bound
    rw [byteAt_drop, byteAt_drop, shares (begin_ + i) (by omega)]
  · have last : begin_ + (end_ - 1 - begin_) = end_ - 1 := by omega
    rw [byteAt_drop, last, ended]
    exact .inl (byteAt_ne_of_not_mem noCr (by decide) _)

/-- **A line over another buffer.** -/
theorem decideLine_over {s : Scan} (shares : Shares n env s.wifi behind rxBuf)
    {begin_ end_ : ℕ} (inside : begin_ < end_) (before : end_ < n) (fits : n ≤ wifiRxBuff)
    (ended : byteAt (rxMemory env s.wifi) (end_ - 1) = cr)
    (received : byteAt (rxMemory env s.wifi) begin_ = 0x2B →
      Received env n s.wifi (begin_ + 1) end_) :
    ∃ rxBuf', decideLine (env.over behind szCmd) (s.over rxBuf) begin_ end_ =
        (decideLine env s begin_ end_).over rxBuf' ∧
      Shares n env (decideLine env s begin_ end_).wifi behind rxBuf' := by
  have noCr : ∀ t ∈ [text "OK", text "ERROR", text "FAIL", text "SEND OK", text "SEND FAIL"],
      cr ∉ t := by
    decide +kernel
  have compare (t : List UInt8)
      (own : t ∈ [text "OK", text "ERROR", text "FAIL", text "SEND OK", text "SEND FAIL"])
      (count : ℕ) : rtStrncmp t ((rxBuf.cells ++ [behind]).drop begin_) count =
        rtStrncmp t ((rxMemory env s.wifi).drop begin_) count :=
    rtStrncmp_over shares inside before ended (noCr t own) count
  have first : byteAt ((rxBuf.cells ++ [behind]).drop begin_) 0 =
      byteAt ((rxMemory env s.wifi).drop begin_) 0 := by
    rw [byteAt_drop, byteAt_drop, shares (begin_ + 0) (by omega)]
  have memory : rxMemory (env.over behind szCmd) (s.over rxBuf).wifi = rxBuf.cells ++ [behind] :=
    rfl
  simp only [decideLine, memory, compare (text "OK") (by simp), compare (text "ERROR") (by simp),
    compare (text "FAIL") (by simp), compare (text "SEND OK") (by simp),
    compare (text "SEND FAIL") (by simp), first]
  split_ifs with isOk isError isFail isSendOk isSendFail plus
  · exact ⟨rxBuf, rfl, shares⟩
  · exact ⟨rxBuf, rfl, shares⟩
  · exact ⟨rxBuf, rfl, shares⟩
  · exact ⟨rxBuf, rfl, shares⟩
  · exact ⟨rxBuf, rfl, shares⟩
  · rw [byteAt_drop, Nat.add_zero] at plus
    obtain ⟨rxBuf', same, shares'⟩ := parseReport_over szCmd shares before fits inside
      (received plus)
    refine ⟨rxBuf', ?_, shares'⟩
    have report : parseReport (env.over behind szCmd) (s.over rxBuf).wifi (begin_ + 1) end_ = _ :=
      same
    rw [report]
    rfl
  · exact ⟨rxBuf, rfl, shares⟩

/-! ### A position -/

/-- How far the walk has come in front of a position. -/
structure Reached (i : ℕ) (s : Scan) : Prop where
  begin_ : ∀ b, s.begin_ = some b → b < i
  consumed : s.consumed ≤ i - 1

theorem begin_decideLine (env : Surroundings) (s : Scan) (begin_ end_ : ℕ) :
    (decideLine env s begin_ end_).begin_ = s.begin_ ∨
      (decideLine env s begin_ end_).begin_ = some (begin_ + 1) := by
  simp only [decideLine]
  split_ifs
  all_goals first | exact .inl rfl | exact .inr rfl

theorem Reached.step {i : ℕ} {s : Scan} (reached : Reached i s) (env : Surroundings) :
    Reached (i + 1) (parseStep env s i) := by
  have later : Reached (i + 1) s := by
    refine ⟨fun b begun => Nat.lt_succ_of_lt (reached.begin_ b begun), ?_⟩
    have consumed := reached.consumed
    omega
  cases begun : s.begin_ with
  | none =>
      rw [parseStep_of_none env begun]
      split_ifs with begins prompt
      · refine ⟨?_, later.consumed⟩
        rintro b ⟨rfl⟩
        exact Nat.lt_succ_self i
      · exact ⟨later.begin_, later.consumed⟩
      · exact later
  | some begin_ =>
      have before := reached.begin_ begin_ begun
      rw [parseStep_of_some env begun]
      split_ifs with prompt ends
      · exact ⟨later.begin_, later.consumed⟩
      · refine ⟨?_, le_rfl⟩
        intro b found
        rcases begin_decideLine env s begin_ i with same | next
        · exact later.begin_ b (same.symm.trans found)
        · rw [next, Option.some.injEq] at found
          omega
      · exact later

/-- **A position over another buffer.** -/
theorem parseStep_over {s : Scan} (shares : Shares n env s.wifi behind rxBuf) {i : ℕ}
    (reached : Reached i s) (before : i < n) (fits : n ≤ wifiRxBuff)
    (received : ReceivedAt env n s i) :
    ∃ rxBuf', parseStep (env.over behind szCmd) (s.over rxBuf) i =
        (parseStep env s i).over rxBuf' ∧
      Shares n env (parseStep env s i).wifi behind rxBuf' := by
  have memory : rxMemory (env.over behind szCmd) (s.over rxBuf).wifi = rxBuf.cells ++ [behind] :=
    rfl
  have info : (s.over rxBuf).wifi.networkInfoData = s.wifi.networkInfoData := rfl
  have atNull : (env.over behind szCmd).atNull = env.atNull := rfl
  have here := shares i before
  cases begun : s.begin_ with
  | none =>
      have begun' : (s.over rxBuf).begin_ = none := begun
      rw [parseStep_of_none env begun, parseStep_of_none _ begun', memory, info, here, atNull]
      split_ifs
      · exact ⟨rxBuf, rfl, shares⟩
      · exact ⟨rxBuf, rfl, shares⟩
      · exact ⟨rxBuf, rfl, shares⟩
  | some begin_ =>
      have begun' : (s.over rxBuf).begin_ = some begin_ := begun
      have inside := reached.begin_ begin_ begun
      simp only [ReceivedAt, begun] at received
      rw [parseStep_of_some env begun, parseStep_of_some _ begun', memory, info, here,
        shares begin_ (by omega), shares (i - 1) (by omega)]
      split_ifs with prompt ends
      · exact ⟨rxBuf, rfl, shares⟩
      · exact decideLine_over shares inside before fits ends.2 (received ends.1 ends.2)
      · exact ⟨rxBuf, rfl, shares⟩

/-- **The walk over another buffer**, as far as bytes have been received. -/
theorem walk_over (szCmd : Block UInt8 cmdMaxLen) (shares : Shares n env w behind rxBuf)
    (fits : n ≤ wifiRxBuff) (received : ReadsReceived env w n) {count : ℕ} (within : count ≤ n) :
    Reached count (walk env ⟨w, none, 0, []⟩ 0 count) ∧
      ∃ rxBuf', walk (env.over behind szCmd) ⟨w.over rxBuf, none, 0, []⟩ 0 count =
          (walk env ⟨w, none, 0, []⟩ 0 count).over rxBuf' ∧
        Shares n env (walk env ⟨w, none, 0, []⟩ 0 count).wifi behind rxBuf' := by
  induction count with
  | zero => exact ⟨⟨by simp [walk], le_rfl⟩, rxBuf, rfl, shares⟩
  | succ count ih =>
      obtain ⟨reached, rxBuf', same, shares'⟩ := ih (by omega)
      have here := received count (by omega)
      rw [walk_add, walk_add, walk_one, walk_one, Nat.zero_add, same]
      exact ⟨reached.step env, parseStep_over shares' reached (by omega) fits here⟩

end Over

/-! ## Behind the bytes received -/

section Behind

variable {env : Surroundings} {w : WifiInfo} {n : ℕ}

theorem rxBuf_parseReport (env : Surroundings) (w : WifiInfo) (begin_ end_ : ℕ) :
    (parseReport env w begin_ end_).1.rxBuf = w.rxBuf ∨
      (parseReport env w begin_ end_).1.rxBuf =
        w.rxBuf.write (begin_ + keptLen begin_ end_) [0] := by
  obtain ⟨garbage, own⟩ := exists_szCmd env w begin_ end_
  rw [parseReport_of_szCmd own]
  generalize findCommand w.responseLen (copiedName env w begin_ end_ ++ garbage) commandIds
    w.responseLen = hit
  obtain ⟨_ | id, left⟩ := hit
  · exact .inl rfl
  · exact .inr (takeReport_rxBuf env _ id _)

/-- A position leaves the bytes behind it. -/
theorem byteAt_parseStep {s : Scan} {i : ℕ} (reached : Reached i s) (before : i < n)
    (fits : n ≤ wifiRxBuff) :
    byteAt (rxMemory env (parseStep env s i).wifi) n = byteAt (rxMemory env s.wifi) n := by
  cases begun : s.begin_ with
  | none =>
      rw [parseStep_of_none env begun]
      split_ifs <;> rfl
  | some begin_ =>
      have inside := reached.begin_ begin_ begun
      rw [parseStep_of_some env begun]
      split_ifs with prompt ends
      · rfl
      · simp only [decideLine]
        split_ifs
        all_goals try rfl
        have len := keptLen_le (begin_ + 1) i
        rcases rxBuf_parseReport env s.wifi (begin_ + 1) i with kept | overwritten
        · rw [rxMemory, kept, rxMemory]
        · have memory := rxMemory_write env s.wifi
            (i := begin_ + 1 + keptLen (begin_ + 1) i) (by omega) 0
          rw [rxMemory, overwritten]
          exact (congrArg (byteAt · n) memory).trans (byteAt_set_ne _ (by omega) 0)
      · rfl

theorem byteAt_walk (env : Surroundings) (w : WifiInfo) (fits : n ≤ wifiRxBuff) {count : ℕ}
    (within : count ≤ n) :
    Reached count (walk env ⟨w, none, 0, []⟩ 0 count) ∧
      byteAt (rxMemory env (walk env ⟨w, none, 0, []⟩ 0 count).wifi) n =
        byteAt (rxMemory env w) n := by
  induction count with
  | zero => exact ⟨⟨by simp [walk], le_rfl⟩, rfl⟩
  | succ count ih =>
      obtain ⟨reached, same⟩ := ih (by omega)
      rw [walk_add, walk_one, Nat.zero_add]
      exact ⟨reached.step env, (byteAt_parseStep reached (by omega) fits).trans same⟩

theorem shares_of_read {rxBuf : Block UInt8 wifiRxBuff} (env : Surroundings) (behind : UInt8)
    (fits : n ≤ wifiRxBuff) (same : rxBuf.read 0 n = w.rxBuf.read 0 n) :
    Shares n env w behind rxBuf := by
  intro i before
  have own := w.rxBuf.length_cells
  have other := rxBuf.length_cells
  simp only [Block.read, List.drop_zero] at same
  rw [rxMemory, byteAt_append_left (by omega), byteAt_append_left (by omega),
    ← byteAt_take before, same, byteAt_take before]

/-- Any byte can stand behind the bytes received. -/
theorem exists_stale (w : WifiInfo) (fits : n ≤ wifiRxBuff) (x : UInt8) :
    ∃ (behind : UInt8) (rxBuf : Block UInt8 wifiRxBuff),
      rxBuf.read 0 n = w.rxBuf.read 0 n ∧ byteAt (rxBuf.cells ++ [behind]) n = x := by
  have own := w.rxBuf.length_cells
  rcases Nat.eq_or_lt_of_le fits with last | inside
  · refine ⟨x, w.rxBuf, rfl, ?_⟩
    rw [byteAt_append_right (by omega), own, last, Nat.sub_self]
    rfl
  · refine ⟨0, w.rxBuf.write n [x], Block.read_write_before _ _ _ _ _ (by omega), ?_⟩
    have written := (w.rxBuf.write n [x]).length_cells
    rw [byteAt_append_left (by omega), byteAt_eq, Block.getElem?_write, if_pos inside,
      if_pos (by simp)]
    simp

/-- The call, with its last position apart. -/
theorem parserWifiData_last (env : Surroundings) (w : WifiInfo) (some_ : n ≠ 0) :
    parserWifiData env w n = parseStep env (walk env ⟨w, none, 0, []⟩ 0 n) n := by
  rw [parserWifiData_eq_walk env w some_, walk_add, walk_one, Nat.zero_add]

/-- **The last position decides nothing** where it is ended. -/
theorem outcome_of_ended {s : Scan} (ended : Ended env s n) :
    (parseStep env s n).outcome = s.outcome := by
  obtain ⟨noPrompt, noLine⟩ := ended
  cases begun : s.begin_ with
  | none =>
      simp only [Scan.atBegin, begun] at noPrompt
      rw [parseStep_of_none env begun]
      split_ifs with begins prompt
      · rfl
      · exact absurd ⟨prompt.1, prompt.2.2⟩ noPrompt
      · rfl
  | some begin_ =>
      simp only [Scan.atBegin, begun] at noPrompt
      rw [parseStep_of_some env begun]
      split_ifs with prompt line
      · exact absurd ⟨prompt.1, prompt.2.2⟩ noPrompt
      · exact absurd line.2 (noLine (by simp [begun]))
      · rfl

/-- With a byte that is none of those that matter it decides nothing either. -/
theorem outcome_of_zero {s : Scan} (zero : byteAt (rxMemory env s.wifi) n = 0) :
    (parseStep env s n).outcome = s.outcome := by
  have noBeginning : beginsAnswer 0 = false := by decide
  have noCr : (0 : UInt8) ≠ cr := by decide
  have noLf : (0 : UInt8) ≠ lf := by decide
  cases begun : s.begin_ with
  | none =>
      rw [parseStep_of_none env begun]
      simp only [zero, noBeginning, noCr, Bool.false_eq_true, false_and, and_false, if_false]
  | some begin_ =>
      rw [parseStep_of_some env begun]
      simp only [zero, noCr, noLf, false_and, and_false, if_false]

/-- The byte that decides something where it is not ended. -/
def telling (env : Surroundings) (s : Scan) : UInt8 :=
  if s.atBegin env = 0x3E ∧ s.wifi.networkInfoData.networkStatus = .setSendDataLength then cr
  else lf

/-- **Where it is not ended, a byte there decides something.** -/
theorem outcome_of_telling {s : Scan} (reached : Reached n s) (some_ : n ≠ 0)
    (open_ : ¬ Ended env s n) (told : byteAt (rxMemory env s.wifi) n = telling env s) :
    (parseStep env s n).outcome ≠ s.outcome := by
  intro same
  rw [telling] at told
  by_cases prompt : s.atBegin env = 0x3E ∧
      s.wifi.networkInfoData.networkStatus = .setSendDataLength
  · rw [if_pos prompt] at told
    have step : parseStep env s n = s.prompted := by
      have noBeginning : beginsAnswer cr = false := by decide
      simp only [parseStep, told, noBeginning, Bool.false_eq_true, false_and, if_false, prompt,
        and_self, if_true]
    rw [step] at same
    have status : NetworkStatus.readyToSendData = s.wifi.networkInfoData.networkStatus :=
      congrArg (fun outcome => outcome.2.2.networkStatus) same
    rw [prompt.2] at status
    cases status
  · rw [if_neg prompt] at told
    have line : s.begin_ ≠ none ∧ byteAt (rxMemory env s.wifi) (n - 1) = cr := by
      by_contra none_
      exact open_ ⟨prompt, fun begun last => none_ ⟨begun, last⟩⟩
    obtain ⟨begin_, begun⟩ := Option.ne_none_iff_exists'.mp line.1
    have notCr : lf ≠ cr := by decide
    have step : parseStep env s n = decideLine env s begin_ n := by
      rw [parseStep_of_some env begun, told]
      simp only [notCr, false_and, and_false, if_false, line.2, and_self, if_true]
    rw [step] at same
    have consumed : n = s.consumed := congrArg Prod.fst same
    have behind := reached.consumed
    omega

section Variant

variable {behind : UInt8} {szCmd : Block UInt8 cmdMaxLen} {rxBuf : Block UInt8 wifiRxBuff} {s : Scan}

theorem atBegin_over (shares : Shares n env s.wifi behind rxBuf) (reached : Reached n s) :
    (s.over rxBuf).atBegin (env.over behind szCmd) = s.atBegin env := by
  cases begun : s.begin_ with
  | none =>
      have begun' : (s.over rxBuf).begin_ = none := begun
      simp only [Scan.atBegin, begun, begun']
      rfl
  | some begin_ =>
      have begun' : (s.over rxBuf).begin_ = some begin_ := begun
      simp only [Scan.atBegin, begun, begun']
      exact shares begin_ (reached.begin_ begin_ begun)

theorem ended_over (shares : Shares n env s.wifi behind rxBuf) (reached : Reached n s)
    (some_ : n ≠ 0) :
    Ended (env.over behind szCmd) (s.over rxBuf) n ↔ Ended env s n := by
  have last : byteAt (rxMemory (env.over behind szCmd) (s.over rxBuf).wifi) (n - 1) =
      byteAt (rxMemory env s.wifi) (n - 1) := shares (n - 1) (by omega)
  rw [Ended, Ended, atBegin_over shares reached, last]
  rfl

end Variant

/-! ## The call -/

/-- **The call is a function of the bytes received exactly when** nothing can end behind them, where
what its reports are compared with and what they copy has been received. -/
theorem independent_iff (fits : n ≤ wifiRxBuff) (received : ReadsReceived env w n) :
    Independent env w n ↔ n = 0 ∨ Ended env (walk env ⟨w, none, 0, []⟩ 0 n) n := by
  constructor
  · intro independent
    by_contra not_
    obtain ⟨some_, open_⟩ := not_or.mp not_
    -- With any byte at all behind those received the call does what it does with a zero there.
    have same (x : UInt8) : ∃ (behind : UInt8) (rxBuf : Block UInt8 wifiRxBuff),
        Reached n (walk env ⟨w, none, 0, []⟩ 0 n) ∧
        Shares n env (walk env ⟨w, none, 0, []⟩ 0 n).wifi behind rxBuf ∧
        byteAt (rxBuf.cells ++ [behind]) n = x ∧
        (parseStep (env.over behind env.szCmd) ((walk env ⟨w, none, 0, []⟩ 0 n).over rxBuf)
          n).outcome = (parserWifiData env w n).outcome := by
      obtain ⟨behind, rxBuf, read, byte⟩ := exists_stale w fits x
      have shares := shares_of_read env behind fits read
      obtain ⟨reached, rxBuf', walked, shares'⟩ :=
        walk_over env.szCmd shares fits received le_rfl
      have kept := (byteAt_walk (env.over behind env.szCmd) (w.over rxBuf) fits le_rfl).2
      rw [walked] at kept
      have outcome := independent behind env.szCmd rxBuf read
      rw [parserWifiData_last _ _ some_, walked] at outcome
      exact ⟨behind, rxBuf', reached, shares', kept.trans byte, outcome⟩
    obtain ⟨behind₀, rxBuf₀, reached, -, zero, outcome₀⟩ := same 0
    obtain ⟨behind₁, rxBuf₁, -, shares₁, told, outcome₁⟩ :=
      same (telling env (walk env ⟨w, none, 0, []⟩ 0 n))
    generalize walk env ⟨w, none, 0, []⟩ 0 n = s at *
    have zero_ : byteAt (rxMemory (env.over behind₀ env.szCmd) (s.over rxBuf₀).wifi) n = 0 := zero
    rw [outcome_of_zero zero_] at outcome₀
    have telling_ : telling (env.over behind₁ env.szCmd) (s.over rxBuf₁) = telling env s := by
      rw [telling, telling, atBegin_over shares₁ reached]
      rfl
    refine outcome_of_telling (s := s.over rxBuf₁) ⟨reached.begin_, reached.consumed⟩ some_
      (fun ended => open_ ((ended_over shares₁ reached some_).mp ended))
      (Eq.trans told telling_.symm) ?_
    exact outcome₁.trans outcome₀.symm
  · rintro (rfl | ended)
    · intro behind szCmd rxBuf _
      rfl
    · intro behind szCmd rxBuf read
      by_cases some_ : n = 0
      · rw [some_]
        rfl
      · have shares := shares_of_read env behind fits read
        obtain ⟨reached, rxBuf', walked, shares'⟩ :=
          walk_over szCmd shares fits received le_rfl
        rw [parserWifiData_last _ _ some_, parserWifiData_last _ _ some_, walked,
          outcome_of_ended ended,
          outcome_of_ended ((ended_over shares' reached some_).mpr ended)]
        rfl

end Behind

/-- The parser's variables with these bytes in front of the buffer, while a name of 11 bytes is
awaited. -/
def heard (bytes : List UInt8) : WifiInfo :=
  { initWifi with responseLen := 11, rxBuf := initWifi.rxBuf.write 0 bytes }

/-- A report that has been received. -/
theorem independent_iff_mode :
    Independent someSurroundings (heard (text "+CWMODE_DEF:1" ++ [cr, lf])) 15 :=
  (independent_iff (by decide) (by decide +kernel)).mpr (.inr (by decide +kernel))

/-- **A stale line feed is read.** Two answers have come, and of the third one all but its `LF`; the
`LF` of the second one, which stands behind it, ends the line. -/
theorem stale_line_feed_is_read :
    ¬ Independent someSurroundings (heard ([lf] ++ text "OK" ++ [cr, lf])) 4 := by
  intro independent
  have same := independent 0 someSurroundings.szCmd (heard ([lf] ++ text "OK" ++ [cr])).rxBuf
    (by decide +kernel)
  exact absurd same (by decide +kernel)

end WhaleShark.Network
