import WhaleShark.Foundations.TerminatedLines
import WhaleShark.Gateway.WifiThread

/-!
# What a line says

`classify` says what a line of the Wi-Fi module says by its own first bytes: one of the five short
answers, or behind a plus sign the report it begins with and, for `+IPD`, whether its value begins
with `OK` or `ER`.

Where the beginning that `ParserWifiData` found is that of the line, and the line begins with a byte
that can be a beginning, its decision is that one (`decideLine_eq`). For a report this takes
a `responseLen` that suits it: the search through `commandInfo` compares only so many
bytes of each name, and stops at the first name that agrees in them (`Suits`).
-/

set_option autoImplicit false

namespace WhaleShark.Network

open Foundations

/-! ## The answers that lines give -/

/-- The reports that have a case of their own, besides `+IPD`. -/
def ownReports : List WifiCommandId := [.getMode, .getDhcp, .getApInfo, .getLocalInfo, .getMacInfo]

/-- The report with whose name the line begins behind its plus sign. -/
def reportOf (rest : List UInt8) : Option WifiCommandId :=
  (.receiveData :: ownReports).find? fun id => szCli id <+: rest

/-- What stands behind the first colon. -/
def behindColon (s : List UInt8) : List UInt8 := (s.dropWhile fun b => b != 0x3A).drop 1

/-- What the value of a `+IPD` says of the data that was sent. -/
def statusOf (value : List UInt8) : NetworkStatus :=
  if text "OK" <+: value then .receiveData
  else if text "ER" <+: value then .refuseData
  else .none

/-- What a report says. -/
def classifyReport (rest : List UInt8) : Answer :=
  match reportOf rest with
  | none => .report none
  | some .receiveData => .received (statusOf (behindColon (cString rest)))
  | some id => .report (some id)

/-- What a line says by its own first bytes, if anything. -/
def classify (line : List UInt8) : Option Answer :=
  if text "OK" <+: line then some .ok
  else if text "ERROR" <+: line then some .error
  else if text "FAIL" <+: line then some .fail
  else if text "SEND OK" <+: line then some .sendOk
  else if text "SEND FAIL" <+: line then some .sendFail
  else if byteAt line 0 = 0x2B then some (classifyReport line.tail)
  else none

/-- The name at which the search through `commandInfo` stops. -/
def stopsAt (responseLen : UInt8) (rest : List UInt8) : Option WifiCommandId :=
  (findCommand responseLen (rest ++ [cr]) commandIds responseLen).1

/-- How many bytes tell the name of a report from the names that the search comes to before it. -/
def tellingLen : WifiCommandId → ℕ
  | .getLocalInfo => 7
  | .getMacInfo => 14
  | _ => 3

/-- `responseLen` suits a report: so many bytes tell its name from those before it, and the name has
so many; a `+IPD` is compared over its own three bytes, and only a `responseLen` of 0 stops the
search before it; for a line that is none of the reports, the search does not stop at one. -/
def Suits (responseLen : UInt8) (rest : List UInt8) : Prop :=
  match reportOf rest with
  | none => ∀ id ∈ .receiveData :: ownReports, stopsAt responseLen rest ≠ some id
  | some .receiveData => responseLen ≠ 0
  | some id => tellingLen id ≤ responseLen.toNat ∧ responseLen.toNat ≤ (szCli id).length

instance (responseLen : UInt8) (rest : List UInt8) : Decidable (Suits responseLen rest) := by
  unfold Suits
  split <;> infer_instance

/-! ## Strings that stop -/

/-- A text is the beginning of a string when it is the beginning of what stands before a byte that
it does not hold. -/
theorem prefix_append_stop {t : List UInt8} {stop : UInt8} (absent : stop ∉ t)
    (more : List UInt8) : ∀ s : List UInt8, t <+: s ++ stop :: more ↔ t <+: s := by
  induction t with
  | nil => simp
  | cons b t ih =>
      simp only [List.mem_cons, not_or] at absent
      intro s
      cases s with
      | nil => simp [Ne.symm absent.1]
      | cons a s => simp [ih absent.2 s]

/-- A text of the firmware, as `rt_strncmp` compares it with a line. -/
theorem rtStrncmp_line {t : List UInt8} (noNul : ∀ b ∈ t, b ≠ 0) (noCr : cr ∉ t)
    (line more : List UInt8) :
    rtStrncmp t (line ++ cr :: more) t.length = 0 ↔ t <+: line := by
  rw [rtStrncmp_text_eq_zero_iff noNul, prefix_append_stop noCr]

theorem rtStrncmp_ne_zero_of_head {cs ct : List UInt8} {count : ℕ} (some_ : 0 < count)
    (differs : byteAt cs 0 ≠ byteAt ct 0) : rtStrncmp cs ct count ≠ 0 := by
  obtain ⟨count, rfl⟩ := Nat.exists_eq_succ_of_ne_zero some_.ne'
  have res : byteAt cs 0 - byteAt ct 0 ≠ 0 := fun zero => differs ((sub_eq_zero_iff _ _).mp zero)
  rw [rtStrncmp]
  simp [res]

/-- Only the bytes that are compared matter. -/
theorem rtStrncmp_append {cs : List UInt8} {count : ℕ} (enough : count ≤ cs.length)
    (more ct : List UInt8) : rtStrncmp (cs ++ more) ct count = rtStrncmp cs ct count := by
  induction count generalizing cs ct with
  | zero => rfl
  | succ count ih =>
      cases cs with
      | nil => simp at enough
      | cons a cs =>
          have enough : count ≤ cs.length := by simpa using enough
          have rest := ih enough ct.tail
          simp only [rtStrncmp, byteAt_eq, List.cons_append, List.getElem?_cons_zero,
            Option.getD_some, List.tail_cons, rest]

/-- What stands behind a byte that the name does not hold does not matter. -/
theorem rtStrncmp_stop {ct : List UInt8} {stop : UInt8} (absent : stop ∉ ct) (notNul : stop ≠ 0)
    (more : List UInt8) (count : ℕ) (cs : List UInt8) :
    rtStrncmp (cs ++ stop :: more) ct count = 0 ↔ rtStrncmp (cs ++ [stop]) ct count = 0 := by
  induction count generalizing cs ct with
  | zero => simp [rtStrncmp]
  | succ count ih =>
      cases cs with
      | nil =>
          have differs : stop ≠ byteAt ct 0 := by
            cases ct with
            | nil => simpa [byteAt_eq] using notNul
            | cons a ct =>
                simp only [List.mem_cons, not_or] at absent
                simpa [byteAt_eq] using absent.1
          refine iff_of_false ?_ ?_ <;>
          · apply rtStrncmp_ne_zero_of_head (Nat.succ_pos count)
            simpa [byteAt_eq] using differs
      | cons a cs =>
          have absent' : stop ∉ ct.tail := fun member => absent (List.mem_of_mem_tail member)
          have rest := ih absent' cs
          simp only [rtStrncmp, byteAt_eq, List.cons_append, List.getElem?_cons_zero,
            Option.getD_some, List.tail_cons]
          split_ifs
          · rfl
          · exact rest

/-! ## The search through the commands -/

theorem findCommand_congr {keep : UInt8} {a b : List UInt8} :
    ∀ {ids : List WifiCommandId} {responseLen : UInt8},
      (∀ id ∈ ids, rtStrncmp a (szCli id) (responseLenFor keep id).toNat = 0 ↔
        rtStrncmp b (szCli id) (responseLenFor keep id).toNat = 0) →
      findCommand keep a ids responseLen = findCommand keep b ids responseLen
  | [], _, _ => rfl
  | id :: ids, responseLen, same => by
      simp only [findCommand]
      rw [findCommand_congr fun id' member => same id' (by simp [member])]
      simp only [same id (by simp)]

theorem szCli_no_cr (id : WifiCommandId) : cr ∉ szCli id := by
  cases id <;> decide +kernel

/-- What stands behind the line in `szCmd` does not matter. -/
theorem findCommand_stop (keep responseLen : UInt8) (rest more : List UInt8) :
    findCommand keep (rest ++ cr :: more) commandIds responseLen =
      findCommand keep (rest ++ [cr]) commandIds responseLen :=
  findCommand_congr fun id _ => rtStrncmp_stop (szCli_no_cr id) (by decide) more _ rest

/-- The search finds a name itself, for every length that suits it. -/
theorem findCommand_name : ∀ id ∈ ownReports, ∀ n ∈ List.range 15, tellingLen id ≤ n →
    n ≤ (szCli id).length →
      findCommand n.toUInt8 (szCli id) commandIds n.toUInt8 = (some id, n.toUInt8) := by
  decide +kernel

theorem length_szCli_ownReports : ∀ id ∈ ownReports, 3 ≤ (szCli id).length ∧
    (szCli id).length < 15 := by
  decide +kernel

theorem mem_of_reportOf {rest : List UInt8} {id : WifiCommandId} (own : reportOf rest = some id) :
    id ∈ .receiveData :: ownReports ∧ szCli id <+: rest :=
  ⟨List.mem_of_find?_eq_some own, by simpa using List.find?_some own⟩

/-- **The search finds the report that the line begins with.** -/
theorem findCommand_of_suits {responseLen : UInt8} {rest : List UInt8}
    (suits : Suits responseLen rest) (more : List UInt8) :
    match reportOf rest with
    | none => ∀ id ∈ .receiveData :: ownReports,
        (findCommand responseLen (rest ++ cr :: more) commandIds responseLen).1 ≠ some id
    | some id =>
        (findCommand responseLen (rest ++ cr :: more) commandIds responseLen).1 = some id := by
  cases own : reportOf rest with
  | none =>
      simp only [Suits, own, stopsAt] at suits
      simpa only [findCommand_stop] using suits
  | some id =>
      obtain ⟨member, begins⟩ := mem_of_reportOf own
      obtain ⟨tail, rfl⟩ := begins
      rcases List.mem_cons.mp member with rfl | report
      · have nonzero : responseLen ≠ 0 := by simpa only [Suits, own] using suits
        have some_ : 0 < responseLen.toNat :=
          Nat.pos_of_ne_zero fun zero => nonzero (UInt8.toNat_inj.mp zero)
        have apart : rtStrncmp (szCli .receiveData ++ (tail ++ cr :: more)) (szCli .tcpDisconnect)
            responseLen.toNat ≠ 0 := by
          apply rtStrncmp_ne_zero_of_head some_
          rw [byteAt_append_left (by decide +kernel)]
          decide +kernel
        have here : rtStrncmp (szCli .receiveData ++ (tail ++ cr :: more)) (szCli .receiveData)
            (3 : UInt8).toNat = 0 := by
          rw [rtStrncmp_append (by decide +kernel)]
          decide +kernel
        simp only [List.append_assoc, commandIds, findCommand, responseLenFor, reduceCtorEq,
          if_false, if_true, apart, here]
      · have bounds : tellingLen id ≤ responseLen.toNat ∧
            responseLen.toNat ≤ (szCli id).length := by
          simp only [Suits, own] at suits
          simp only [ownReports, List.mem_cons, List.not_mem_nil, or_false] at report
          rcases report with rfl | rfl | rfl | rfl | rfl <;> exact suits
        obtain ⟨three, short⟩ := length_szCli_ownReports id report
        have name := findCommand_name id report responseLen.toNat
          (List.mem_range.mpr (by omega)) bounds.1 bounds.2
        have same : responseLen.toNat.toUInt8 = responseLen := by simp
        rw [same] at name
        have whole : findCommand responseLen (szCli id ++ tail ++ cr :: more) commandIds
            responseLen = findCommand responseLen (szCli id) commandIds responseLen := by
          refine findCommand_congr fun other _ => ?_
          have enough : (responseLenFor responseLen other).toNat ≤ (szCli id).length := by
            unfold responseLenFor
            split
            · exact three
            · exact bounds.2
          rw [List.append_assoc, rtStrncmp_append enough]
        rw [whole, name]

/-! ## The value of a report -/

section

variable {s : List UInt8} {stop : UInt8} (absent : stop ∉ s) (more : List UInt8)

include absent

theorem all_ne : ∀ b ∈ s, (b != stop) = true := by
  intro b member
  simpa using fun same : b = stop => absent (same ▸ member)

theorem takeWhile_ne_self : (s.takeWhile fun b => b != stop) = s :=
  List.takeWhile_eq_self_iff.mpr (all_ne absent)

theorem takeWhile_ne : ((s ++ stop :: more).takeWhile fun b => b != stop) = s := by
  rw [List.takeWhile_append_of_pos (all_ne absent)]
  simp

theorem dropWhile_ne : ((s ++ stop :: more).dropWhile fun b => b != stop) = stop :: more := by
  rw [List.dropWhile_append_of_pos (all_ne absent)]
  simp

end

theorem behindColon_of_mem {s : List UInt8} (colon : (0x3A : UInt8) ∈ s) (more : List UInt8) :
    behindColon (s ++ more) = behindColon s ++ more := by
  obtain ⟨s, value, rfl, first⟩ := List.eq_append_cons_of_mem colon
  rw [List.append_assoc, List.cons_append, behindColon, behindColon, dropWhile_ne first,
    dropWhile_ne first]
  rfl

theorem behindColon_of_not_mem {s : List UInt8} (none_ : (0x3A : UInt8) ∉ s) :
    behindColon s = [] := by
  rw [behindColon, List.dropWhile_eq_nil_iff.mpr (all_ne none_), List.drop_nil]

/-- Where the first colon is, or the end. -/
def colonAt (line : List UInt8) : ℕ := (line.takeWhile fun b => b != 0x3A).length

/-- The first loop finds the first colon, if it does not come too late. -/
theorem findValue_eq {line : List UInt8} (plain : (0 : UInt8) ∉ line) (behind : List UInt8) :
    findValue (line ++ 0 :: behind) =
      if (0x3A : UInt8) ∈ line ∧ colonAt line ≤ line.length % 256 then colonAt line + 1
      else line.length := by
  have strlen : rtStrlen (line ++ 0 :: behind) = line.length := by
    rw [rtStrlen, cString, takeWhile_ne plain]
  have few : line.length % 256 ≤ line.length := Nat.mod_le _ _
  have pos : (((line ++ 0 :: behind).take line.length.toUInt8.toNat).takeWhile
      fun b => b != 0x3A).length = min (line.length % 256) (colonAt line) := by
    rw [UInt8.toNat_ofNat', List.take_append_of_le_length few, ← List.take_takeWhile,
      List.length_take]
    rfl
  simp only [findValue, strlen, pos]
  by_cases colon : (0x3A : UInt8) ∈ line
  · obtain ⟨u, v, rfl, first⟩ := List.eq_append_cons_of_mem colon
    have at_ : colonAt (u ++ 0x3A :: v) = u.length := by rw [colonAt, takeWhile_ne first]
    rw [at_] at *
    rcases Nat.lt_or_ge ((u ++ 0x3A :: v).length % 256) u.length with late | found
    · have before :
          byteAt (u ++ 0x3A :: v ++ 0 :: behind) ((u ++ 0x3A :: v).length % 256) ≠ 0x3A := by
        rw [List.append_assoc, byteAt_append_left late]
        exact fun same => first (same ▸ byteAt_mem late)
      rw [Nat.min_eq_left (by omega), if_neg before, if_neg fun both => by omega]
    · have here : byteAt (u ++ 0x3A :: v ++ 0 :: behind) u.length = 0x3A := by
        simp [byteAt_eq]
      rw [Nat.min_eq_right found, if_pos here, if_pos ⟨colon, found⟩]
  · have none_ (i : ℕ) : byteAt (line ++ 0 :: behind) (min (line.length % 256) i) ≠ 0x3A := by
      have bound : min (line.length % 256) i ≤ line.length := (Nat.min_le_left _ _).trans few
      rcases Nat.eq_or_lt_of_le bound with last | inside
      · rw [last, byteAt_append_right le_rfl, Nat.sub_self]
        exact (by decide : (0 : UInt8) ≠ 0x3A)
      · rw [byteAt_append_left inside]
        exact fun same => colon (same ▸ byteAt_mem inside)
    rw [if_neg (none_ _), if_neg fun both => colon both.1]

/-- `FindValue` finds what stands behind the first colon of the string, or its end. -/
theorem drop_findValue {s : List UInt8} (plain : (0 : UInt8) ∉ s) (short : s.length < 256)
    (more : List UInt8) :
    (s ++ 0 :: more).drop (findValue (s ++ 0 :: more)) = behindColon s ++ 0 :: more := by
  rw [findValue_eq plain more, Nat.mod_eq_of_lt short]
  by_cases colon : (0x3A : UInt8) ∈ s
  · have within : colonAt s ≤ s.length := (List.takeWhile_prefix _).length_le
    rw [if_pos ⟨colon, within⟩]
    obtain ⟨u, v, rfl, first⟩ := List.eq_append_cons_of_mem colon
    rw [colonAt, takeWhile_ne first, behindColon, dropWhile_ne first]
    simp [List.drop_append]
  · rw [if_neg fun both => colon both.1, behindColon_of_not_mem colon, List.drop_left]
    rfl

/-- What a `+IPD` says of the data is decided before a byte that none of its texts holds. -/
theorem statusOf_stop {stop : UInt8} (ok : stop ∉ text "OK") (er : stop ∉ text "ER")
    (s more : List UInt8) : statusOf (s ++ stop :: more) = statusOf s := by
  simp only [statusOf, prefix_append_stop ok, prefix_append_stop er]

theorem dataStatus_eq (s more : List UInt8) : dataStatus (s ++ 0 :: more) = statusOf s := by
  have nul : ∀ b ∈ text "OK" ++ text "ER", b ≠ 0 := by decide +kernel
  have compare (t : List UInt8) (part : ∀ b ∈ t, b ∈ text "OK" ++ text "ER") :
      rtStrncmp (s ++ 0 :: more) t t.length = 0 ↔ t <+: s := by
    rw [rtStrncmp_eq_zero_comm, rtStrncmp_text_eq_zero_iff fun b member => nul b (part b member),
      prefix_append_stop fun member => nul 0 (part 0 member) rfl]
  have ok := compare (text "OK") (fun b member => List.mem_append_left _ member)
  have er := compare (text "ER") (fun b member => List.mem_append_right _ member)
  rw [show (text "OK").length = 2 by decide +kernel] at ok
  rw [show (text "ER").length = 2 by decide +kernel] at er
  simp only [dataStatus, statusOf, ok, er]

/-- **The value of a `+IPD`**, as it stands in the buffer once its `LF` has been overwritten. -/
theorem dataStatus_findValue {rest : List UInt8} (short : rest.length < 255)
    (more : List UInt8) :
    dataStatus ((rest ++ cr :: 0 :: more).drop (findValue (rest ++ cr :: 0 :: more))) =
      statusOf (behindColon (cString rest)) := by
  by_cases ends : (0 : UInt8) ∈ rest
  · obtain ⟨s, behind, rfl, plain⟩ := List.eq_append_cons_of_mem ends
    have small : s.length < 256 := by
      simp only [List.length_append, List.length_cons] at short
      omega
    rw [List.append_assoc, List.cons_append, drop_findValue plain small, dataStatus_eq, cString,
      takeWhile_ne plain]
  · have own : cString rest = rest := takeWhile_ne_self ends
    have regroup : rest ++ cr :: 0 :: more = (rest ++ [cr]) ++ 0 :: more := by simp
    rw [regroup, drop_findValue (by simp [ends, cr]) (by simp; omega), dataStatus_eq,
      own]
    by_cases colon : (0x3A : UInt8) ∈ rest
    · rw [behindColon_of_mem colon]
      exact statusOf_stop (by decide +kernel) (by decide +kernel) _ _
    · rw [behindColon_of_not_mem colon, behindColon_of_not_mem (by simp [colon, cr])]

/-! ## The decision about a line -/

theorem takeReport_rxBuf (env : Surroundings) (w : WifiInfo) (id : WifiCommandId)
    (value : List UInt8) : (takeReport env w id value).1.rxBuf = w.rxBuf := by
  cases id <;> rfl

theorem takeReport_answer (env : Surroundings) (w : WifiInfo) (id : WifiCommandId)
    (value : List UInt8) :
    (takeReport env w id value).2 =
      if id = .receiveData then .received (dataStatus value)
      else if id ∈ ownReports then .report (some id)
      else .report none := by
  cases id <;> rfl

theorem length_rxMemory (env : Surroundings) (w : WifiInfo) :
    (rxMemory env w).length = wifiRxBuff + 1 := by
  rw [rxMemory, List.length_append, w.rxBuf.length_cells, List.length_singleton]

/-- A byte of the receive buffer is overwritten. -/
theorem rxMemory_write (env : Surroundings) (w : WifiInfo) {i : ℕ} (inside : i < wifiRxBuff)
    (b : UInt8) :
    rxMemory env { w with rxBuf := w.rxBuf.write i [b] } = (rxMemory env w).set i b := by
  have count := w.rxBuf.length_cells
  apply List.ext_getElem?
  intro j
  simp only [rxMemory]
  rw [List.set_append_left _ _ (by omega), List.getElem?_append, List.getElem?_append,
    Block.getElem?_write, List.getElem?_set, (w.rxBuf.write i [b]).length_cells, List.length_set,
    count]
  by_cases here : j < wifiRxBuff
  · simp only [here, if_true, List.length_singleton]
    by_cases same : i = j
    · subst same
      simp [inside]
    · rw [if_neg (by omega), if_neg same]
  · simp only [here, if_false]

/-- What stands in `szCmd` behind the line is what was there. -/
theorem szCmd_write (szCmd : Block UInt8 cmdMaxLen) {line : List UInt8}
    (fits : line.length ≤ cmdMaxLen) : ∃ garbage, (szCmd.write 0 line).cells = line ++ garbage := by
  refine ⟨(szCmd.write 0 line).cells.drop line.length, ?_⟩
  have front : (szCmd.write 0 line).cells.take line.length = line :=
    Block.read_write_self szCmd 0 line (by omega)
  calc (szCmd.write 0 line).cells
      = (szCmd.write 0 line).cells.take line.length ++
          (szCmd.write 0 line).cells.drop line.length := (List.take_append_drop _ _).symm
    _ = line ++ (szCmd.write 0 line).cells.drop line.length := by rw [front]

/-- The `LF` of a report is overwritten where the line ends. -/
theorem drop_rxMemory_write (env : Surroundings) (w : WifiInfo) {begin_ end_ : ℕ}
    {rest more : List UInt8} (mem : (rxMemory env w).drop begin_ = rest ++ cr :: lf :: more)
    (ends : end_ = begin_ + rest.length + 1) (inside : end_ < wifiRxBuff) :
    (rxMemory env { w with rxBuf := w.rxBuf.write end_ [0] }).drop begin_ =
      rest ++ cr :: 0 :: more := by
  have behind : begin_ + rest.length + 1 - begin_ = rest.length + 1 := by omega
  rw [rxMemory_write env w inside, List.drop_set, if_neg (by omega), mem, ends, behind,
    List.set_append_right _ _ (by omega)]
  simp

/-- A report is looked for among the names, and where one is found, its value is what stands behind
the colon of the report with its `LF` overwritten. -/
theorem parseReport_search {env : Surroundings} {w : WifiInfo} {begin_ end_ : ℕ}
    {rest more : List UInt8} (mem : (rxMemory env w).drop begin_ = rest ++ cr :: lf :: more)
    (ends : end_ = begin_ + rest.length + 1) (inside : end_ < wifiRxBuff)
    (short : rest.length < 254) :
    ∃ garbage, parseReport env w begin_ end_ =
      let found := findCommand w.responseLen (rest ++ cr :: garbage) commandIds w.responseLen
      match found.1 with
      | none => ({ w with responseLen := found.2 }, .report none)
      | some id =>
          takeReport env { w with responseLen := found.2, rxBuf := w.rxBuf.write end_ [0] } id
            ((rest ++ cr :: 0 :: more).drop (findValue (rest ++ cr :: 0 :: more))) := by
  have len : (end_ - begin_).toUInt8.toNat = rest.length + 1 := by
    rw [UInt8.toNat_ofNat', ends]
    omega
  have copied : (rest ++ cr :: lf :: more).take (rest.length + 1) = rest ++ [cr] := by
    simp [List.take_append]
  obtain ⟨garbage, szCmd⟩ := szCmd_write env.szCmd (show (rest ++ [cr]).length ≤ cmdMaxLen by
    simp [cmdMaxLen]
    omega)
  rw [List.append_assoc, List.singleton_append] at szCmd
  have at_ : begin_ + (rest.length + 1) = end_ := by omega
  refine ⟨garbage, ?_⟩
  simp only [parseReport, mem, len, copied, szCmd, at_]
  generalize findCommand w.responseLen (rest ++ cr :: garbage) commandIds w.responseLen = hit
  obtain ⟨_ | id, left⟩ := hit
  · rfl
  · simp only
    rw [drop_rxMemory_write env { w with responseLen := left } mem ends inside]

/-- **A report is what it says it is.** -/
theorem parseReport_eq {env : Surroundings} {w : WifiInfo} {begin_ end_ : ℕ}
    {rest more : List UInt8} (mem : (rxMemory env w).drop begin_ = rest ++ cr :: lf :: more)
    (ends : end_ = begin_ + rest.length + 1) (inside : end_ < wifiRxBuff)
    (short : rest.length < 254) (suits : Suits w.responseLen rest) :
    (parseReport env w begin_ end_).2 = classifyReport rest ∧
      ((parseReport env w begin_ end_).1.rxBuf = w.rxBuf ∨
        (parseReport env w begin_ end_).1.rxBuf = w.rxBuf.write end_ [0]) := by
  obtain ⟨garbage, parsed⟩ := parseReport_search mem ends inside short
  have found := findCommand_of_suits suits garbage
  rw [parsed]
  generalize findCommand w.responseLen (rest ++ cr :: garbage) commandIds w.responseLen = hit
    at found
  obtain ⟨_ | id, left⟩ := hit
  · refine ⟨?_, .inl rfl⟩
    cases own : reportOf rest with
    | none => simp only [classifyReport, own]
    | some id => simp [own] at found
  · simp only
    rw [takeReport_answer, takeReport_rxBuf]
    refine ⟨?_, .inr rfl⟩
    cases own : reportOf rest with
    | none =>
        have other : id ∉ WifiCommandId.receiveData :: ownReports := by
          intro member
          rw [own] at found
          exact found id member rfl
        rw [List.mem_cons, not_or] at other
        rw [if_neg other.1, if_neg other.2, classifyReport, own]
    | some report =>
        simp only [own, Option.some.injEq] at found
        subst found
        rcases List.mem_cons.mp (mem_of_reportOf own).1 with rfl | other
        · rw [if_pos rfl, dataStatus_findValue (by omega)]
          simp only [classifyReport, own]
        · simp only [ownReports, List.mem_cons, List.not_mem_nil, or_false] at other
          rcases other with rfl | rfl | rfl | rfl | rfl <;>
            simp [classifyReport, own, ownReports]

/-- What the search leaves `responseLen` at when it stops at a name. -/
theorem findCommand_snd {keep : UInt8} {szCmd : List UInt8} {id : WifiCommandId} :
    ∀ {ids : List WifiCommandId} {responseLen : UInt8},
      (findCommand keep szCmd ids responseLen).1 = some id →
        (findCommand keep szCmd ids responseLen).2 = responseLenFor keep id
  | [], _, found => by cases found
  | other :: ids, responseLen, found => by
      simp only [findCommand] at found ⊢
      split at found
      · rename_i same
        cases found
        rw [if_pos same]
      · rename_i differs
        rw [if_neg differs]
        exact findCommand_snd found

/-- **A report reaches its case.** -/
theorem parseReport_own {env : Surroundings} {w : WifiInfo} {begin_ end_ : ℕ}
    {rest more : List UInt8} (mem : (rxMemory env w).drop begin_ = rest ++ cr :: lf :: more)
    (ends : end_ = begin_ + rest.length + 1) (inside : end_ < wifiRxBuff)
    (short : rest.length < 254) (suits : Suits w.responseLen rest) {id : WifiCommandId}
    (own : reportOf rest = some id) :
    parseReport env w begin_ end_ =
      takeReport env
        { w with
          responseLen := responseLenFor w.responseLen id
          rxBuf := w.rxBuf.write end_ [0] } id
        ((rest ++ cr :: 0 :: more).drop (findValue (rest ++ cr :: 0 :: more))) := by
  obtain ⟨garbage, parsed⟩ := parseReport_search mem ends inside short
  have found := findCommand_of_suits suits garbage
  simp only [own] at found
  rw [parsed, ← findCommand_snd found]
  simp only [found]

/-- The texts that a line is compared with. -/
theorem plain_texts : ∀ t ∈ [text "OK", text "ERROR", text "SEND OK", text "SEND FAIL"],
    (∀ b ∈ t, b ≠ 0) ∧ cr ∉ t := by
  decide +kernel

/-- **A line is what it says it is**, when its beginning is the one that was found. -/
theorem decideLine_eq (env : Surroundings) (s : Scan) {begin_ : ℕ} (end_ : ℕ)
    {line more : List UInt8}
    (mem : (rxMemory env s.wifi).drop begin_ = line ++ cr :: lf :: more)
    (begins : beginsAnswer (byteAt line 0) = true) (ends : end_ = begin_ + line.length + 1)
    (inside : end_ < wifiRxBuff) (short : line.length ≤ 254)
    (suits : byteAt line 0 = 0x2B → Suits s.wifi.responseLen line.tail) :
    (decideLine env s begin_ end_).answers = s.answers ++ (classify line).toList ∧
      (decideLine env s begin_ end_).consumed = end_ ∧
      ((decideLine env s begin_ end_).begin_ = s.begin_ ∨
        (decideLine env s begin_ end_).begin_ = some (begin_ + 1)) ∧
      ((decideLine env s begin_ end_).wifi.rxBuf = s.wifi.rxBuf ∨
        (decideLine env s begin_ end_).wifi.rxBuf = s.wifi.rxBuf.write end_ [0]) := by
  obtain ⟨first, rest, rfl⟩ : ∃ first rest, line = first :: rest := by
    cases line with
    | nil => exact absurd begins (by decide)
    | cons first rest => exact ⟨first, rest, rfl⟩
  have head : byteAt (first :: rest ++ cr :: lf :: more) 0 = first := rfl
  have own : byteAt (first :: rest) 0 = first := rfl
  change beginsAnswer first = true at begins
  have compare (t : List UInt8)
      (own : t ∈ [text "OK", text "ERROR", text "SEND OK", text "SEND FAIL"]) :
      rtStrncmp t (first :: rest ++ cr :: lf :: more) t.length = 0 ↔ t <+: first :: rest :=
    rtStrncmp_line (plain_texts t own).1 (plain_texts t own).2 _ _
  have ok := compare (text "OK") (by simp)
  have error := compare (text "ERROR") (by simp)
  have sendOk := compare (text "SEND OK") (by simp)
  have sendFail := compare (text "SEND FAIL") (by simp)
  rw [show (text "OK").length = 2 by decide +kernel] at ok
  rw [show (text "ERROR").length = 5 by decide +kernel] at error
  rw [show (text "SEND OK").length = 7 by decide +kernel] at sendOk
  rw [show (text "SEND FAIL").length = 9 by decide +kernel] at sendFail
  -- No answer begins with the first letter of `FAIL`.
  have notF : first ≠ 0x46 := by
    rintro rfl
    exact absurd begins (by decide)
  have fail : ¬ rtStrncmp (text "FAIL") (first :: rest ++ cr :: lf :: more) 5 = 0 :=
    rtStrncmp_ne_zero_of_head (by decide) (fun same => notF (same.symm.trans (by decide +kernel)))
  have noFail : ¬ text "FAIL" <+: first :: rest := by
    rw [show text "FAIL" = 0x46 :: text "AIL" by decide +kernel, List.cons_prefix_cons]
    exact fun same => notF same.1.symm
  simp only [decideLine, mem, classify, ok, error, fail, noFail, sendOk, sendFail, head, own,
    if_false]
  split_ifs with isOk isError isSendOk isSendFail plus
  · exact ⟨rfl, trivial, .inl rfl, .inl rfl⟩
  · exact ⟨rfl, trivial, .inl rfl, .inl rfl⟩
  · exact ⟨rfl, trivial, .inl rfl, .inl rfl⟩
  · exact ⟨rfl, trivial, .inl rfl, .inl rfl⟩
  · have behind : (rxMemory env s.wifi).drop (begin_ + 1) = rest ++ cr :: lf :: more := by
      rw [← List.drop_drop, mem]
      rfl
    simp only [List.length_cons] at ends short
    obtain ⟨answer, rxBuf⟩ := parseReport_eq behind (by omega) inside (by omega) (suits plus)
    exact ⟨by simp [answer], trivial, .inr rfl, rxBuf⟩
  · exact ⟨by simp, trivial, .inr rfl, .inl rfl⟩

end WhaleShark.Network
