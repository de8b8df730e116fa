import WhaleShark.Gateway.WifiCommand

/-!
# The answers of the Wi-Fi module

`ParserWifiData` walks through the receive buffer, one position past the bytes it was given. It
looks for a byte with which an answer can begin, and at each `CR LF` behind it decides what the
line says, by the bytes from the beginning that it found. The beginning is never looked for
again within a call, so a second line is decided by the first one's bytes; where the line is no
`OK`, `ERROR`, `FAIL`, `SEND OK` or `SEND FAIL` the beginning moves on by one.

An `Answer` names the branch that was taken; the answers of a call are what its scan collects.
What C leaves undefined is in `Surroundings`: the byte at address zero, which is read while there
is no beginning yet, the byte behind the receive buffer, and what the local `szCmd` holds before
it is written.
-/

set_option autoImplicit false

namespace WhaleShark.Network

open Foundations

/-- `WIFI_RX_BUFF`, which is also the size of the receive buffer. -/
def wifiRxBuff : ℕ := 1024

/-- `wifiInfo`, as far as threads and timers read and write it. A timer is there as whether it
runs. -/
structure WifiInfo where
  mqData : MqData
  wifiTimeoutTimer : Bool
  sendTimeoutTimer : Bool
  networkInfoData : NetworkInfoData
  responseLen : UInt8
  tx : TxBuffer
  rxBuf : Block UInt8 wifiRxBuff
  deriving DecidableEq

/-- The configuration, and memory that is read without having been written. -/
structure Surroundings where
  settings : CommandSettings
  dhcpMode : UInt8
  atNull : UInt8
  behindRxBuf : UInt8
  szCmd : Block UInt8 cmdMaxLen

/-- The branch that was taken for a line. A report is named by the command it answers, where
that command has a case of its own. -/
inductive Answer where
  | ok
  | error
  | fail
  | sendOk
  | sendFail
  | report (id : Option WifiCommandId)
  | received (dataStatus : NetworkStatus)
  deriving DecidableEq, Repr

/-! ## Reports -/

/-- The ids of `commandInfo`, from the last one to the first. -/
def commandIds : List WifiCommandId :=
  [.tcpDisconnect, .receiveData, .setMacInfo, .getMacInfo, .queryMacInfo, .setSendDataLength,
    .tcpConnect, .disconnectAp, .getLocalInfo, .queryLocalInfo, .setLocalInfo, .getDhcp, .queryDhcp,
    .setDhcp, .getApInfo, .queryApInfo, .connectAp, .getMode, .queryMode, .setMode,
    .disableSleepMode, .setPower, .echoOff, .restart]

/-- `wifiInfo.responseLen` while `id` is compared. -/
def responseLenFor (keepResponseLen : UInt8) (id : WifiCommandId) : UInt8 :=
  if id = .receiveData then 3 else keepResponseLen

/-- The loop over `commandInfo`: the id that was found, and what `wifiInfo.responseLen` is left
at. -/
def findCommand (keepResponseLen : UInt8) (szCmd : List UInt8) :
    List WifiCommandId → UInt8 → Option WifiCommandId × UInt8
  | [], responseLen => (none, responseLen)
  | id :: ids, _ =>
      let responseLen := responseLenFor keepResponseLen id
      if rtStrncmp szCmd (szCli id) responseLen.toNat = 0 then (some id, responseLen)
      else findCommand keepResponseLen szCmd ids responseLen

/-- `FindValue`: where the value begins, behind the first colon or at the end of the string. The
loop that is to cut `CR` and `LF` off starts at the `NUL`, so it cuts nothing. -/
def findValue (pCmd : List UInt8) : ℕ :=
  let len : UInt8 := (rtStrlen pCmd).toUInt8
  let pos := ((pCmd.take len.toNat).takeWhile fun b => b != 0x3A).length
  if byteAt pCmd pos = 0x3A then pos + 1 else rtStrlen pCmd

/-- `rt_memcpy(&data, value, rt_strlen(data))`: as much as `data` was long before. -/
def copyValue (info : NetworkInfoData) (value : List UInt8) : NetworkInfoData :=
  { info with data := info.data.write 0 (value.take (rtStrlen info.data.cells)) }

/-- What `CMD_GET_LOCAL_INFO` notes in `data`. -/
def compareLocalInfo (set : CommandSettings) (data : Block UInt8 128) (value : List UInt8) :
    Block UInt8 128 :=
  let is (name : List UInt8) := rtStrncmp name value (name.length + 1) = 0
  let differs (own : List UInt8) := rtStrncmp data.cells own (rtStrlen own) ≠ 0
  if is (text "ip") ∧ differs set.localIp then
    (data.write localIpIndex [changeLocalInfo]).write gatewayIpIndex [0]
  else if is (text "gateway") ∧ differs set.gatewayIp then
    (data.write gatewayIpIndex [changeLocalInfo]).write netmaskIpIndex [0]
  else if is (text "netmask") ∧ differs set.subnetMask then
    (data.write netmaskIpIndex [changeLocalInfo]).write maxIndex [0]
  else data

/-- `dataStatus`, for the value of a `+IPD`. -/
def dataStatus (value : List UInt8) : NetworkStatus :=
  if rtStrncmp value (text "OK") 2 = 0 then .receiveData
  else if rtStrncmp value (text "ER") 2 = 0 then .refuseData
  else .none

/-- The `switch` over the command that a report answers. -/
def takeReport (env : Surroundings) (w : WifiInfo) (id : WifiCommandId) (value : List UInt8) :
    WifiInfo × Answer :=
  let info := w.networkInfoData
  let copied := copyValue info value
  let (info, answer) : NetworkInfoData × Answer :=
    match id with
    | .getMode =>
        ({ info with networkStatus := .getWifiMode, data := info.data.write 0 [byteAt value 0] },
          .report (some .getMode))
    | .getDhcp =>
        let result : UInt8 := (atoi value >>> 1).toUInt8 &&& (0x01 : UInt8)
        ({ copied with
            networkStatus := .getDhcpInfo
            data := (copied.data.write dhcpModeInfo [result]).write dhcpCompareResult
              [if result = env.dhcpMode then 1 else 0] },
          .report (some .getDhcp))
    | .getApInfo =>
        (if info.networkStatus = .queryApInfo then
          { copied with
            networkStatus := .getApInfo
            data := copied.data.write dhcpModeInfo [env.dhcpMode] }
        else copied, .report (some .getApInfo))
    | .getLocalInfo =>
        ({ copied with
            networkStatus := .getLocalInfo
            data := compareLocalInfo env.settings copied.data value },
          .report (some .getLocalInfo))
    | .getMacInfo =>
        ({ copied with networkStatus := .getMacInfo }, .report (some .getMacInfo))
    | .receiveData =>
        let status := dataStatus value
        ({ info with
            response :=
              if status = .receiveData then .ok
              else if status = .refuseData then .error
              else info.response
            networkStatus := status },
          .received status)
    | _ => (info, .report none)
  ({ w with
      sendTimeoutTimer := if id = .receiveData then false else w.sendTimeoutTimer
      networkInfoData := info }, answer)

/-! ## The walk -/

/-- The variables of the walk, and the branches taken so far. -/
structure Scan where
  wifi : WifiInfo
  begin_ : Option ℕ
  consumed : ℕ
  answers : List Answer
  deriving DecidableEq

/-- The receive buffer and the byte behind it. -/
def rxMemory (env : Surroundings) (w : WifiInfo) : List UInt8 := w.rxBuf.cells ++ [env.behindRxBuf]

/-- A byte with which an answer can begin. -/
def beginsAnswer (b : UInt8) : Bool := b == 0x2B || b == 0x4F || b == 0x45 || b == 0x53 || b == 0x3E

/-- A report has ended at `end_`; `begin_` is behind its plus sign. -/
def parseReport (env : Surroundings) (w : WifiInfo) (begin_ end_ : ℕ) : WifiInfo × Answer :=
  let mem := rxMemory env w
  let len : UInt8 := (end_ - begin_).toUInt8
  let szCmd := env.szCmd.write 0 ((mem.drop begin_).take len.toNat)
  let found := findCommand w.responseLen szCmd.cells commandIds w.responseLen
  let w := { w with responseLen := found.2 }
  match found.1 with
  | none => (w, .report none)
  | some id =>
      let w := { w with rxBuf := w.rxBuf.write (begin_ + len.toNat) [0] }
      let pCmd := (rxMemory env w).drop begin_
      takeReport env w id (pCmd.drop (findValue pCmd))

/-- A response has been recognised. -/
def Scan.respond (s : Scan) (response : WifiResponse) (answer : Answer) : Scan :=
  { s with
    wifi := { s.wifi with networkInfoData := { s.wifi.networkInfoData with response := response } }
    answers := s.answers ++ [answer] }

/-- The decision at a `CR LF` whose `LF` is at `end_`. `FAIL` is compared over the length of
`ERROR`. -/
def decideLine (env : Surroundings) (s : Scan) (begin_ end_ : ℕ) : Scan :=
  let line := (rxMemory env s.wifi).drop begin_
  let s : Scan :=
    if rtStrncmp (text "OK") line 2 = 0 then s.respond .ok .ok
    else if rtStrncmp (text "ERROR") line 5 = 0 then s.respond .error .error
    else if rtStrncmp (text "FAIL") line 5 = 0 then s.respond .fail .fail
    else if rtStrncmp (text "SEND OK") line 7 = 0 then s.respond .ok .sendOk
    else if rtStrncmp (text "SEND FAIL") line 9 = 0 then s.respond .fail .sendFail
    else if byteAt line 0 = 0x2B then
      let (wifi, answer) := parseReport env s.wifi (begin_ + 1) end_
      { s with wifi := wifi, begin_ := some (begin_ + 1), answers := s.answers ++ [answer] }
    else { s with begin_ := some (begin_ + 1) }
  { s with consumed := end_ }

/-- `*begin` -/
def Scan.atBegin (env : Surroundings) (s : Scan) : UInt8 :=
  match s.begin_ with
  | none => env.atNull
  | some begin_ => byteAt (rxMemory env s.wifi) begin_

/-- The prompt for data has been recognised. -/
def Scan.prompted (s : Scan) : Scan :=
  { s with wifi := { s.wifi with networkInfoData := { s.wifi.networkInfoData with
    response := .ok, networkStatus := .readyToSendData } } }

/-- One position of the walk. -/
def parseStep (env : Surroundings) (s : Scan) (end_ : ℕ) : Scan :=
  let mem := rxMemory env s.wifi
  if beginsAnswer (byteAt mem end_) ∧ s.begin_ = none then { s with begin_ := some end_ }
  else if s.atBegin env = 0x3E ∧ byteAt mem end_ = cr ∧
      s.wifi.networkInfoData.networkStatus = .setSendDataLength then s.prompted
  else
    match s.begin_ with
    | none => s
    | some begin_ =>
        if byteAt mem end_ = lf ∧ byteAt mem (end_ - 1) = cr then decideLine env s begin_ end_
        else s

/-- `ParserWifiData`, for the first `rxSize` bytes of the receive buffer. -/
def parserWifiData (env : Surroundings) (w : WifiInfo) (rxSize : ℕ) : Scan :=
  if rxSize = 0 then ⟨w, none, 0, []⟩
  else (List.range (rxSize + 1)).foldl (parseStep env) ⟨w, none, 0, []⟩

/-! ## A position before and behind the beginning -/

/-- While nothing has begun. -/
theorem parseStep_of_none (env : Surroundings) {s : Scan} (begun : s.begin_ = none) (end_ : ℕ) :
    parseStep env s end_ =
      if beginsAnswer (byteAt (rxMemory env s.wifi) end_) then { s with begin_ := some end_ }
      else if env.atNull = 0x3E ∧ byteAt (rxMemory env s.wifi) end_ = cr ∧
          s.wifi.networkInfoData.networkStatus = .setSendDataLength then s.prompted
      else s := by
  simp only [parseStep, Scan.atBegin, begun, and_true]

/-- When something has begun. -/
theorem parseStep_of_some (env : Surroundings) {s : Scan} {begin_ : ℕ}
    (begun : s.begin_ = some begin_) (end_ : ℕ) :
    parseStep env s end_ =
      if byteAt (rxMemory env s.wifi) begin_ = 0x3E ∧ byteAt (rxMemory env s.wifi) end_ = cr ∧
          s.wifi.networkInfoData.networkStatus = .setSendDataLength then s.prompted
      else if byteAt (rxMemory env s.wifi) end_ = lf ∧
          byteAt (rxMemory env s.wifi) (end_ - 1) = cr then decideLine env s begin_ end_
      else s := by
  simp only [parseStep, Scan.atBegin, begun, reduceCtorEq, and_false, if_false]

/-! ## What the parser leaves alone -/

/-- The transmit buffer and the timer for the module are the same, and a response that was there is
replaced by another one at most. -/
structure Keeps (w w' : WifiInfo) : Prop where
  tx : w'.tx = w.tx
  wifiTimeoutTimer : w'.wifiTimeoutTimer = w.wifiTimeoutTimer
  response : w'.networkInfoData.response = .responseMax → w.networkInfoData.response = .responseMax

theorem Keeps.refl (w : WifiInfo) : Keeps w w := ⟨rfl, rfl, id⟩

theorem Keeps.trans {w w' w'' : WifiInfo} (one : Keeps w w') (two : Keeps w' w'') : Keeps w w'' :=
  ⟨two.tx.trans one.tx, two.wifiTimeoutTimer.trans one.wifiTimeoutTimer,
    fun none_ => one.response (two.response none_)⟩

/-- The statuses that a report can leave. -/
def reported : List NetworkStatus :=
  [.getWifiMode, .getDhcpInfo, .getApInfo, .getLocalInfo, .getMacInfo, .receiveData, .refuseData,
    .none]

/-- How the network status moves: a report says it, or a prompt comes for the data that the module
was told the length of. -/
inductive Moves : NetworkStatus → NetworkStatus → Prop where
  | same {status : NetworkStatus} : Moves status status
  | reports {before status : NetworkStatus} (said : status ∈ reported) : Moves before status
  | prompted : Moves .setSendDataLength .readyToSendData

theorem Moves.trans {a b d : NetworkStatus} (one : Moves a b) (two : Moves b d) : Moves a d := by
  cases two with
  | same => exact one
  | reports said => exact .reports said
  | prompted =>
      cases one with
      | same => exact .prompted
      | reports said => simp [reported] at said

/-- The last message stays, and the network status moves. -/
structure Tells (w w' : WifiInfo) : Prop where
  mqData : w'.mqData = w.mqData
  status : Moves w.networkInfoData.networkStatus w'.networkInfoData.networkStatus

theorem Tells.refl (w : WifiInfo) : Tells w w := ⟨rfl, .same⟩

theorem Tells.trans {w w' w'' : WifiInfo} (one : Tells w w') (two : Tells w' w'') : Tells w w'' :=
  ⟨two.mqData.trans one.mqData, one.status.trans two.status⟩

theorem takeReport_keeps (env : Surroundings) (w : WifiInfo) (id : WifiCommandId)
    (value : List UInt8) : Keeps w (takeReport env w id value).1 := by
  cases id
  case receiveData =>
    refine ⟨rfl, rfl, ?_⟩
    simp only [takeReport]
    split_ifs
    · intro none_
      cases none_
    · intro none_
      cases none_
    · exact fun none_ => none_
  case getApInfo =>
    refine ⟨rfl, rfl, ?_⟩
    simp only [takeReport]
    split_ifs <;> exact fun none_ => none_
  all_goals exact ⟨rfl, rfl, fun none_ => none_⟩

theorem parseReport_keeps (env : Surroundings) (w : WifiInfo) (begin_ end_ : ℕ) :
    Keeps w (parseReport env w begin_ end_).1 := by
  simp only [parseReport]
  split
  · exact ⟨rfl, rfl, fun none_ => none_⟩
  · refine Keeps.trans ?_ (takeReport_keeps env _ _ _)
    exact ⟨rfl, rfl, fun none_ => none_⟩

theorem takeReport_tells (env : Surroundings) (w : WifiInfo) (id : WifiCommandId)
    (value : List UInt8) : Tells w (takeReport env w id value).1 := by
  refine ⟨rfl, ?_⟩
  cases id
  case receiveData =>
    refine .reports ?_
    simp only [takeReport, dataStatus]
    split_ifs <;> simp [reported]
  case getApInfo =>
    simp only [takeReport]
    split_ifs
    · exact .reports (by simp [reported])
    · exact .same
  case getMode | getDhcp | getLocalInfo | getMacInfo =>
    exact .reports (by simp [takeReport, reported])
  all_goals exact .same

theorem parseReport_tells (env : Surroundings) (w : WifiInfo) (begin_ end_ : ℕ) :
    Tells w (parseReport env w begin_ end_).1 := by
  simp only [parseReport]
  split
  · exact ⟨rfl, .same⟩
  · refine Tells.trans ?_ (takeReport_tells env _ _ _)
    exact ⟨rfl, .same⟩

theorem decideLine_keeps (env : Surroundings) (s : Scan) (begin_ end_ : ℕ) :
    Keeps s.wifi (decideLine env s begin_ end_).wifi := by
  have responds {response : WifiResponse} (answer : Answer) (some_ : response ≠ .responseMax) :
      Keeps s.wifi (s.respond response answer).wifi :=
    ⟨rfl, rfl, fun none_ => absurd none_ some_⟩
  simp only [decideLine]
  split_ifs
  · exact responds .ok (by decide)
  · exact responds .error (by decide)
  · exact responds .fail (by decide)
  · exact responds .sendOk (by decide)
  · exact responds .sendFail (by decide)
  · exact parseReport_keeps env s.wifi (begin_ + 1) end_
  · exact .refl s.wifi

theorem decideLine_tells (env : Surroundings) (s : Scan) (begin_ end_ : ℕ) :
    Tells s.wifi (decideLine env s begin_ end_).wifi := by
  have responds (response : WifiResponse) (answer : Answer) :
      Tells s.wifi (s.respond response answer).wifi := ⟨rfl, .same⟩
  simp only [decideLine]
  split_ifs
  · exact responds .ok .ok
  · exact responds .error .error
  · exact responds .fail .fail
  · exact responds .ok .sendOk
  · exact responds .fail .sendFail
  · exact parseReport_tells env s.wifi (begin_ + 1) end_
  · exact .refl s.wifi

/-! ## A walk, position by position -/

section Walk

variable {env : Surroundings} {R : WifiInfo → WifiInfo → Prop}

/-- What a line and a prompt do, a position does. -/
theorem parseStep_related (refl : ∀ w, R w w)
    (decides : ∀ (s : Scan) (begin_ end_ : ℕ), R s.wifi (decideLine env s begin_ end_).wifi)
    (prompts : ∀ s : Scan, s.wifi.networkInfoData.networkStatus = .setSendDataLength →
      R s.wifi s.prompted.wifi) (s : Scan) (end_ : ℕ) : R s.wifi (parseStep env s end_).wifi := by
  cases begun : s.begin_ with
  | none =>
      rw [parseStep_of_none env begun]
      split_ifs with begins prompted
      · exact refl s.wifi
      · exact prompts s prompted.2.2
      · exact refl s.wifi
  | some begin_ =>
      rw [parseStep_of_some env begun]
      split_ifs with prompted ends
      · exact prompts s prompted.2.2
      · exact decides s begin_ end_
      · exact refl s.wifi

/-- What each position does, the parser does. -/
theorem parserWifiData_related (refl : ∀ w, R w w)
    (trans : ∀ {w w' w''}, R w w' → R w' w'' → R w w'')
    (decides : ∀ (s : Scan) (begin_ end_ : ℕ), R s.wifi (decideLine env s begin_ end_).wifi)
    (prompts : ∀ s : Scan, s.wifi.networkInfoData.networkStatus = .setSendDataLength →
      R s.wifi s.prompted.wifi) (w : WifiInfo) (rxSize : ℕ) :
    R w (parserWifiData env w rxSize).wifi := by
  have walk : ∀ (positions : List ℕ) (s : Scan),
      R s.wifi (positions.foldl (parseStep env) s).wifi := by
    intro positions
    induction positions with
    | nil => exact fun s => refl s.wifi
    | cons position positions ih =>
        intro s
        rw [List.foldl_cons]
        exact trans (parseStep_related refl decides prompts s position) (ih _)
  simp only [parserWifiData]
  split_ifs
  · exact refl w
  · exact walk (List.range (rxSize + 1)) ⟨w, none, 0, []⟩

end Walk

theorem parserWifiData_keeps (env : Surroundings) (w : WifiInfo) (rxSize : ℕ) :
    Keeps w (parserWifiData env w rxSize).wifi := by
  refine parserWifiData_related Keeps.refl Keeps.trans (decideLine_keeps env) ?_ w rxSize
  intro s _
  exact ⟨rfl, rfl, fun none_ => nomatch none_⟩

theorem parserWifiData_tells (env : Surroundings) (w : WifiInfo) (rxSize : ℕ) :
    Tells w (parserWifiData env w rxSize).wifi := by
  refine parserWifiData_related Tells.refl Tells.trans (decideLine_tells env) ?_ w rxSize
  intro s asked
  exact ⟨rfl, asked ▸ .prompted⟩

end WhaleShark.Network
