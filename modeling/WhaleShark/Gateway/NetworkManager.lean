import WhaleShark.Foundations.Fifo
import WhaleShark.Gateway.PlcRuns
import WhaleShark.Gateway.WifiThread

/-!
# The network manager and the gateway

`NetworkManagerThread` takes a message from its queue, lays the data of the message over its
`networkInfoData`, and does what the message code and the network status ask for: it issues
a command, starts or stops the timer for the server's answer, changes the TCP flag, or reboots.
`SendData`, which the PLC thread calls, queues a packet when the network status is
`STATUS_STANDBY_SEND`, and drops it otherwise.

A `Gateway` is the PLC thread, the Wi-Fi thread and the network manager with what they share, and
a step of the machine `gateway` is a turn of the PLC thread, a step of the Wi-Fi thread or of one of
its timers, a message handled, or the response timer running out. Messages arrive as they
were sent here; over the queue of pointers they do while no cell is overwritten
(`gateway_run_of_intact`). Beside the code's own variables a gateway counts the commands that were
issued and not yet transmitted, and those transmitted and not yet answered.

What a step can do is listed once (`gateway_cases`).
-/

set_option autoImplicit false

namespace WhaleShark

open Foundations Network

/-- `TCP_BUFFER_MAX` -/
def tcpBufferMax : ℕ := 256

/-- `RETRY_MAX` -/
def retryMax : UInt8 := 5

/-- `networkInfo`. Of its `networkInfoData`, the network status that stands there, if it is one,
and the data; whether the response timer runs. -/
structure NetworkInfo where
  responseTimeoutTimer : Bool
  networkStatus : Option NetworkStatus
  data : Block UInt8 128
  tcpSendLength : UInt16
  retryCount : UInt8
  tcpSendBuffer : Block UInt8 tcpBufferMax
  deriving DecidableEq

/-- What the Wi-Fi side is surrounded by, and how the compiler lays out `NetworkInfoData`: what its
network status and its data are when the bytes of a packet are copied over it. -/
structure Site extends Surroundings where
  laidOver : List UInt8 → Option NetworkStatus × Block UInt8 128

/-- `incData` is the flag `SMSG_INC_DATA` of the PLC thread. -/
structure Gateway where
  plc : Plc.PlcThread
  incData : Bool
  wifi : WifiThread
  manager : NetworkInfo
  networkManagerMq : Fifo MqData networkmanagerMqSize
  untransmitted : ℕ
  unanswered : ℕ
  rebooted : Bool
  deriving DecidableEq

inductive GatewayEvent where
  /-- a step of the Wi-Fi side other than a call -/
  | wifi (e : WifiEvent)
  /-- a turn of the PLC thread, with `SMSG_RX_DATA` or not, and what it reads -/
  | plc (rx : Bool) (reads : List (List UInt8))
  /-- `NetworkManagerThread` takes a message and handles it -/
  | handle
  /-- `ResponseTimeoutTimer` -/
  | responseTimeout

namespace Gateway

/-! ## What the threads call -/

/-- `NetworkMangerSendMessage` -/
def networkMangerSendMessage (g : Gateway) (message : MqData) : Gateway :=
  match g.networkManagerMq.push message with
  | none => g
  | some queue => { g with networkManagerMq := queue }

/-- `SendData` -/
def sendData (g : Gateway) (pData : List UInt8) : Gateway :=
  if 0 < pData.length ∧ g.manager.networkStatus = some .standbySend then
    networkMangerSendMessage
      { g with manager := { g.manager with networkStatus := some .setSendDataLength } }
      ⟨.tcpSendData, pData.length, .packets pData⟩
  else g

/-- A call stores a command. It sends `SMSG_TX_DATA` in a step of its own. -/
def issue (g : Gateway) (site : Site) (call : Call) : Gateway :=
  { g with
    wifi := { g.wifi with wifi := g.wifi.wifi.call site.settings call, calling := true }
    untransmitted := g.untransmitted + 1 }

/-- `SetTcpStatus` -/
def setTcpStatus (g : Gateway) (tcpOn : FunctionalState) : Gateway :=
  { g with plc := Plc.setTcpStatus g.plc tcpOn }

/-- `GetTcpStatus` -/
def getTcpStatus (g : Gateway) : FunctionalState := g.plc.info.tcpOn

/-- `SetSendEvent` -/
def setSendEvent (g : Gateway) : Gateway := { g with incData := true }

/-- `DeviceReboot` -/
def deviceReboot (g : Gateway) : Gateway := { g with rebooted := true }

def setNetworkStatus (g : Gateway) (networkStatus : NetworkStatus) : Gateway :=
  { g with manager := { g.manager with networkStatus := some networkStatus } }

def setResponseTimeoutTimer (g : Gateway) (runs : Bool) : Gateway :=
  { g with manager := { g.manager with responseTimeoutTimer := runs } }

/-! ## `NetworkManagerThread` -/

variable (site : Site)

def sendWifiCommand (g : Gateway) (id : WifiCommandId) : Gateway :=
  g.issue site (.sendWifiCommand id)

/-- `TcpSendData(tcpSendBuffer, tcpSendLength)` -/
def tcpSendData (g : Gateway) : Gateway :=
  g.issue site (.tcpSendData g.manager.tcpSendBuffer.cells g.manager.tcpSendLength)

/-- `if( RETRY_MAX > p_handle->retryCount++)`, or else the reboot. -/
def retry (g : Gateway) (again : Gateway → Gateway) : Gateway :=
  let counted := { g with manager := { g.manager with retryCount := g.manager.retryCount + 1 } }
  if g.manager.retryCount < retryMax then again counted else counted.deviceReboot

/-- `networkInfoData.data[i]` -/
def infoByte (g : Gateway) (i : ℕ) : UInt8 := byteAt g.manager.data.cells i

/-- `case SMSG_WIFI_OK`, behind `p_handle->retryCount = 0`. -/
def handleOk (g : Gateway) : Gateway :=
  match g.manager.networkStatus with
  | some .wifiRestart => g.sendWifiCommand site .echoOff
  | some .echoOff => g.sendWifiCommand site .setPower
  | some .setRfpower => g.sendWifiCommand site .disableSleepMode
  | some .disableSleepMode => g.sendWifiCommand site .queryMode
  | some .getWifiMode =>
      if g.infoByte 0 = stationMode then g.sendWifiCommand site .queryDhcp
      else if g.infoByte 0 = nullMode ∨ g.infoByte 0 = softApMode ∨
          g.infoByte 0 = softApStationMode then g.sendWifiCommand site .setMode
      else g
  | some .setWifiMode => g.sendWifiCommand site .queryDhcp
  | some .connectWifi => g.sendWifiCommand site .queryApInfo
  | some .getDhcpInfo =>
      if g.infoByte dhcpCompareResult = 1 then g.sendWifiCommand site .connectAp
      else g.sendWifiCommand site .setDhcp
  | some .setDhcp => g.sendWifiCommand site .connectAp
  | some .getApInfo =>
      if g.infoByte dhcpModeInfo = 1 then g.sendWifiCommand site .tcpConnect
      else g.sendWifiCommand site .queryLocalInfo
  | some .setLocalInfo => g.sendWifiCommand site .queryLocalInfo
  | some .getLocalInfo =>
      if g.infoByte localIpIndex ≠ changeLocalInfo ∧ g.infoByte gatewayIpIndex ≠ changeLocalInfo ∧
          g.infoByte netmaskIpIndex ≠ changeLocalInfo then g.sendWifiCommand site .tcpConnect
      else g.sendWifiCommand site .setLocalInfo
  | some .tcpConnect =>
      if g.getTcpStatus = disable then (g.setTcpStatus enable).setNetworkStatus .standbySend else g
  | some .readyToSendData => g.tcpSendData site
  | some .sendData => (g.setNetworkStatus .waitAck).setResponseTimeoutTimer true
  | some .tcpDisconnect => g.sendWifiCommand site .tcpConnect
  | some .receiveData =>
      (((g.setTcpStatus enable).setResponseTimeoutTimer false).setNetworkStatus
        .standbySend).setSendEvent
  | _ => g

/-- The connection is closed, or the gateway reboots when there is none. -/
def disconnectOrReboot (g : Gateway) : Gateway :=
  if g.getTcpStatus = enable then g.sendWifiCommand site .tcpDisconnect else g.deviceReboot

/-- `case SMSG_WIFI_ERROR` -/
def handleError (g : Gateway) : Gateway :=
  match g.manager.networkStatus with
  | some .sendData => g.retry fun g => (g.setTcpStatus disable).tcpSendData site
  | some .readyToSendData => g.retry fun g => g.tcpSendData site
  | some .tcpConnect => g.retry fun g => g.sendWifiCommand site .tcpConnect
  | some .tcpDisconnect | some .refuseData => g.deviceReboot
  | _ => g.disconnectOrReboot site

/-- `case SMSG_WIFI_FAIL` -/
def handleFail (g : Gateway) : Gateway :=
  match g.manager.networkStatus with
  | some .connectWifi => g.retry fun g => g.sendWifiCommand site .connectAp
  | some .sendData => g.deviceReboot
  | _ => g

/-- `case SMSG_WIFI_TIMEOUT` -/
def handleTimeout (g : Gateway) : Gateway :=
  match g.manager.networkStatus with
  | some .connectWifi => g.retry fun g => g.sendWifiCommand site .connectAp
  | _ => g.disconnectOrReboot site

/-- `case SMSG_TCP_SEND_DATA` -/
def handleTcpSendData (g : Gateway) (message : MqData) : Gateway :=
  let bytes : List UInt8 :=
    match message.data with
    | .packets bytes => bytes.take message.size
    | .networkInfo _ => []
  let length := message.size.toUInt16
  issue
    { g with manager := { g.manager with
      tcpSendBuffer := (Block.fill tcpBufferMax 0).write 0 bytes
      tcpSendLength := length } }
    site (.tcpSetDataLength length)

end Gateway

/-- What `networkInfoData` is when the data of a message is copied over it. -/
def Site.laid (site : Site) : MqContent → Option NetworkStatus × Block UInt8 128
  | .networkInfo info => (some info.networkStatus, info.data)
  | .packets bytes => site.laidOver bytes

namespace Gateway

/-- The data of the message is copied over `networkInfoData`. -/
def lay (site : Site) (g : Gateway) (message : MqData) : Gateway :=
  let info := site.laid message.data
  { g with manager := { g.manager with networkStatus := info.1, data := info.2 } }

/-- `p_handle->retryCount = 0` -/
def resetRetryCount (g : Gateway) : Gateway :=
  { g with manager := { g.manager with retryCount := 0 } }

/-- A message is handled. -/
def handle (site : Site) (g : Gateway) (message : MqData) : Gateway :=
  match message.messge with
  | .wifiOk => (g.lay site message).resetRetryCount.handleOk site
  | .wifiError => (g.lay site message).handleError site
  | .wifiFail => (g.lay site message).handleFail site
  | .wifiTimeout => (g.lay site message).handleTimeout site
  | .tcpSendData => (g.lay site message).handleTcpSendData site message

/-! ## What handling a message does -/

/-- The statuses that have no case under `SMSG_WIFI_OK`. -/
def withoutCase : List NetworkStatus :=
  [.none, .checkWifiMode, .queryDhcpInfo, .queryApInfo, .queryLocalInfo, .disconnectWifi,
    .setSendDataLength, .waitAck, .standbySend, .continuousSend, .queryMacInfo, .getMacInfo,
    .setMacInfo, .refuseData]

/-- What the manager does about a message: something, or it takes the connection as established, or
nothing. -/
inductive Attention where
  | acts
  | connects
  | ignores
  deriving DecidableEq, Repr

/-- For a message with this code, with this network status, mode and TCP flag. -/
def attention (messge : Smsg) (networkStatus : Option NetworkStatus) (mode : UInt8)
    (tcpOn : FunctionalState) : Attention :=
  match messge with
  | .wifiOk =>
      match networkStatus with
      | none => .ignores
      | some .tcpConnect => if tcpOn = disable then .connects else .ignores
      | some .getWifiMode =>
          if mode ∈ [nullMode, stationMode, softApMode, softApStationMode] then .acts else .ignores
      | some status => if status ∈ withoutCase then .ignores else .acts
  | .wifiFail =>
      if networkStatus = some .connectWifi ∨ networkStatus = some .sendData then .acts
      else .ignores
  | _ => .acts

def attentionTo (site : Site) (g : Gateway) (message : MqData) : Attention :=
  attention message.messge (site.laid message.data).1 (byteAt (site.laid message.data).2.cells 0)
    g.getTcpStatus

/-- What handling does, to a gateway over whose `networkInfoData` the message was laid: a command is
issued, the gateway reboots, the answer of the server is awaited or has come, the connection is
there, or nothing. -/
inductive Handling (site : Site) (g : Gateway) (message : MqData) : Gateway → Prop where
  | issues (acts : g.attentionTo site message = .acts) {g' : Gateway} {call : Call}
      {tcpOn : FunctionalState} (plc : g'.plc = Plc.setTcpStatus g.plc tcpOn) :
      Handling site g message (g'.issue site call)
  | reboots (acts : g.attentionTo site message = .acts) {g' : Gateway} (plc : g'.plc = g.plc) :
      Handling site g message g'.deviceReboot
  | awaits (acts : g.attentionTo site message = .acts) :
      Handling site g message
        ((((g.lay site message).resetRetryCount).setNetworkStatus .waitAck).setResponseTimeoutTimer
          true)
  | acknowledged (acts : g.attentionTo site message = .acts) :
      Handling site g message
        ((((((g.lay site message).resetRetryCount).setTcpStatus enable).setResponseTimeoutTimer
          false).setNetworkStatus .standbySend).setSendEvent)
  | connected (connects : g.attentionTo site message = .connects) :
      Handling site g message
        ((((g.lay site message).resetRetryCount).setTcpStatus enable).setNetworkStatus .standbySend)
  | ignoredOk (ignores : g.attentionTo site message = .ignores) :
      Handling site g message (g.lay site message).resetRetryCount
  | ignoredFail (ignores : g.attentionTo site message = .ignores) :
      Handling site g message (g.lay site message)

section Handling

variable {site : Site} {g : Gateway} {message : MqData}

theorem Handling.command (acts : g.attentionTo site message = .acts) {g' : Gateway} {call : Call}
    (plc : g'.plc = g.plc) : Handling site g message (g'.issue site call) :=
  .issues acts (plc.trans (by rfl : g.plc = Plc.setTcpStatus g.plc g.plc.info.tcpOn))

theorem retry_handling (acts : g.attentionTo site message = .acts) {g' : Gateway}
    {again : Gateway → Gateway} (plc : g'.plc = g.plc)
    (handles : ∀ g'' : Gateway, g''.plc = g.plc → Handling site g message (again g'')) :
    Handling site g message (g'.retry again) := by
  unfold retry
  split
  · exact handles _ plc
  · exact .reboots acts plc

theorem disconnectOrReboot_handling (acts : g.attentionTo site message = .acts) {g' : Gateway}
    (plc : g'.plc = g.plc) : Handling site g message (g'.disconnectOrReboot site) := by
  unfold disconnectOrReboot
  split
  · exact .command acts plc
  · exact .reboots acts plc

theorem handleOk_handling (code : message.messge = .wifiOk) :
    Handling site g message ((g.lay site message).resetRetryCount.handleOk site) := by
  obtain ⟨h, laid⟩ : ∃ h, (g.lay site message).resetRetryCount = h := ⟨_, rfl⟩
  have plc : h.plc = g.plc := by rw [← laid]; rfl
  have status : h.manager.networkStatus = (site.laid message.data).1 := by rw [← laid]; rfl
  have mode : h.infoByte 0 = byteAt (site.laid message.data).2.cells 0 := by rw [← laid]; rfl
  have flag : h.getTcpStatus = g.getTcpStatus := by rw [← laid]; rfl
  have attends : g.attentionTo site message =
      attention .wifiOk h.manager.networkStatus (h.infoByte 0) h.getTcpStatus := by
    rw [attentionTo, code, status, mode, flag]
  have ignored (ignores : g.attentionTo site message = .ignores) :
      Handling site g message h := by
    rw [← laid]
    exact .ignoredOk ignores
  rw [laid]
  cases named : h.manager.networkStatus with
  | none =>
      simp only [handleOk, named]
      rw [named] at attends
      exact ignored attends
  | some networkStatus =>
      simp only [handleOk, named]
      rw [named] at attends
      cases networkStatus
      case getWifiMode =>
        dsimp only
        split
        · rename_i station
          exact .command (by simp [attends, attention, station]) plc
        · rename_i notStation
          split
          · rename_i other
            exact .command (by rcases other with mode | mode | mode <;>
              simp [attends, attention, mode]) plc
          · rename_i notOther
            simp only [not_or] at notOther
            exact ignored (by simp [attends, attention, notStation, notOther])
      case tcpConnect =>
        dsimp only
        split
        · rename_i off
          rw [← laid]
          exact .connected (by simp [attends, attention, off])
        · rename_i connected
          exact ignored (by simp [attends, attention, connected])
      case sendData =>
        rw [← laid]
        exact .awaits attends
      case receiveData =>
        rw [← laid]
        exact .acknowledged attends
      case getDhcpInfo =>
        dsimp only
        split <;> exact .command attends plc
      case getApInfo =>
        dsimp only
        split <;> exact .command attends plc
      case getLocalInfo =>
        dsimp only
        split <;> exact .command attends plc
      case wifiRestart | echoOff | setRfpower | disableSleepMode | setWifiMode | connectWifi
        | setDhcp | setLocalInfo | readyToSendData | tcpDisconnect => exact .command attends plc
      all_goals exact ignored attends

theorem handleError_handling (code : message.messge = .wifiError) :
    Handling site g message ((g.lay site message).handleError site) := by
  have acts : g.attentionTo site message = .acts := by rw [attentionTo, code]; rfl
  unfold handleError
  split
  · exact retry_handling acts rfl fun _ plc =>
      .issues acts (congrArg (Plc.setTcpStatus · disable) plc)
  · exact retry_handling acts rfl fun _ plc => .command acts plc
  · exact retry_handling acts rfl fun _ plc => .command acts plc
  · exact .reboots acts rfl
  · exact .reboots acts rfl
  · exact disconnectOrReboot_handling acts rfl

theorem handleFail_handling (code : message.messge = .wifiFail) :
    Handling site g message ((g.lay site message).handleFail site) := by
  have status : (g.lay site message).manager.networkStatus = (site.laid message.data).1 := rfl
  unfold handleFail
  split
  · rename_i connecting
    have acts : g.attentionTo site message = .acts := by
      simp [attentionTo, attention, code, ← status, connecting]
    exact retry_handling acts rfl fun _ plc => .command acts plc
  · rename_i sending
    exact .reboots (by simp [attentionTo, attention, code, ← status, sending]) rfl
  · rename_i notConnecting notSending
    rw [status] at notConnecting notSending
    have other : ¬ ((site.laid message.data).1 = some .connectWifi ∨
        (site.laid message.data).1 = some .sendData) := not_or.mpr ⟨notConnecting, notSending⟩
    exact .ignoredFail (by simp only [attentionTo, attention, code, if_neg other])

theorem handleTimeout_handling (code : message.messge = .wifiTimeout) :
    Handling site g message ((g.lay site message).handleTimeout site) := by
  have acts : g.attentionTo site message = .acts := by rw [attentionTo, code]; rfl
  unfold handleTimeout
  split
  · exact retry_handling acts rfl fun _ plc => .command acts plc
  · exact disconnectOrReboot_handling acts rfl

end Handling

/-- Handling a message does one of these. -/
theorem handle_handling (site : Site) (g : Gateway) (message : MqData) :
    Handling site g message (handle site g message) := by
  unfold handle
  cases code : message.messge with
  | wifiOk => exact handleOk_handling code
  | wifiError => exact handleError_handling code
  | wifiFail => exact handleFail_handling code
  | wifiTimeout => exact handleTimeout_handling code
  | tcpSendData => exact .command (by rw [attentionTo, code]; rfl) rfl

/-! ## The steps -/

/-- A step with which a command counts as answered: a response is posted, or the module has
taken too long. The `OK` ahead of the prompt for data is not yet the answer. -/
def answers (w : WifiInfo) : WifiEvent → Bool
  | .read _ =>
      w.networkInfoData.response ≠ .ok || w.networkInfoData.networkStatus ≠ .setSendDataLength
  | .wifiTimeout => true
  | _ => false

/-- Behind a step of the Wi-Fi side. -/
def behindWifi (g : Gateway) (e : WifiEvent) (wifi : WifiThread) : WifiOutput → Gateway
  | .written _ =>
      { g with
        wifi := wifi
        untransmitted := g.untransmitted - 1
        unanswered := g.unanswered + 1 }
  | .message message =>
      networkMangerSendMessage
        { g with
          wifi := wifi
          unanswered := if answers g.wifi.wifi e then g.unanswered - 1 else g.unanswered }
        message
  | _ => { g with wifi := wifi }

/-- Behind a turn of the PLC thread. -/
def behindPlc (g : Gateway) (plc : Plc.PlcThread) (made : Option Plc.Packetised) : Gateway :=
  let g := { g with plc := plc, incData := false }
  match made.bind (·.sent) with
  | none => g
  | some bytes => g.sendData bytes

end Gateway

/-- Nothing runs after a reboot. -/
def gateway (site : Site) : Machine Gateway GatewayEvent Unit where
  step g e :=
    if g.rebooted then none
    else
      match e with
      | .wifi (.store _) => none
      | .wifi e =>
          match (wifiThread site.toSurroundings).step g.wifi e with
          | none => none
          | some (wifi, output) => some (g.behindWifi e wifi output, ())
      | .plc rx reads =>
          match Plc.plccommRx g.plc rx g.incData reads with
          | none => none
          | some (plc, made) => some (g.behindPlc plc made, ())
      | .handle =>
          match g.wifi.calling, g.networkManagerMq.pop with
          | false, some (message, queue) =>
              some (Gateway.handle site { g with networkManagerMq := queue } message, ())
          | _, _ => none
      | .responseTimeout =>
          if g.manager.responseTimeoutTimer then
            some ((g.setResponseTimeoutTimer false).deviceReboot, ())
          else none

abbrev GatewayTransition := Transition Gateway GatewayEvent Unit

/-- The steps. -/
inductive GatewayStep (site : Site) (g : Gateway) : GatewayEvent → Gateway → Prop where
  | wifi {e : WifiEvent} {wifi : WifiThread} {output : WifiOutput}
      (step : WifiStep site.toSurroundings g.wifi e wifi output)
      (own : ∀ call, e ≠ .store call) : GatewayStep site g (.wifi e) (g.behindWifi e wifi output)
  | plc {rx : Bool} {reads : List (List UInt8)} {plc : Plc.PlcThread}
      {made : Option Plc.Packetised}
      (turn : Plc.plccommRx g.plc rx g.incData reads = some (plc, made)) :
      GatewayStep site g (.plc rx reads) (g.behindPlc plc made)
  | handle {message : MqData} {queue : Fifo MqData networkmanagerMqSize}
      (popped : g.networkManagerMq.pop = some (message, queue)) :
      GatewayStep site g .handle (Gateway.handle site { g with networkManagerMq := queue } message)
  | responseTimeout (runs : g.manager.responseTimeoutTimer = true) :
      GatewayStep site g .responseTimeout (g.setResponseTimeoutTimer false).deviceReboot

/-- Every step of the machine is one of these. -/
theorem gateway_cases {site : Site} {g g' : Gateway} {e : GatewayEvent} {o : Unit}
    (step : (gateway site).step g e = some (g', o)) :
    g.rebooted = false ∧ GatewayStep site g e g' := by
  simp only [gateway] at step
  split at step
  · cases step
  · rename_i runs
    refine ⟨Bool.eq_false_iff.mpr runs, ?_⟩
    split at step
    · cases step
    · rename_i e own
      split at step
      · cases step
      · rename_i wifi output taken
        cases step
        exact .wifi (wifiThread_cases taken) own
    · split at step
      · cases step
      · rename_i turn
        cases step
        exact .plc turn
    · split at step
      · rename_i popped
        cases step
        exact .handle popped
      · cases step
    · split at step
      · rename_i runs
        cases step
        exact .responseTimeout runs
      · cases step

/-! ## The way to a connection -/

/-- A configuration, and a compiler that lays no network status over the first letters of a
packet. -/
def someSite : Site :=
  { someSurroundings with
    laidOver := fun bytes => (none, (Block.fill 128 0).write 0 (bytes.drop 2)) }

/-- `NetworkManagerThread` has issued its first command. -/
def startGateway (site : Site) : Gateway :=
  Gateway.sendWifiCommand site
    { plc := { Plc.startedTs with info := { Plc.startedTs.info with tcpOn := disable } }
      incData := false
      wifi := startWifi
      manager :=
        { responseTimeoutTimer := false
          networkStatus := some .none
          data := .fill 128 0
          tcpSendLength := 0
          retryCount := 0
          tcpSendBuffer := .fill tcpBufferMax 0 }
      networkManagerMq := .empty MqData networkmanagerMqSize
      untransmitted := 0
      unanswered := 0
      rebooted := false }
    .restart

/-- Bytes of the module are read, the response is posted, and the manager handles it. -/
def answered (reads : List (List UInt8)) : List GatewayEvent :=
  [.wifi .indicate, .wifi .recv, .wifi .act] ++ reads.map (fun bytes => .wifi (.read bytes)) ++
    [.wifi (.read []), .handle]

/-- A command is transmitted and answered. -/
def exchanged (reads : List (List UInt8)) : List GatewayEvent :=
  [.wifi .post, .wifi .recv, .wifi .act, .wifi .finish] ++ answered reads

/-- A line of the module. -/
def lineOf (s : String) : List UInt8 := text s ++ [cr, lf]

/-- From the restart of the module to the connection. -/
def connecting : List GatewayEvent :=
  exchanged [lineOf "OK"] ++ exchanged [lineOf "OK"] ++ exchanged [lineOf "OK"] ++
    exchanged [lineOf "OK"] ++ exchanged [lineOf "+CWMODE_DEF:1", lineOf "OK"] ++
    exchanged [lineOf "+CWDHCP_DEF:3", lineOf "OK"] ++ exchanged [lineOf "OK"] ++
    exchanged [lineOf "+CWJAP_DEF:0", lineOf "OK"] ++ exchanged [lineOf "OK"]

/-- A frame arrives at the first sensor's turn. -/
def frameArrives : GatewayEvent := .plc true [Plc.frameOfZeros ++ [0]]

/-- The packet that is queued goes to the server, which acknowledges it. -/
def packetSent : List GatewayEvent :=
  [.handle] ++ exchanged [lineOf "OK", lineOf ">"] ++ exchanged [lineOf "SEND OK"] ++
    answered [lineOf "+IPD,2:OK"]

end WhaleShark
