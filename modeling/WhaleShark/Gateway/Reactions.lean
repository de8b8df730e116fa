import WhaleShark.Gateway.HandOver

/-!
# What the network manager does about a message

`NetworkManagerThread` decides by the message code, the network status and a few bytes that the
message brings, the TCP flag and the retry counter. `reaction` is that decision as a table, and
`react` is what each entry of it does, so that handling a message is counting, looking up and doing
(`handle_eq`). A property of the manager is then shown entry by entry.

The rest of the module says which message leads to which entry, and what a step leaves of the
queue and of the network statuses.
-/

set_option autoImplicit false

namespace WhaleShark

open Foundations Network

/-- What is done about a message. -/
inductive Reaction where
  /-- a command goes to the module -/
  | command (id : WifiCommandId)
  /-- the packet of the message is taken over, and the module told its length -/
  | setDataLength
  /-- the packet that was taken over goes to the module -/
  | sendData
  /-- the same, with the TCP flag cleared -/
  | resend
  /-- the packet is sent; the server has to acknowledge it -/
  | awaitAck
  /-- the server has acknowledged it -/
  | acknowledge
  /-- there is a connection -/
  | connect
  | ignore
  | reboot
  deriving DecidableEq, Repr

namespace Reaction

/-- Under `SMSG_WIFI_OK`, for the data `info`. -/
def toOk (networkStatus : NetworkStatus) (info : List UInt8) (tcpOn : FunctionalState) : Reaction :=
  match networkStatus with
  | .wifiRestart => .command .echoOff
  | .echoOff => .command .setPower
  | .setRfpower => .command .disableSleepMode
  | .disableSleepMode => .command .queryMode
  | .getWifiMode =>
      if byteAt info 0 = stationMode then .command .queryDhcp
      else if byteAt info 0 = nullMode ∨ byteAt info 0 = softApMode ∨
          byteAt info 0 = softApStationMode then .command .setMode
      else .ignore
  | .setWifiMode => .command .queryDhcp
  | .connectWifi => .command .queryApInfo
  | .getDhcpInfo =>
      if byteAt info dhcpCompareResult = 1 then .command .connectAp else .command .setDhcp
  | .setDhcp => .command .connectAp
  | .getApInfo =>
      if byteAt info dhcpModeInfo = 1 then .command .tcpConnect else .command .queryLocalInfo
  | .setLocalInfo => .command .queryLocalInfo
  | .getLocalInfo =>
      if byteAt info localIpIndex ≠ changeLocalInfo ∧ byteAt info gatewayIpIndex ≠ changeLocalInfo ∧
          byteAt info netmaskIpIndex ≠ changeLocalInfo then .command .tcpConnect
      else .command .setLocalInfo
  | .tcpConnect => if tcpOn = disable then .connect else .ignore
  | .readyToSendData => .sendData
  | .sendData => .awaitAck
  | .tcpDisconnect => .command .tcpConnect
  | .receiveData => .acknowledge
  | _ => .ignore

/-- What is tried again when a failure is counted. -/
def again (messge : Smsg) (networkStatus : Option NetworkStatus) : Option Reaction :=
  match messge, networkStatus with
  | .wifiError, some .sendData => some .resend
  | .wifiError, some .readyToSendData => some .sendData
  | .wifiError, some .tcpConnect => some (.command .tcpConnect)
  | .wifiFail, some .connectWifi => some (.command .connectAp)
  | .wifiTimeout, some .connectWifi => some (.command .connectAp)
  | _, _ => none

/-- Under a failure that is not counted. -/
def toFailure (messge : Smsg) (networkStatus : Option NetworkStatus) (tcpOn : FunctionalState) :
    Reaction :=
  match messge, networkStatus with
  | .wifiError, some .tcpDisconnect => .reboot
  | .wifiError, some .refuseData => .reboot
  | .wifiFail, some .sendData => .reboot
  | .wifiFail, _ => .ignore
  | _, _ => if tcpOn = enable then .command .tcpDisconnect else .reboot

end Reaction

/-- The decision about a message, over which data has been laid as here. -/
def reaction (messge : Smsg) (networkStatus : Option NetworkStatus) (info : List UInt8)
    (tcpOn : FunctionalState) (retryCount : UInt8) : Reaction :=
  match messge with
  | .wifiOk =>
      match networkStatus with
      | none => .ignore
      | some networkStatus => .toOk networkStatus info tcpOn
  | .tcpSendData => .setDataLength
  | failure =>
      match Reaction.again failure networkStatus with
      | some retried => if retryCount < retryMax then retried else .reboot
      | none => .toFailure failure networkStatus tcpOn

/-- Which messages lead to which reaction. -/
inductive Leads (messge : Smsg) (networkStatus : Option NetworkStatus) (tcpOn : FunctionalState)
    (retryCount : UInt8) : Reaction → Prop where
  | command (id : WifiCommandId) : Leads messge networkStatus tcpOn retryCount (.command id)
  | takes (code : messge = .tcpSendData) :
      Leads messge networkStatus tcpOn retryCount .setDataLength
  | prompted (code : messge = .wifiOk) (ready : networkStatus = some .readyToSendData) :
      Leads messge networkStatus tcpOn retryCount .sendData
  | failedReady (code : messge = .wifiError) (ready : networkStatus = some .readyToSendData)
      (few : retryCount < retryMax) : Leads messge networkStatus tcpOn retryCount .sendData
  | failedSent (code : messge = .wifiError) (sent : networkStatus = some .sendData)
      (few : retryCount < retryMax) : Leads messge networkStatus tcpOn retryCount .resend
  | awaits (code : messge = .wifiOk) (sent : networkStatus = some .sendData) :
      Leads messge networkStatus tcpOn retryCount .awaitAck
  | acknowledged (code : messge = .wifiOk) (received : networkStatus = some .receiveData) :
      Leads messge networkStatus tcpOn retryCount .acknowledge
  | connected (code : messge = .wifiOk) (named : networkStatus = some .tcpConnect)
      (off : tcpOn = disable) : Leads messge networkStatus tcpOn retryCount .connect
  | ignored : Leads messge networkStatus tcpOn retryCount .ignore
  | reboots (failed : messge ≠ .wifiOk) : Leads messge networkStatus tcpOn retryCount .reboot

section Leads

variable {messge : Smsg} {networkStatus : Option NetworkStatus} {info : List UInt8}
  {tcpOn : FunctionalState} {retryCount : UInt8}

theorem toOk_leads (networkStatus : NetworkStatus) :
    Leads .wifiOk (some networkStatus) tcpOn retryCount (.toOk networkStatus info tcpOn) := by
  cases networkStatus
  case getWifiMode =>
    simp only [Reaction.toOk]
    split_ifs
    · exact .command .queryDhcp
    · exact .command .setMode
    · exact .ignored
  case getDhcpInfo =>
    simp only [Reaction.toOk]
    split_ifs
    · exact .command .connectAp
    · exact .command .setDhcp
  case getApInfo =>
    simp only [Reaction.toOk]
    split_ifs
    · exact .command .tcpConnect
    · exact .command .queryLocalInfo
  case getLocalInfo =>
    simp only [Reaction.toOk]
    split_ifs
    · exact .command .tcpConnect
    · exact .command .setLocalInfo
  case tcpConnect =>
    simp only [Reaction.toOk]
    split_ifs with off
    · exact .connected rfl rfl off
    · exact .ignored
  case readyToSendData => exact .prompted rfl rfl
  case sendData => exact .awaits rfl rfl
  case receiveData => exact .acknowledged rfl rfl
  case wifiRestart | echoOff | setRfpower | disableSleepMode | setWifiMode | connectWifi | setDhcp
    | setLocalInfo | tcpDisconnect => exact .command _
  all_goals exact .ignored

theorem again_leads {retried : Reaction}
    (counted : Reaction.again messge networkStatus = some retried)
    (few : retryCount < retryMax) : Leads messge networkStatus tcpOn retryCount retried := by
  unfold Reaction.again at counted
  split at counted
  · cases counted
    exact .failedSent rfl rfl few
  · cases counted
    exact .failedReady rfl rfl few
  · cases counted
    exact .command .tcpConnect
  · cases counted
    exact .command .connectAp
  · cases counted
    exact .command .connectAp
  · cases counted

theorem toFailure_leads (failed : messge ≠ .wifiOk) :
    Leads messge networkStatus tcpOn retryCount (.toFailure messge networkStatus tcpOn) := by
  unfold Reaction.toFailure
  split
  · exact .reboots failed
  · exact .reboots failed
  · exact .reboots failed
  · exact .ignored
  · split_ifs
    · exact .command .tcpDisconnect
    · exact .reboots failed

/-- The decision is one of these. -/
theorem reaction_leads : Leads messge networkStatus tcpOn retryCount
    (reaction messge networkStatus info tcpOn retryCount) := by
  have failure (failed : messge ≠ .wifiOk) :
      Leads messge networkStatus tcpOn retryCount
        (match Reaction.again messge networkStatus with
          | some retried => if retryCount < retryMax then retried else .reboot
          | none => .toFailure messge networkStatus tcpOn) := by
    split
    · rename_i counted
      split_ifs with few
      · exact again_leads counted few
      · exact .reboots failed
    · exact toFailure_leads failed
  cases messge with
  | wifiOk =>
      cases networkStatus with
      | none => exact .ignored
      | some networkStatus => exact toOk_leads networkStatus
  | tcpSendData => exact .takes rfl
  | wifiError => exact failure (by simp)
  | wifiFail => exact failure (by simp)
  | wifiTimeout => exact failure (by simp)

end Leads

/-- The retry counter behind a message. -/
def retryCountBehind (messge : Smsg) (networkStatus : Option NetworkStatus) (retryCount : UInt8) :
    UInt8 :=
  if messge = .wifiOk then 0
  else if (Reaction.again messge networkStatus).isSome then retryCount + 1
  else retryCount

namespace Gateway

variable (site : Site)

/-- What the manager does. -/
def react (message : MqData) (g : Gateway) : Reaction → Gateway
  | .command id => g.sendWifiCommand site id
  | .setDataLength => g.handleTcpSendData site message
  | .sendData => g.tcpSendData site
  | .resend => (g.setTcpStatus disable).tcpSendData site
  | .awaitAck => (g.setNetworkStatus .waitAck).setResponseTimeoutTimer true
  | .acknowledge =>
      (((g.setTcpStatus enable).setResponseTimeoutTimer false).setNetworkStatus
        .standbySend).setSendEvent
  | .connect => (g.setTcpStatus enable).setNetworkStatus .standbySend
  | .ignore => g
  | .reboot => g.deviceReboot

/-- The message is laid and counted. -/
def note (g : Gateway) (message : MqData) : Gateway :=
  { g.lay site message with
    manager := { (g.lay site message).manager with
      retryCount := retryCountBehind message.messge (site.laid message.data).1
        g.manager.retryCount } }

/-- The decision about a message. -/
def reactionTo (g : Gateway) (message : MqData) : Reaction :=
  reaction message.messge (site.laid message.data).1 (site.laid message.data).2.cells g.getTcpStatus
    g.manager.retryCount

variable {site} {g : Gateway} {message : MqData}

theorem handleOk_eq (code : message.messge = .wifiOk) :
    (g.lay site message).resetRetryCount.handleOk site =
      react site message (g.note site message) (g.reactionTo site message) := by
  have counted : g.note site message = (g.lay site message).resetRetryCount := by
    simp only [note, retryCountBehind, code, if_true]
    rfl
  obtain ⟨h, laid⟩ : ∃ h, (g.lay site message).resetRetryCount = h := ⟨_, rfl⟩
  have status : h.manager.networkStatus = (site.laid message.data).1 := by rw [← laid]; rfl
  have info : h.manager.data = (site.laid message.data).2 := by rw [← laid]; rfl
  have flag : h.getTcpStatus = g.getTcpStatus := by rw [← laid]; rfl
  rw [counted, laid, reactionTo, code, ← status, ← info, ← flag]
  cases named : h.manager.networkStatus with
  | none => simp only [handleOk, named, reaction, react]
  | some networkStatus =>
      simp only [handleOk, named, reaction, infoByte]
      cases networkStatus <;> simp only [Reaction.toOk, apply_ite (react site message h)] <;> rfl

/-- A counted failure. -/
theorem retry_eq {again : Gateway → Gateway} {retried : Reaction}
    (counted : Reaction.again message.messge (site.laid message.data).1 = some retried)
    (failed : message.messge ≠ .wifiOk)
    (same : again (g.note site message) = react site message (g.note site message) retried) :
    (g.lay site message).retry again =
      react site message (g.note site message)
        (if g.manager.retryCount < retryMax then retried else .reboot) := by
  have noted : g.note site message =
      { g.lay site message with
        manager := { (g.lay site message).manager with
          retryCount := (g.lay site message).manager.retryCount + 1 } } := by
    simp only [note, retryCountBehind, failed, counted, if_false, Option.isSome_some, if_true]
    rfl
  simp only [retry, ← noted]
  have before : (g.lay site message).manager.retryCount = g.manager.retryCount := rfl
  rw [before]
  split
  · exact same
  · rfl

/-- A failure that is not counted. -/
theorem note_eq_lay (uncounted : Reaction.again message.messge (site.laid message.data).1 = none)
    (failed : message.messge ≠ .wifiOk) : g.note site message = g.lay site message := by
  simp only [note, retryCountBehind, failed, uncounted, if_false, Option.isSome_none,
    Bool.false_eq_true]
  rfl

theorem disconnectOrReboot_eq (g : Gateway) (message : MqData) :
    g.disconnectOrReboot site =
      react site message g
        (if g.getTcpStatus = enable then .command .tcpDisconnect else .reboot) := by
  rw [apply_ite (react site message g)]
  rfl

theorem handleError_eq (code : message.messge = .wifiError) :
    (g.lay site message).handleError site =
      react site message (g.note site message) (g.reactionTo site message) := by
  have failed : message.messge ≠ .wifiOk := by simp [code]
  have status : (g.lay site message).manager.networkStatus = (site.laid message.data).1 := rfl
  rw [reactionTo, code]
  cases named : (site.laid message.data).1 with
  | none =>
      rw [note_eq_lay (by simp only [code, named, Reaction.again]) failed]
      simp only [handleError, status, named]
      exact disconnectOrReboot_eq _ _
  | some networkStatus =>
      simp only [handleError, status, named]
      cases networkStatus with
      | sendData | readyToSendData | tcpConnect =>
          exact retry_eq (by simp only [code, named]; rfl) failed rfl
      | tcpDisconnect | refuseData =>
          rw [note_eq_lay (by simp only [code, named, Reaction.again]) failed]
          rfl
      | _ =>
          rw [note_eq_lay (by simp only [code, named, Reaction.again]) failed]
          exact disconnectOrReboot_eq _ _

theorem handleFail_eq (code : message.messge = .wifiFail) :
    (g.lay site message).handleFail site =
      react site message (g.note site message) (g.reactionTo site message) := by
  have failed : message.messge ≠ .wifiOk := by simp [code]
  have status : (g.lay site message).manager.networkStatus = (site.laid message.data).1 := rfl
  rw [reactionTo, code]
  cases named : (site.laid message.data).1 with
  | none =>
      rw [note_eq_lay (by simp only [code, named, Reaction.again]) failed]
      simp only [handleFail, status, named]
      rfl
  | some networkStatus =>
      simp only [handleFail, status, named]
      cases networkStatus with
      | connectWifi => exact retry_eq (by simp only [code, named]; rfl) failed rfl
      | _ =>
          rw [note_eq_lay (by simp only [code, named, Reaction.again]) failed]
          rfl

theorem handleTimeout_eq (code : message.messge = .wifiTimeout) :
    (g.lay site message).handleTimeout site =
      react site message (g.note site message) (g.reactionTo site message) := by
  have failed : message.messge ≠ .wifiOk := by simp [code]
  have status : (g.lay site message).manager.networkStatus = (site.laid message.data).1 := rfl
  rw [reactionTo, code]
  cases named : (site.laid message.data).1 with
  | none =>
      rw [note_eq_lay (by simp only [code, named, Reaction.again]) failed]
      simp only [handleTimeout, status, named]
      exact disconnectOrReboot_eq _ _
  | some networkStatus =>
      simp only [handleTimeout, status, named]
      cases networkStatus with
      | connectWifi => exact retry_eq (by simp only [code, named]; rfl) failed rfl
      | _ =>
          rw [note_eq_lay (by simp only [code, named, Reaction.again]) failed]
          exact disconnectOrReboot_eq _ _

/-- **Handling a message is counting it, looking the reaction up, and doing it.** -/
theorem handle_eq (site : Site) (g : Gateway) (message : MqData) :
    handle site g message =
      react site message (g.note site message) (g.reactionTo site message) := by
  unfold handle
  cases code : message.messge with
  | wifiOk => exact handleOk_eq code
  | wifiError => exact handleError_eq code
  | wifiFail => exact handleFail_eq code
  | wifiTimeout => exact handleTimeout_eq code
  | tcpSendData =>
      have same : g.note site message = g.lay site message := by
        simp only [note, retryCountBehind, Reaction.again, code, reduceCtorEq, if_false,
          Option.isSome_none, Bool.false_eq_true]
        rfl
      rw [same, reactionTo, code]
      rfl

end Gateway

/-! ## What a reaction changes -/

/-- The network status that the call of a reaction announces. -/
def Reaction.announces : Reaction → Option NetworkStatus
  | .command id => commandStatus id
  | .setDataLength => some .setSendDataLength
  | .sendData => some .sendData
  | .resend => some .sendData
  | _ => none

/-- The network status that a reaction leaves the manager at. -/
def Reaction.standsAt : Reaction → Option NetworkStatus
  | .awaitAck => some .waitAck
  | .acknowledge => some .standbySend
  | .connect => some .standbySend
  | _ => none

namespace Gateway

section Handle

variable (site : Site) (g : Gateway) (message : MqData)

theorem reactionTo_leads :
    Leads message.messge (site.laid message.data).1 g.getTcpStatus g.manager.retryCount
      (g.reactionTo site message) := reaction_leads

@[simp] theorem networkManagerMq_handle :
    (handle site g message).networkManagerMq = g.networkManagerMq := by
  rw [handle_eq]
  cases g.reactionTo site message <;> rfl

@[simp] theorem mqData_handle : (handle site g message).wifi.wifi.mqData = g.wifi.wifi.mqData := by
  rw [handle_eq]
  cases g.reactionTo site message <;> rfl

theorem wifiStatus_handle :
    (handle site g message).wifi.wifi.networkInfoData.networkStatus =
      (g.reactionTo site message).announces.getD g.wifi.wifi.networkInfoData.networkStatus := by
  rw [handle_eq]
  cases g.reactionTo site message <;> rfl

theorem managerStatus_handle :
    (handle site g message).manager.networkStatus =
      (g.reactionTo site message).standsAt.or (site.laid message.data).1 := by
  rw [handle_eq]
  cases g.reactionTo site message <;> rfl

theorem retryCount_handle :
    (handle site g message).manager.retryCount =
      retryCountBehind message.messge (site.laid message.data).1 g.manager.retryCount := by
  rw [handle_eq]
  cases g.reactionTo site message <;> rfl

theorem rebooted_handle :
    (handle site g message).rebooted =
      (g.rebooted || decide (g.reactionTo site message = .reboot)) := by
  rw [handle_eq]
  cases g.reactionTo site message <;> simp [react] <;> rfl

/-- Only taking a packet over changes the packet. -/
theorem packet_handle (keeps : g.reactionTo site message ≠ .setDataLength) :
    (handle site g message).manager.tcpSendBuffer = g.manager.tcpSendBuffer ∧
      (handle site g message).manager.tcpSendLength = g.manager.tcpSendLength := by
  rw [handle_eq]
  revert keeps
  cases g.reactionTo site message with
  | setDataLength => exact fun keeps => absurd rfl keeps
  | _ => exact fun _ => ⟨rfl, rfl⟩

end Handle

/-! ## What the other steps change -/

section Steps

variable (g : Gateway)

theorem wifi_networkMangerSendMessage (message : MqData) :
    (g.networkMangerSendMessage message).wifi = g.wifi := by
  unfold networkMangerSendMessage
  split <;> rfl

theorem manager_networkMangerSendMessage (message : MqData) :
    (g.networkMangerSendMessage message).manager = g.manager := by
  unfold networkMangerSendMessage
  split <;> rfl

theorem wifi_behindWifi (e : WifiEvent) (wifi : WifiThread) (output : WifiOutput) :
    (g.behindWifi e wifi output).wifi = wifi := by
  cases output with
  | message message => exact wifi_networkMangerSendMessage _ _
  | _ => rfl

theorem manager_behindWifi (e : WifiEvent) (wifi : WifiThread) (output : WifiOutput) :
    (g.behindWifi e wifi output).manager = g.manager := by
  cases output with
  | message message => exact manager_networkMangerSendMessage _ _
  | _ => rfl

theorem networkManagerMq_behindWifi (e : WifiEvent) (wifi : WifiThread) {output : WifiOutput}
    (silent : ∀ message, output ≠ .message message) :
    (g.behindWifi e wifi output).networkManagerMq = g.networkManagerMq := by
  cases output with
  | message message => exact absurd rfl (silent message)
  | _ => rfl

theorem items_behindWifi (e : WifiEvent) (wifi : WifiThread) (message : MqData) :
    (g.behindWifi e wifi (.message message)).networkManagerMq.items =
      if g.networkManagerMq.items.length < networkmanagerMqSize then
        g.networkManagerMq.items ++ [message]
      else g.networkManagerMq.items :=
  items_networkMangerSendMessage _ message

theorem wifi_sendData (pData : List UInt8) : (g.sendData pData).wifi = g.wifi := by
  unfold sendData
  split
  · exact wifi_networkMangerSendMessage _ _
  · rfl

theorem wifi_behindPlc (plc : Plc.PlcThread) (made : Option Plc.Packetised) :
    (g.behindPlc plc made).wifi = g.wifi := by
  unfold behindPlc
  split
  · rfl
  · exact wifi_sendData _ _

/-- `SendData` changes the manager's status when it takes a packet, and nothing else of it. -/
theorem manager_sendData (pData : List UInt8) :
    (g.sendData pData).manager =
      if 0 < pData.length ∧ g.manager.networkStatus = some .standbySend then
        { g.manager with networkStatus := some .setSendDataLength }
      else g.manager := by
  unfold sendData
  split
  · exact manager_networkMangerSendMessage _ _
  · rfl

end Steps

end Gateway

/-- The message that a step takes from the queue. -/
def handledIn (τ : GatewayTransition) : Option MqData :=
  match τ.event with
  | .handle => τ.source.networkManagerMq.pop.map Prod.fst
  | _ => none

theorem handledIn_handle {g g' : Gateway} {o : Unit} {message : MqData}
    {queue : Fifo MqData networkmanagerMqSize}
    (popped : g.networkManagerMq.pop = some (message, queue)) :
    handledIn ⟨g, .handle, o, g'⟩ = some message := by
  rw [handledIn, popped, Option.map_some]

/-- A step that takes a message handles it, for the gateway with the rest of the queue. -/
theorem handle_of_handledIn {site : Site} {τ : GatewayTransition} {message : MqData}
    (takes : (gateway site).Takes τ) (handled : handledIn τ = some message) :
    ∃ queue, τ.source.networkManagerMq.items = message :: queue.items ∧
      τ.target = Gateway.handle site { τ.source with networkManagerMq := queue } message := by
  obtain ⟨g, e, o, g'⟩ := τ
  have step : GatewayStep site g e g' := (gateway_cases takes).2
  cases step with
  | @handle m queue popped =>
      obtain rfl : m = message := Option.some.inj ((handledIn_handle popped).symm.trans handled)
      exact ⟨queue, Fifo.items_of_pop popped, rfl⟩
  | wifi => cases handled
  | plc => cases handled
  | responseTimeout => cases handled

end WhaleShark
