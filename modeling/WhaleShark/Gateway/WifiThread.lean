import WhaleShark.Foundations.Runs
import WhaleShark.Gateway.WifiParser

/-!
# The thread of the Wi-Fi module

`WifiRxThread` sleeps on an event object with two flags. With `SMSG_RX_DATA` it reads what the
UART holds and has `ParserWifiData` look at the buffer after each read; then it posts the response
that was recognised last. Otherwise, with `SMSG_TX_DATA`, it writes the command that stands in the
transmit buffer. The two are the branches of one `if`, so a turn with both flags only reads.

A step of the machine `wifiThread` is one of these actions of the thread, an indication by the
UART driver, one half of a call that stores a command (it stores, then it posts
`SMSG_TX_DATA`), or a timer that runs out. The calls are made by one thread, so there is at most one
under way. An event object hands its flags to a thread that is suspended on it at once, and keeps
them otherwise (`rtEventSend`).

What a step can do is listed once (`wifiThread_cases`).
-/

set_option autoImplicit false

namespace WhaleShark.Network

open Foundations

/-- The two flags of `rx_event`. -/
structure EventSet where
  rxData : Bool
  txData : Bool
  deriving DecidableEq, Repr

def EventSet.empty : EventSet := ⟨false, false⟩

/-- Where the thread is. -/
inductive Doing where
  /-- about to call `rt_event_recv` -/
  | asking
  /-- inside `rt_event_recv`, with no flag to return -/
  | suspended
  /-- `rt_event_recv` has returned these -/
  | received (events : EventSet)
  /-- in the loop that reads -/
  | reading
  /-- `WifiTxData` has returned -/
  | written
  deriving DecidableEq

/-- The state the thread shares, and where everyone is. `calling` says that a command is stored and
its `SMSG_TX_DATA` not yet sent. -/
structure WifiThread where
  wifi : WifiInfo
  uRemain : ℕ
  event : EventSet
  calling : Bool
  doing : Doing
  deriving DecidableEq

inductive WifiEvent where
  /-- `WifiRxIndicate` -/
  | indicate
  /-- a call stores a command -/
  | store (call : Call)
  /-- and sends `SMSG_TX_DATA` -/
  | post
  /-- the thread calls `rt_event_recv` -/
  | recv
  /-- it goes into the branch for the events it has got -/
  | act
  /-- `rt_device_read` returns these bytes -/
  | read (bytes : List UInt8)
  /-- behind `WifiTxData` -/
  | finish
  /-- `WifiTimeoutTimer` -/
  | wifiTimeout
  /-- `SendTimeoutTimer` -/
  | sendTimeout
  deriving DecidableEq

/-- What a step lets out. -/
inductive WifiOutput where
  | nothing
  /-- the branches that `ParserWifiData` took -/
  | answers (answers : List Answer)
  /-- the bytes passed to `WifiTxData` -/
  | written (bytes : List UInt8)
  /-- the message passed to `NetworkMangerSendMessage` -/
  | message (message : MqData)
  deriving DecidableEq

/-! ## The steps -/

/-- The network status that a call announces. -/
def Call.status : Call → Option NetworkStatus
  | .sendWifiCommand id => commandStatus id
  | .tcpSetDataLength _ => some .setSendDataLength
  | .tcpSendData _ _ => some .sendData

/-- The `responseLen` that a call sets. -/
def Call.responseLen : Call → Option ℕ
  | .sendWifiCommand id => commandResponseLen id
  | .tcpSetDataLength _ => none
  | .tcpSendData _ _ => none

/-- What a call does before it sends `SMSG_TX_DATA`. -/
def WifiInfo.call (set : CommandSettings) (w : WifiInfo) (call : Call) : WifiInfo :=
  { w with
    networkInfoData := { w.networkInfoData with
      networkStatus := call.status.getD w.networkInfoData.networkStatus }
    responseLen := (call.responseLen.map Nat.toUInt8).getD w.responseLen
    sendTimeoutTimer :=
      match call with
      | .tcpSendData _ _ => true
      | _ => w.sendTimeoutTimer
    tx := call.store set w.tx }

/-- `rt_event_send` -/
def rtEventSend (t : WifiThread) (set : EventSet) : WifiThread :=
  let event : EventSet := ⟨t.event.rxData || set.rxData, t.event.txData || set.txData⟩
  if t.doing = .suspended then { t with event := .empty, doing := .received event }
  else { t with event := event }

/-- `rt_event_recv` with `RT_EVENT_FLAG_OR | RT_EVENT_FLAG_CLEAR`. -/
def rtEventRecv (t : WifiThread) : WifiThread :=
  if t.event = .empty then { t with doing := .suspended }
  else { t with event := .empty, doing := .received t.event }

section

variable (t : WifiThread) (set : EventSet)

@[simp] theorem wifi_rtEventSend : (rtEventSend t set).wifi = t.wifi := by
  unfold rtEventSend
  split <;> rfl

@[simp] theorem uRemain_rtEventSend : (rtEventSend t set).uRemain = t.uRemain := by
  unfold rtEventSend
  split <;> rfl

@[simp] theorem calling_rtEventSend : (rtEventSend t set).calling = t.calling := by
  unfold rtEventSend
  split <;> rfl

@[simp] theorem wifi_rtEventRecv : (rtEventRecv t).wifi = t.wifi := by
  unfold rtEventRecv
  split <;> rfl

@[simp] theorem uRemain_rtEventRecv : (rtEventRecv t).uRemain = t.uRemain := by
  unfold rtEventRecv
  split <;> rfl

@[simp] theorem calling_rtEventRecv : (rtEventRecv t).calling = t.calling := by
  unfold rtEventRecv
  split <;> rfl

end

/-- The bytes of a read stand behind the `uRemain` that the buffer holds. -/
def WifiThread.filled (t : WifiThread) (bytes : List UInt8) : WifiInfo :=
  { t.wifi with rxBuf := t.wifi.rxBuf.write t.uRemain bytes }

/-- The parser has looked at the buffer after a read, and what it consumed is dropped. -/
def readBytes (env : Surroundings) (t : WifiThread) (bytes : List UInt8) :
    WifiThread × List Answer :=
  let uRemain := t.uRemain + bytes.length
  let scan := parserWifiData env (t.filled bytes) uRemain
  let left := uRemain - scan.consumed
  ({ t with
      wifi := { scan.wifi with
        rxBuf :=
          if 0 < scan.consumed ∧ 0 < left then scan.wifi.rxBuf.moveDown scan.consumed left
          else scan.wifi.rxBuf }
      uRemain := left }, scan.answers)

/-- The message that a response makes. -/
def responseMessage : WifiResponse → Option Smsg
  | .ok => some .wifiOk
  | .error => some .wifiError
  | .fail => some .wifiFail
  | .responseMax => none

/-- `sizeof(networkInfoData.data)` -/
def sizeofData : ℕ := 128

/-- Behind the loop that reads: the response that was recognised last is posted. -/
def postResponse (w : WifiInfo) : WifiInfo × WifiOutput :=
  match responseMessage w.networkInfoData.response with
  | none => (w, .nothing)
  | some messge =>
      let info := { w.networkInfoData with response := .responseMax }
      let mqData : MqData := ⟨messge, sizeofData, .networkInfo info⟩
      ({ w with wifiTimeoutTimer := false, networkInfoData := info, mqData := mqData },
        .message mqData)

/-- `WifiTimeoutTimer` -/
def wifiTimeoutTimer (w : WifiInfo) : WifiInfo × MqData :=
  let mqData : MqData := ⟨.wifiTimeout, sizeofData, .networkInfo w.networkInfoData⟩
  ({ w with
      wifiTimeoutTimer := false
      mqData := mqData
      networkInfoData := { w.networkInfoData with response := .responseMax } }, mqData)

/-- `SendTimeoutTimer`, which posts the data of the message before. -/
def sendTimeoutTimer (w : WifiInfo) : WifiInfo × MqData :=
  let mqData := { w.mqData with messge := .wifiError }
  ({ w with
      sendTimeoutTimer := false
      mqData := mqData
      networkInfoData := { w.networkInfoData with response := .responseMax } }, mqData)

/-- The thread, the calls, the driver and the timers. -/
def wifiThread (env : Surroundings) : Machine WifiThread WifiEvent WifiOutput where
  step t
    | .indicate => some (rtEventSend t ⟨true, false⟩, .nothing)
    | .store call =>
        if t.calling then none
        else some ({ t with wifi := t.wifi.call env.settings call, calling := true }, .nothing)
    | .post =>
        if t.calling then some (rtEventSend { t with calling := false } ⟨false, true⟩, .nothing)
        else none
    | .recv => if t.doing = .asking then some (rtEventRecv t, .nothing) else none
    | .act =>
        match t.doing with
        | .received events =>
            if events.rxData then
              some ({ t with
                uRemain := if wifiRxBuff ≤ t.uRemain then 0 else t.uRemain
                doing := .reading }, .nothing)
            else if events.txData then
              some ({ t with doing := .written }, .written t.wifi.tx.command)
            else some ({ t with doing := .asking }, .nothing)
        | _ => none
    | .read bytes =>
        if t.doing = .reading ∧ bytes.length ≤ wifiRxBuff - t.uRemain then
          if bytes = [] then
            some ({ t with wifi := (postResponse t.wifi).1, doing := .asking },
              (postResponse t.wifi).2)
          else some ((readBytes env t bytes).1, .answers (readBytes env t bytes).2)
        else none
    | .finish =>
        if t.doing = .written then
          some ({ t with
            wifi := { t.wifi with
              wifiTimeoutTimer := true
              tx := { t.wifi.tx with txLen := 0 } }
            doing := .asking }, .nothing)
        else none
    | .wifiTimeout =>
        if t.wifi.wifiTimeoutTimer then
          some ({ t with wifi := (wifiTimeoutTimer t.wifi).1 },
            .message (wifiTimeoutTimer t.wifi).2)
        else none
    | .sendTimeout =>
        if t.wifi.sendTimeoutTimer then
          some ({ t with wifi := (sendTimeoutTimer t.wifi).1 },
            .message (sendTimeoutTimer t.wifi).2)
        else none

abbrev WifiTransition := Transition WifiThread WifiEvent WifiOutput

/-- Before the first command and the first byte. -/
structure Fresh (t : WifiThread) : Prop where
  noEvent : t.event = .empty
  noCall : t.calling = false
  asking : t.doing = .asking
  empty : t.uRemain = 0

/-- A configuration, with memory that reads as zeros. -/
def someSurroundings : Surroundings where
  settings :=
    { mode := 1, dhcp := 1, ssid := text "whale", password := text "shark", domainConfig := disable
      remoteIp := text "192.168.0.2", remotePort := 1223, domain := [], localIp := []
      gatewayIp := [], subnetMask := [], macAddress := [] }
  dhcpMode := 1
  atNull := 0
  behindRxBuf := 0
  szCmd := .fill cmdMaxLen 0

/-- `InitWifInformation`. What it does not set is zero. -/
def initWifi : WifiInfo where
  mqData := ⟨.wifiOk, 0, .networkInfo ⟨.ok, .none, .fill 128 0⟩⟩
  wifiTimeoutTimer := false
  sendTimeoutTimer := false
  networkInfoData := ⟨.responseMax, .none, .fill 128 0⟩
  responseLen := 0
  tx := ⟨.fill cmdMaxLen 0, 0⟩
  rxBuf := .fill wifiRxBuff 0

def startWifi : WifiThread := ⟨initWifi, 0, .empty, false, .asking⟩

theorem startWifi_fresh : Fresh startWifi := ⟨rfl, rfl, rfl, rfl⟩

/-! ## What a step can do -/

/-- The steps: the driver, the two halves of a call, asking for events, the three ways on from
there, a read and the end of the reading, the end of the writing, and the timers. -/
inductive WifiStep (env : Surroundings) (t : WifiThread) :
    WifiEvent → WifiThread → WifiOutput → Prop where
  | indicate : WifiStep env t .indicate (rtEventSend t ⟨true, false⟩) .nothing
  | store {call : Call} (free : t.calling = false) :
      WifiStep env t (.store call)
        { t with wifi := t.wifi.call env.settings call, calling := true } .nothing
  | post (stored : t.calling = true) :
      WifiStep env t .post (rtEventSend { t with calling := false } ⟨false, true⟩) .nothing
  | recv (asking : t.doing = .asking) : WifiStep env t .recv (rtEventRecv t) .nothing
  | receive {events : EventSet} (got : t.doing = .received events) (rx : events.rxData = true) :
      WifiStep env t .act
        { t with uRemain := if wifiRxBuff ≤ t.uRemain then 0 else t.uRemain, doing := .reading }
        .nothing
  | transmit {events : EventSet} (got : t.doing = .received events) (rx : events.rxData = false)
      (tx : events.txData = true) :
      WifiStep env t .act { t with doing := .written } (.written t.wifi.tx.command)
  | ignore {events : EventSet} (got : t.doing = .received events) (rx : events.rxData = false)
      (tx : events.txData = false) :
      WifiStep env t .act { t with doing := .asking } .nothing
  | read {bytes : List UInt8} (reading : t.doing = .reading) (some_ : bytes ≠ [])
      (room : bytes.length ≤ wifiRxBuff - t.uRemain) :
      WifiStep env t (.read bytes) (readBytes env t bytes).1 (.answers (readBytes env t bytes).2)
  | respond (reading : t.doing = .reading) :
      WifiStep env t (.read [])
        { t with wifi := (postResponse t.wifi).1, doing := .asking } (postResponse t.wifi).2
  | finish (written : t.doing = .written) :
      WifiStep env t .finish
        { t with
          wifi := { t.wifi with wifiTimeoutTimer := true, tx := { t.wifi.tx with txLen := 0 } }
          doing := .asking } .nothing
  | wifiTimeout (runs : t.wifi.wifiTimeoutTimer = true) :
      WifiStep env t .wifiTimeout { t with wifi := (wifiTimeoutTimer t.wifi).1 }
        (.message (wifiTimeoutTimer t.wifi).2)
  | sendTimeout (runs : t.wifi.sendTimeoutTimer = true) :
      WifiStep env t .sendTimeout { t with wifi := (sendTimeoutTimer t.wifi).1 }
        (.message (sendTimeoutTimer t.wifi).2)

theorem wifiThread_act {env : Surroundings} {t t' : WifiThread} {o : WifiOutput}
    (step : (wifiThread env).step t .act = some (t', o)) : WifiStep env t .act t' o := by
  cases got : t.doing with
  | received events =>
      simp only [wifiThread, got] at step
      split at step
      · rename_i rx
        cases step
        exact .receive got rx
      · rename_i rx
        split at step
        · rename_i tx
          cases step
          exact .transmit got (Bool.eq_false_iff.mpr rx) tx
        · rename_i tx
          cases step
          exact .ignore got (Bool.eq_false_iff.mpr rx) (Bool.eq_false_iff.mpr tx)
  | _ => simp [wifiThread, got] at step

theorem wifiThread_read {env : Surroundings} {t t' : WifiThread} {bytes : List UInt8}
    {o : WifiOutput} (step : (wifiThread env).step t (.read bytes) = some (t', o)) :
    WifiStep env t (.read bytes) t' o := by
  simp only [wifiThread] at step
  split at step
  · rename_i admitted
    split at step
    · rename_i none_
      cases none_
      cases step
      exact .respond admitted.1
    · rename_i some_
      cases step
      exact .read admitted.1 some_ admitted.2
  · cases step

/-- Every step of the machine is one of these. -/
theorem wifiThread_cases {env : Surroundings} {t t' : WifiThread} {e : WifiEvent} {o : WifiOutput}
    (step : (wifiThread env).step t e = some (t', o)) : WifiStep env t e t' o := by
  cases e with
  | act => exact wifiThread_act step
  | read bytes => exact wifiThread_read step
  | indicate =>
      cases step
      exact .indicate
  | store call =>
      obtain ⟨free, same⟩ := Option.ite_none_left_eq_some.mp step
      cases same
      exact .store (Bool.eq_false_iff.mpr free)
  | post =>
      obtain ⟨stored, same⟩ := Option.ite_none_right_eq_some.mp step
      cases same
      exact .post stored
  | recv =>
      obtain ⟨asking, same⟩ := Option.ite_none_right_eq_some.mp step
      cases same
      exact .recv asking
  | finish =>
      obtain ⟨written, same⟩ := Option.ite_none_right_eq_some.mp step
      cases same
      exact .finish written
  | wifiTimeout =>
      obtain ⟨runs, same⟩ := Option.ite_none_right_eq_some.mp step
      cases same
      exact .wifiTimeout runs
  | sendTimeout =>
      obtain ⟨runs, same⟩ := Option.ite_none_right_eq_some.mp step
      cases same
      exact .sendTimeout runs

/-! ## The network status and the last message -/

/-- A read leaves the last message, and moves the network status as the parser does. -/
theorem readBytes_tells (env : Surroundings) (t : WifiThread) (bytes : List UInt8) :
    Tells t.wifi (readBytes env t bytes).1.wifi := by
  obtain ⟨mqData, status⟩ := parserWifiData_tells env (t.filled bytes) (t.uRemain + bytes.length)
  exact ⟨mqData, status⟩

/-- Where there is a message, it becomes the last message. It carries the network status, or what
the last message carried. -/
theorem WifiStep.message_carries {env : Surroundings} {t t' : WifiThread} {e : WifiEvent}
    {message : MqData} (step : WifiStep env t e t' (.message message)) :
    t'.wifi.mqData = message ∧
      t'.wifi.networkInfoData.networkStatus = t.wifi.networkInfoData.networkStatus ∧
      ((∃ info, message.data = .networkInfo info ∧
          info.networkStatus = t.wifi.networkInfoData.networkStatus) ∨
        (e = .sendTimeout ∧ message = { t.wifi.mqData with messge := .wifiError })) := by
  generalize posted : WifiOutput.message message = o at step
  cases step with
  | respond =>
      simp only [postResponse] at posted ⊢
      split at posted
      · cases posted
      · cases posted
        exact ⟨rfl, rfl, .inl ⟨_, rfl, rfl⟩⟩
  | wifiTimeout =>
      cases posted
      exact ⟨rfl, rfl, .inl ⟨_, rfl, rfl⟩⟩
  | sendTimeout =>
      cases posted
      exact ⟨rfl, rfl, .inr ⟨rfl, rfl⟩⟩
  | _ => cases posted

/-- Where there is none, the last message stays, and only a call and a read move the network
status. -/
theorem WifiStep.silent_tells {env : Surroundings} {t t' : WifiThread} {e : WifiEvent}
    {o : WifiOutput} (step : WifiStep env t e t' o) (silent : ∀ message, o ≠ .message message)
    (own : ∀ call, e ≠ .store call) : Tells t.wifi t'.wifi := by
  cases step with
  | store => exact absurd rfl (own _)
  | read => exact readBytes_tells env t _
  | indicate => exact (wifi_rtEventSend t _).symm ▸ .refl t.wifi
  | post => exact (wifi_rtEventSend { t with calling := false } _).symm ▸ .refl t.wifi
  | recv => exact (wifi_rtEventRecv t).symm ▸ .refl t.wifi
  | respond =>
      simp only [postResponse] at silent ⊢
      split at silent
      · exact .refl t.wifi
      · exact absurd rfl (silent _)
  | wifiTimeout => exact absurd rfl (silent _)
  | sendTimeout => exact absurd rfl (silent _)
  | receive | transmit | ignore | finish => exact ⟨rfl, .same⟩

end WhaleShark.Network
