import WhaleShark.Gateway.NetworkTypes

/-!
# The commands to the Wi-Fi module

`SendWifiCommand`, `TcpSetDataLength` and `TcpSendData` put a command into the one transmit buffer,
note its length, and post `SMSG_TX_DATA` for `WifiRxThread` to write it. Here is what each of them
puts there, and the state of the network that it announces.
-/

set_option autoImplicit false

namespace WhaleShark.Network

open Foundations

/-- `CMD_MAX_LEN` -/
def cmdMaxLen : ℕ := 256

/-- `wifiCommandID` -/
inductive WifiCommandId where
  | restart
  | echoOff
  | setPower
  | disableSleepMode
  | setMode
  | queryMode
  | getMode
  | connectAp
  | queryApInfo
  | getApInfo
  | setDhcp
  | queryDhcp
  | getDhcp
  | setLocalInfo
  | queryLocalInfo
  | getLocalInfo
  | disconnectAp
  | tcpConnect
  | setSendDataLength
  | queryMacInfo
  | getMacInfo
  | setMacInfo
  | receiveData
  | tcpDisconnect
  deriving DecidableEq, Repr

/-- `commandInfo[id].szCli` -/
def szCli : WifiCommandId → List UInt8
  | .restart => text "RST"
  | .echoOff => text "ATE0"
  | .setPower => text "RFPOWER"
  | .disableSleepMode => text "SLEEP"
  | .setMode => text "CWMODE_DEF"
  | .queryMode => text "CWMODE_DEF?"
  | .getMode => text "CWMODE_DEF:"
  | .connectAp => text "CWJAP_DEF"
  | .queryApInfo => text "CWJAP_DEF?"
  | .getApInfo => text "CWJAP_DEF:"
  | .setDhcp => text "CWDHCP_DEF"
  | .queryDhcp => text "CWDHCP_DEF?"
  | .getDhcp => text "CWDHCP_DEF:"
  | .setLocalInfo => text "CIPSTA_DEF"
  | .queryLocalInfo => text "CIPSTA_DEF?"
  | .getLocalInfo => text "CIPSTA_DEF:"
  | .disconnectAp => text "CWQAP"
  | .tcpConnect => text "CIPSTART"
  | .setSendDataLength => text "CIPSEND"
  | .queryMacInfo => text "CIPSTAMAC_DEF?"
  | .getMacInfo => text "CIPSTAMAC_DEF:"
  | .setMacInfo => text "CIPSTAMAC_DEF"
  | .receiveData => text "IPD"
  | .tcpDisconnect => text "CIPCLOSE"

/-- `WIFI_CMD_PREFIX` -/
def wifiCmdPrefix : List UInt8 := text "AT+"

/-- What the commands take from `wifiInfo` and from the configuration: texts as the memory they
stand in. -/
structure CommandSettings where
  mode : UInt8
  dhcp : UInt8
  ssid : List UInt8
  password : List UInt8
  domainConfig : FunctionalState
  remoteIp : List UInt8
  remotePort : UInt16
  domain : List UInt8
  localIp : List UInt8
  gatewayIp : List UInt8
  subnetMask : List UInt8
  macAddress : List UInt8

/-- `%d` -/
def decimalText (n : ℕ) : List UInt8 := (Nat.toDigits 10 n).map fun c => c.toNat.toUInt8

/-- `\"%s\"` -/
def quoted (s : List UInt8) : List UInt8 := text "\"" ++ cString s ++ text "\""

/-- What `SendWifiCommand` prints for a command. For a command that is not one of its cases it
prints nothing. -/
def commandText (set : CommandSettings) (id : WifiCommandId) : List UInt8 :=
  match id with
  | .restart => wifiCmdPrefix ++ szCli .restart
  | .echoOff => szCli .echoOff
  | .setPower => wifiCmdPrefix ++ szCli .setPower ++ text "=82"
  | .disableSleepMode => wifiCmdPrefix ++ szCli .disableSleepMode ++ text "=0"
  | .setMode => wifiCmdPrefix ++ szCli .setMode ++ text "=" ++ [stationMode]
  | .queryMode => wifiCmdPrefix ++ szCli .queryMode
  | .setDhcp =>
      wifiCmdPrefix ++ szCli .setDhcp ++ text "=" ++ decimalText set.mode.toNat ++ text "," ++
        decimalText set.dhcp.toNat
  | .queryDhcp => wifiCmdPrefix ++ szCli .queryDhcp
  | .setLocalInfo =>
      wifiCmdPrefix ++ szCli .setLocalInfo ++ text "=" ++ quoted set.localIp ++ text "," ++
        quoted set.gatewayIp ++ text "," ++ quoted set.subnetMask
  | .queryLocalInfo => wifiCmdPrefix ++ szCli .queryLocalInfo
  | .connectAp =>
      wifiCmdPrefix ++ szCli .connectAp ++ text "=" ++ quoted set.ssid ++ text "," ++
        quoted set.password
  | .queryApInfo => wifiCmdPrefix ++ szCli .queryApInfo
  | .disconnectAp => wifiCmdPrefix ++ szCli .disconnectAp
  | .tcpConnect =>
      wifiCmdPrefix ++ szCli .tcpConnect ++ text "=" ++ quoted (text "TCP") ++ text "," ++
        quoted (if set.domainConfig = disable then set.remoteIp else set.domain) ++ text "," ++
        decimalText set.remotePort.toNat
  | .queryMacInfo => wifiCmdPrefix ++ szCli .queryMacInfo
  | .setMacInfo => wifiCmdPrefix ++ szCli .setMacInfo ++ text "=" ++ quoted set.macAddress
  | .tcpDisconnect => wifiCmdPrefix ++ szCli .tcpDisconnect
  | .getMode | .getApInfo | .getDhcp | .getLocalInfo | .setSendDataLength | .getMacInfo
  | .receiveData => []

/-- The network status that `SendWifiCommand` announces. Leaving the access point, and a command
that is not one of its cases, announce nothing. -/
def commandStatus : WifiCommandId → Option NetworkStatus
  | .restart => some .wifiRestart
  | .echoOff => some .echoOff
  | .setPower => some .setRfpower
  | .disableSleepMode => some .disableSleepMode
  | .setMode => some .setWifiMode
  | .queryMode => some .checkWifiMode
  | .setDhcp => some .setDhcp
  | .queryDhcp => some .queryDhcpInfo
  | .setLocalInfo => some .setLocalInfo
  | .queryLocalInfo => some .queryLocalInfo
  | .connectAp => some .connectWifi
  | .queryApInfo => some .queryApInfo
  | .disconnectAp => none
  | .tcpConnect => some .tcpConnect
  | .queryMacInfo => some .queryMacInfo
  | .setMacInfo => some .setMacInfo
  | .tcpDisconnect => some .tcpDisconnect
  | .getMode | .getApInfo | .getDhcp | .getLocalInfo | .setSendDataLength | .getMacInfo
  | .receiveData => none

/-- The length of the report name that `SendWifiCommand` expects in the answer. -/
def commandResponseLen : WifiCommandId → Option ℕ
  | .queryMode => some (rtStrlen (szCli .getMode))
  | .queryDhcp => some (rtStrlen (szCli .getDhcp))
  | .queryLocalInfo => some (rtStrlen (szCli .getLocalInfo))
  | .connectAp => some (rtStrlen (szCli .getApInfo))
  | .queryMacInfo => some (rtStrlen (szCli .queryMacInfo))
  | .setMacInfo => some (rtStrlen (szCli .setMacInfo))
  | .tcpDisconnect => some (rtStrlen (szCli .tcpDisconnect))
  | _ => none

/-! ## The transmit buffer -/

/-- `wifiInfo.txBuf` and `wifiInfo.txLen` -/
structure TxBuffer where
  txBuf : Block UInt8 cmdMaxLen
  txLen : UInt16
  deriving DecidableEq

/-- What `WifiTxData(txBuf, txLen)` is to write. -/
def TxBuffer.command (t : TxBuffer) : List UInt8 := t.txBuf.read 0 t.txLen.toNat

/-- The end of `SendWifiCommand` and of `TcpSetDataLength`: the text has been printed into `cmd`, its
length kept in one byte, and `CR LF` is put behind it. -/
def storeText (t : TxBuffer) (printed : List UInt8) : TxBuffer :=
  let cmd : Block UInt8 cmdMaxLen := (Block.fill cmdMaxLen 0).write 0 printed
  let len : UInt8 := printed.length.toUInt8
  let cmd := cmd.write len.toNat [cr]
  let cmd := cmd.write (len + 1).toNat [lf]
  let len := len + 2
  { txBuf := t.txBuf.write 0 (cmd.read 0 len.toNat), txLen := len.toUInt16 }

/-- A call that stores a command. -/
inductive Call where
  | sendWifiCommand (id : WifiCommandId)
  | tcpSetDataLength (length : UInt16)
  /-- with the memory at `pData` -/
  | tcpSendData (pData : List UInt8) (length : UInt16)
  deriving DecidableEq

/-- What a call stores. -/
def Call.store (set : CommandSettings) (t : TxBuffer) : Call → TxBuffer
  | .sendWifiCommand id => storeText t (commandText set id)
  | .tcpSetDataLength length =>
      storeText t (wifiCmdPrefix ++ szCli .setSendDataLength ++ text "=" ++
        decimalText length.toNat)
  | .tcpSendData pData length =>
      let txBuf := t.txBuf.write 0 (pData.take length.toNat)
      { txBuf := txBuf.write length.toNat [lf], txLen := length + 1 }

end WhaleShark.Network
