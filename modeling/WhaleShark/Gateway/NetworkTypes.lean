import WhaleShark.Foundations.Blocks
import WhaleShark.Gateway.CLibrary

/-!
# The messages and states of the network side

The answers of the Wi-Fi module, the states a command can be in, and the messages that carry both
to the network manager, as `networkmanager.h`, `wifi.h` and `smsgdef.h` have them. The network
manager lays a `NetworkInfoData` over whatever bytes a message brings; a message of `SendData`
brings the bytes of a packet, and the two are kept apart here (`MqContent`).
-/

set_option autoImplicit false

namespace WhaleShark.Network

open Foundations

/-! ## `wifi.h` -/

/-- `WIFI_RESPONSE` -/
inductive WifiResponse where
  | ok
  | error
  | fail
  | responseMax
  deriving DecidableEq, Repr

/-- `CHANGE_LOCAL_INFO` -/
def changeLocalInfo : UInt8 := 0xBF

/-- `DHCP_MODE_INFO` -/
def dhcpModeInfo : ℕ := 0

/-- `DHCP_COMPARE_RESULT` -/
def dhcpCompareResult : ℕ := 1

/-- `LOCAL_IP_INDEX`, `GATEWAY_IP_INDEX`, `NETMASK_IP_INDEX`, `MAX_INDEX` -/
def localIpIndex : ℕ := 16

def gatewayIpIndex : ℕ := 17

def netmaskIpIndex : ℕ := 18

def maxIndex : ℕ := 19

/-- `NullMode`, `StationMode`, `SoftApMode`, `SoftAp_StationMode` -/
def nullMode : UInt8 := 0x30

def stationMode : UInt8 := 0x31

def softApMode : UInt8 := 0x32

def softApStationMode : UInt8 := 0x33

/-! ## `networkmanager.h` -/

/-- `NetworkStatus` -/
inductive NetworkStatus where
  | none
  | wifiRestart
  | echoOff
  | setRfpower
  | disableSleepMode
  | checkWifiMode
  | getWifiMode
  | setWifiMode
  | connectWifi
  | setDhcp
  | queryDhcpInfo
  | getDhcpInfo
  | queryApInfo
  | getApInfo
  | setLocalInfo
  | queryLocalInfo
  | getLocalInfo
  | disconnectWifi
  | tcpConnect
  | setSendDataLength
  | readyToSendData
  | sendData
  | waitAck
  | standbySend
  | continuousSend
  | queryMacInfo
  | getMacInfo
  | setMacInfo
  | receiveData
  | refuseData
  | tcpDisconnect
  deriving DecidableEq, Repr

/-- `SMSG_WIFI_OK`, `SMSG_WIFI_ERROR`, `SMSG_WIFI_FAIL`, `SMSG_WIFI_TIMEOUT`,
`SMSG_TCP_SEND_DATA` -/
inductive Smsg where
  | wifiOk
  | wifiError
  | wifiFail
  | wifiTimeout
  | tcpSendData
  deriving DecidableEq, Repr

/-- `NetworkInfoData` -/
structure NetworkInfoData where
  response : WifiResponse
  networkStatus : NetworkStatus
  data : Block UInt8 128
  deriving DecidableEq

/-! ## `smsgdef.h` -/

/-- `NETWORKMANAGER_MQ_SIZE` -/
def networkmanagerMqSize : ℕ := 4

/-- What stands in the `data` of a message. -/
inductive MqContent where
  | networkInfo (info : NetworkInfoData)
  | packets (bytes : List UInt8)
  deriving DecidableEq

/-- `MqData_t` -/
structure MqData where
  messge : Smsg
  size : ℕ
  data : MqContent
  deriving DecidableEq

end WhaleShark.Network
