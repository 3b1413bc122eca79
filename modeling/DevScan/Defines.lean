import DevScan.Json.Value

/-!
# `Defines.lean` — the names the protocol uses

From `hbm/jsonrpc/jsonrpc_defines.h`, `devscan/defines.h` and the error codes `cb_t` of
`devscan/receiver_if.h`; only those the modelled functions read.
-/

set_option autoImplicit false

namespace DevScan

namespace Jsonrpc

def jsonrpc : StdString := "jsonrpc".toList
def method : StdString := "method".toList
def result : StdString := "result".toList
def err : StdString := "error".toList
def params : StdString := "params".toList
def id : StdString := "id".toList

end Jsonrpc

def tagAnnounce : StdString := "announce".toList
def tagConfigure : StdString := "configure".toList
def tagExpiration : StdString := "expiration".toList
def tagNetSettings : StdString := "netSettings".toList
def tagInterface : StdString := "interface".toList
def tagName : StdString := "name".toList
def configurationMethod : StdString := "configurationMethod".toList
def tagManualAddress : StdString := "manualAddress".toList
def tagManualNetmask : StdString := "manualNetmask".toList
def tagIpV4 : StdString := "ipv4".toList
def tagIpV4Address : StdString := "ipv4Address".toList
def tagDefaultGateway : StdString := "defaultGateway".toList
def tagDevice : StdString := "device".toList
def tagRouter : StdString := "router".toList
def tagUuid : StdString := "uuid".toList
def tagTtl : StdString := "ttl".toList

def configUdpPort : Nat := 31417
def configIpV4Address : StdString := "239.255.77.77".toList

/-! ## `cb_t` -/

def dataDropped : UInt32 := 0x80000000
def errorParse : UInt32 := 0x00000001
def errorMethod : UInt32 := 0x00000002
def errorIpaddr : UInt32 := 0x00000003
def errorUuid : UInt32 := 0x00000004
def errorExpire : UInt32 := 0x00000005
def eException1 : UInt32 := 0x00000006
def eException2 : UInt32 := 0x00000007

end DevScan
