import VpnMgr.Client.Host

/-!
# Routes

`route.c`: the default route of the kernel's table, and the routes a driver adds.
-/

namespace VpnMgr.Client

open Machine Text CString LibUseful

/-- `FormatStr("%d", value)`. -/
def formatInt (value : Int) : CString :=
  if value < 0 then '-' :: decimal value.natAbs else decimal value.natAbs

/-- `RouteParseHexAddress`: pairs of digits, the last one first. -/
def routeParseHexAddress (addr : CString) : CString :=
  let pairs := (List.range (addr.length / 2)).map fun i =>
    (addr.drop (addr.length - 2 - 2 * i)).take 2
  ".".toList.intercalate (pairs.map fun pair => formatInt (strtolHex pair))

/-- The three first fields of the lines after the header. -/
def routeEntries (text : CString) : List (CString × CString × CString) :=
  ((streamReadLines text).drop 1).map fun line =>
    let dev := getToken (some line) "\\S".toList noFlags
    let destination := getToken dev.ptr "\\S".toList noFlags
    let gateway := getToken destination.ptr "\\S".toList noFlags
    (dev.text, destination.text, gateway.text)

/-- `RouteGetDefault`, on the text of `/proc/net/route`; a later line wins. -/
def routeGetDefault (text : CString) : CString :=
  (routeEntries text).foldl
    (fun found entry =>
      if routeParseHexAddress entry.2.1 = "0.0.0.0".toList then routeParseHexAddress entry.2.2
      else found) []

/-- `RouteGetDefaultDev`. -/
def routeGetDefaultDev (text : CString) : CString :=
  (routeEntries text).foldl
    (fun found entry => if entry.2.1 = "00000000".toList then entry.1 else found) []

def procNetRoute : CString := "/proc/net/route".toList

/-- `RouteSetupVpnServer`. -/
def routeSetupVpnServer (destAddress : CPtr) : Driver Unit := do
  let table ← readFile procNetRoute
  command (mCopyStr [some "route add -host ".toList, destAddress, some " gw ".toList,
    some (routeGetDefault table)])

/-- The command of `RouteSetup` for one address. -/
def routeCommand (address dev : CString) : CString :=
  if address = "default".toList || address = "all".toList then
    mCopyStr [some "route add default ".toList, some dev]
  else if address.contains '/' then
    mCopyStr [some "route add -net ".toList, some address, some " ".toList, some dev]
  else mCopyStr [some "route add -host ".toList, some address, some " ".toList, some dev]

/-- `RouteSetup`. -/
def routeSetup (destAddressList : CPtr) (dev : CString) : Driver Unit :=
  Process.each (getTokens destAddressList ",".toList getTokenQuotes) fun address =>
    command (routeCommand (stripTrailingWhitespace (stripLeadingWhitespace address)) dev)

/-- `DefaultDevGetMTU`. -/
def defaultDevGetMTU : Driver CString := do
  let table ← readFile procNetRoute
  readFile (mCopyStr [some "/sys/class/net/".toList, some (routeGetDefaultDev table),
    some "/mtu".toList])

/-- `NetGetDefaultIP`. -/
def netGetDefaultIP : Driver CString := do
  let table ← readFile procNetRoute
  ask (.getInterfaceIP (routeGetDefaultDev table))

end VpnMgr.Client
