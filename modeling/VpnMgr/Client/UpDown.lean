import VpnMgr.Client.Resolv
import VpnMgr.Client.Route

/-!
# Bringing a link up and down

`NetSetup` and `NetShutdown` of `net.c`, and `updown.c`.
-/

namespace VpnMgr.Client

open Machine Text CString LibUseful

/-- The command of `NetSetup` for the local address. -/
def ifconfigCommand (vpn : TVpn) (dev : CString) : CString :=
  let text := mCopyStr [some "ifconfig ".toList, some dev, some " ".toList, vpn.localAddress]
  if strValid vpn.remoteAddress then mCatStr text [some " pointopoint ".toList, vpn.remoteAddress]
  else text

/-- `NetSetup`. -/
def netSetup (settings : Settings) (vpn : TVpn) (dev : CString) : Driver Unit := do
  Process.when (strValid vpn.localAddress) (command (ifconfigCommand vpn dev))
  Process.when (vpn.action = .connect && strValid vpn.allowedIPs) (routeSetup vpn.allowedIPs dev)
  Process.when (!settings.globalFlags.has flagNoDns && strValid vpn.dns)
    (resolvChange settings.pid vpn.dns)

/-- `NetShutdown`. -/
def netShutdown (dev : CString) : Driver Unit := do
  command (mCopyStr [some "ifconfig ".toList, some dev, some " down".toList])
  command (mCopyStr [some "ip link delete dev ".toList, some dev])

/-- The command `UpDownRunFiles` builds for the script `token`. -/
def upDownCommand (vpn : TVpn) (token : CString) (dev : CPtr) : CString :=
  mCopyStr [some token, some " '".toList, dev, some "' '".toList, vpn.server,
    some "' '".toList, vpn.localAddress, some "' '".toList, vpn.remoteAddress,
    some "' '".toList, vpn.name, some "'".toList]

/-- `UpDownRunFiles`. -/
def upDownRunFiles (vpn : TVpn) (files : CPtr) (dev : CString) : Driver Unit :=
  Process.each (getTokens files ":".toList noFlags) fun token => do
    Process.when (← access token .executable) (script (upDownCommand vpn token (some dev)))

/-- `VpnUp`. -/
def vpnUp (settings : Settings) (vpn : TVpn) (dev : CString) : Driver Unit := do
  let _ ← ask (.vpnUp dev)
  netSetup settings vpn dev
  Process.when (strValid vpn.upFile) (upDownRunFiles vpn vpn.upFile dev)

/-- `VpnDown`. -/
def vpnDown (vpn : TVpn) (dev : CString) : Driver Unit := do
  let _ ← ask (.vpnDown dev)
  netShutdown dev
  Process.when (strValid vpn.downFile) (upDownRunFiles vpn vpn.downFile dev)

end VpnMgr.Client
