import VpnMgr.Client.TunTap
import VpnMgr.Client.UpDown

/-!
# The WireGuard client

`wireguard.c`.
-/

namespace VpnMgr.Client

open Machine Text CString LibUseful Command

/-- `WireguardLaunchUserspace`; `none` when the program is not installed. -/
def wireguardLaunchUserspace (settings : Settings) (vpn : TVpn) (dev userspaceApp : CString) :
    Driver (Option RunCmd) := do
  let cmd := (getToken (some userspaceApp) "\\S".toList noFlags).text
  if strValid (settings.getCommandPath cmd) then
    command (mCopyStr [some userspaceApp, some " ".toList, some dev])
    let status ← tunSetup "wireguard".toList dev vpn.localAddress
    if status = .okay then
      if netDevExists (← devices) dev then pure (some .okay) else pure (some .fail)
    else pure (some status)
  else pure none

/-- `ReadFile`; a missing name reads as an empty text. -/
def readNamedFile (path : CPtr) : Driver CString :=
  if strValid path then readFile (copyStr path) else pure []

/-- The `wg set` command of `WireguardFormatCommand`. -/
def wgSetCommand (vpn : TVpn) (dev peer : CString) (host port : CPtr) : CString :=
  let listen := if vpn.action = .server then mCopyStr [some " listen-port ".toList, port] else []
  let endpoint := if vpn.action = .connect then
    mCopyStr [some " endpoint ".toList, host, some ":".toList, port] else []
  let allowed := if strValid vpn.allowedIPs then
    (if sameNoCase (copyStr vpn.allowedIPs) "all".toList then " allowed-ips 0.0.0.0/0".toList
    else mCopyStr [some " allowed-ips ".toList, vpn.allowedIPs]) else []
  mCopyStr [some "wg set ".toList, some dev, some " private-key ".toList, vpn.clientCert] ++
    listen ++ mCopyStr [some " peer ".toList, some peer] ++ endpoint ++ allowed

/-- `WireguardFormatCommand`. -/
def wireguardFormatCommand (settings : Settings) (vpn : TVpn) (dev : CString) :
    Driver CString := do
  if strValid vpn.confFile then
    pure (mCopyStr [some "wg setconf ".toList, some dev, some " ".toList, vpn.confFile])
  else
    let verifyCert ← readNamedFile vpn.verifyCert
    let peer := stripTrailingWhitespace (stripTrailingWhitespace verifyCert)
    let url := settings.unpackURL vpn.server
    let port := if strValid url.port then url.port else some "51820".toList
    Process.when (vpn.action = .connect) (routeSetupVpnServer url.host)
    pure (wgSetCommand vpn dev peer url.host port)

/-- The three userspace programs of `WireguardUp`, one after the other. -/
def wireguardUserspace (settings : Settings) (vpn : TVpn) (dev : CString) : Driver Unit := do
  if (← wireguardLaunchUserspace settings vpn dev "wireguard-go".toList) = some .okay then pure ()
  else if (← wireguardLaunchUserspace settings vpn dev "boringtun-cli".toList) = some .okay then
    pure ()
  else
    let _ ← wireguardLaunchUserspace settings vpn dev
      "boringtun-cli --disable-drop-privileges".toList
    pure ()

/-- `WireguardUp` up to the device: the first part. -/
def wireguardDevice (vpn : TVpn) : Driver CString := do
  command "modprobe wireguard".toList
  if strValid vpn.dev then pure (copyStr vpn.dev)
  else netDevFindNextLive "wg".toList

/-- `WireguardUp`. -/
def wireguardUp (settings : Settings) (fuel : Nat) (vpn : TVpn) : Driver Unit := do
  let dev ← wireguardDevice vpn
  if strValid (some dev) then
    let status ← tunSetup "wireguard".toList dev vpn.localAddress
    Process.when (status ≠ .okay) (wireguardUserspace settings vpn dev)
    let text ← wireguardFormatCommand settings vpn dev
    if (← runCommand text cmdAsRoot) = .okay then
      vpnUp settings vpn dev
      drainLines fuel .terminal
      tunShutdown dev

end VpnMgr.Client
