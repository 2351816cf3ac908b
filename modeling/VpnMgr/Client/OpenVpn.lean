import VpnMgr.Client.TunTap
import VpnMgr.Client.UpDown

/-!
# The OpenVPN client

`openvpn.c`.
-/

namespace VpnMgr.Client

open Machine Text CString LibUseful Command

/-- A path under the connection's configuration directory. -/
def openVpnPath (settings : Settings) (vpn : TVpn) (extension : CString) : CString :=
  mCopyStr [some settings.homeDir, some "/.config/vpn_mgr/".toList, vpn.name, some "/".toList,
    vpn.name, some extension]

/-- `OpenVpnGenPasswordFile`. -/
def openVpnGenPasswordFile (settings : Settings) (vpn : TVpn) : Driver Unit := do
  let path := openVpnPath settings vpn ".auth".toList
  if ← streamOpen (.file path) path "w".toList then
    streamWriteLine (.file path) (mCopyStr [vpn.userName, some "\n".toList, vpn.password])
    streamClose (.file path)

/-- `OpenVpnShutDown`. -/
def openVpnShutDown (settings : Settings) (vpn : TVpn) (dev : CString) : Driver Unit := do
  let text ← readFile (openVpnPath settings vpn ".pid".toList)
  let pid := stripTrailingWhitespace (stripTrailingWhitespace text)
  Process.when (strValid (some pid)) (command (mCopyStr [some "kill ".toList, some pid]))
  tunShutdown dev

def nextWord (text : CPtr) : Token := getToken text "\\S".toList noFlags

/-- `OpenVpnReadLineSkipDateTime`. -/
def openVpnReadLineSkipDateTime (line : CString) : CPtr :=
  let first := nextWord (some line)
  if first.text.length = 3 then
    -- month, day, time and year
    (nextWord (nextWord (nextWord (nextWord first.ptr).ptr).ptr).ptr).ptr
  else (nextWord (nextWord first.ptr).ptr).ptr

/-- What `OpenVpnProcess` makes of a line: the device from then on, and whether
it calls `VpnUp`. -/
def openVpnLine (dev line : CString) : CString × Bool :=
  let first := nextWord (openVpnReadLineSkipDateTime line)
  let second := nextWord first.ptr
  if first.text = "net_iface_up:".toList then ((nextWord second.ptr).text, true)
  else if first.text = "TUN/TAP".toList then
    if second.text = "device".toList then ((nextWord second.ptr).text, false) else (dev, false)
  else if first.text = "Initialization".toList then
    (dev, (nextWord second.ptr).text = "Completed".toList)
  else (dev, false)

/-- `OpenVpnProcess`; the result is the device. -/
def openVpnProcess (settings : Settings) (fuel : Nat) (vpn : TVpn) : Driver CString :=
  Process.loop (fun dev => do
    match ← streamReadLine .openvpn with
    | none => pure (.inr dev)
    | some line =>
        if ← exiting then pure (.inr dev)
        else
          let (dev, up) := openVpnLine dev (stripTrailingWhitespace line)
          Process.when up (vpnUp settings vpn dev)
          pure (.inl dev)) fuel "????".toList

/-- The options of `OpenVpnUp` that come from the connection's fields. -/
def openVpnOptions (settings : Settings) (vpn : TVpn) : CString :=
  let url := settings.parseURL vpn.server
  let start := mCopyStr [some ("openvpn --client --tls-client --dev tun --persist-tun --nobind " ++
    "--keepalive 10 30 --remote ").toList, url.host, some " ".toList, url.port]
  let proto := if vpn.flags.has vpnTcp then " --proto tcp-client ".toList
    else " --proto udp ".toList
  let secret := if strValid vpn.preSharedKey then
    mCopyStr [some " --secret ".toList, vpn.preSharedKey] else []
  let cipher := if strValid vpn.ciphers then
    mCopyStr [some " --cipher '".toList, vpn.ciphers, some "' ".toList] else []
  let auth := if strValid vpn.userName then
    mCopyStr [some " --auth-user-pass ".toList, some settings.homeDir,
      some "/.config/vpn_mgr/".toList, vpn.name, some "/".toList, vpn.name,
      some ".auth ".toList] else []
  let cert := if strValid vpn.clientCert then
    mCopyStr [some " --cert ".toList, vpn.clientCert] ++ mCopyStr [some " --key ".toList, vpn.clientKey]
    else []
  let ca := if strValid vpn.verifyCert then mCopyStr [some " --ca ".toList, vpn.verifyCert] else []
  start ++ proto ++ secret ++ cipher ++ auth ++ cert ++ ca

/-- The command of `OpenVpnUp`. -/
def openVpnCommand (settings : Settings) (vpn : TVpn) : CString :=
  let options := if strValid vpn.confFile then
    mCopyStr [some "openvpn --conf ".toList, vpn.confFile] else openVpnOptions settings vpn
  let mtu := if vpn.mtu ≠ 0 then
    " --tun-mtu ".toList ++ formatInt vpn.mtu.toInt ++ " ".toList else []
  options ++ mtu ++ mCopyStr [some " --writepid '".toList, some settings.homeDir,
    some "/.config/vpn_mgr/".toList, vpn.name, some "/".toList, vpn.name, some ".pid' ".toList]

/-- `OpenVpnUp`. -/
def openVpnUp (settings : Settings) (fuel : Nat) (vpn : TVpn) : Driver Unit := do
  if ← tunAvailable then
    let _ ← defaultDevGetMTU
    Process.when (!strValid vpn.confFile && strValid vpn.userName)
      (openVpnGenPasswordFile settings vpn)
    if ← runCommandOpen (openVpnCommand settings vpn) (cmdAsRoot ||| cmdKill) then
      let dev ← openVpnProcess settings fuel vpn
      openVpnShutDown settings vpn dev

end VpnMgr.Client
