import VpnMgr.Client.Ssh
import VpnMgr.LibUseful.FileSystem

/-!
# The clients over pppd

`ppp.c`, `pppssh.c` and `ssl_client.c`.
-/

namespace VpnMgr.Client

open Machine Text CString LibUseful Command

def pppdOptions : CString :=
  ("nodetach nodefaultroute ipcp-accept-remote lcp-echo-interval 30 " ++
    "lcp-echo-failure 4").toList

/-- The local address that `PPPDLaunch` leaves in the connection. -/
def pppdLocalAddress (vpn : TVpn) : CPtr :=
  if strValid vpn.localAddress then vpn.localAddress else some "172.16.0.2".toList

/-- The command of `PPPDLaunch`. -/
def pppdCommand (vpn : TVpn) : CString :=
  let start := "pppd ".toList ++ formatInt vpn.lineSpeed.toInt ++ " ".toList ++ pppdOptions ++
    " ".toList
  let acceptLocal := if strValid vpn.localAddress then [] else " ipcp-accept-local ".toList
  let acceptRemote := if strValid vpn.remoteAddress then [] else " ipcp-accept-remote ".toList
  let addresses := mCopyStr [some " ".toList, pppdLocalAddress vpn, some ":".toList,
    vpn.remoteAddress, some " ".toList]
  let name := if strValid vpn.pppAuth then mCopyStr [some " name ".toList, vpn.pppAuth] else []
  let auth := if vpn.flags.has vpnVerifyPeer then " auth ".toList else " noauth ".toList
  let peerDns := if vpn.dns = some "peer".toList then " usepeerdns ".toList else []
  let link := if strValid vpn.name then mCopyStr [some " linkname ".toList, vpn.name] else []
  let mtu := if vpn.mtu ≠ 0 then
    "mtu ".toList ++ formatInt vpn.mtu.toInt ++ " ".toList else []
  start ++ acceptLocal ++ acceptRemote ++ addresses ++ name ++ auth ++ peerDns ++ link ++ mtu

/-- `PPPDLaunch`: is there a stream, and the connection as it leaves it. -/
def pppdLaunch (vpn : TVpn) : Driver (Bool × TVpn) := do
  let launched ← runCommandOpen (pppdCommand vpn) (cmdSudo ||| cmdSu ||| cmdNoStderr)
  pure (launched, { vpn with localAddress := pppdLocalAddress vpn })

/-- `PPPDTryConfigureEndpoint`. -/
def pppdTryConfigureEndpoint (settings : Settings) (vpn : TVpn) : Driver Bool := do
  let dev := netDevFindForIP (← devices) "ppp".toList (copyStr vpn.localAddress)
  if strValid (some dev) then
    vpnUp settings vpn dev
    pure true
  else pure false

/-- One side is read and the other written; nothing to read ends the loop. -/
def pppdRelay (source target : StreamId) : Driver Bool := do
  let bytes ← streamReadBytes source
  if bytes = [] then
    -- `PPPDHandleExit` collects pppd's exit status
    Process.when (source = .pppd) (ask (.runCommandCleanUp 0))
    pure false
  else
    streamWriteBytes target bytes
    pure true

/-- What the loop of `PPPDProcess` does with the stream that `STREAMSelect` gives. -/
def pppdReady (selected : Option StreamId) : Driver Bool :=
  if selected = some .pppd then pppdRelay .pppd .remotePeer
  else if selected = some .remotePeer then pppdRelay .remotePeer .pppd
  else pure true

/-- A round of the loop of `PPPDProcess`; the state is `EndpointConfigured`. -/
def pppdRound (settings : Settings) (vpn : TVpn) (configured : Bool) :
    Driver (Bool ⊕ Unit) := do
  let selected ← streamSelect
  if ← exiting then pure (.inr ())
  else if ← pppdReady selected then
    if configured then pure (.inl true)
    else return .inl (← pppdTryConfigureEndpoint settings vpn)
  else pure (.inr ())

/-- `PPPDProcess`. -/
def pppdProcess (settings : Settings) (fuel : Nat) (vpn : TVpn) : Driver Unit := do
  let (launched, vpn) ← pppdLaunch vpn
  if launched then
    Process.loop (pppdRound settings vpn) fuel false
    streamClose .pppd

/-- `SSHHostParseLS`, on an empty `RetStr`: the ninth word of a file's line. -/
def sshHostParseLS (cmd lsLine : CString) : CString :=
  if lsLine.head? = some '-' then
    let word := fun (token : Token) => getToken token.ptr "\\S".toList noFlags
    let file := word (word (word (word (word (word (word (word
      (getToken (some lsLine) "\\S".toList noFlags))))))))
    if cmd = getBasename file.text then file.text else []
  else []

/-- `SSHHostFindCommand`, over the directories still to look in. -/
def sshHostFindCommand (cmd : CString) : List CString → Driver CString
  | [] => pure []
  | dir :: rest => do
      streamWriteLine .ssh (mCopyStr [some "ls -l -1 ".toList, some dir, some "/".toList,
        some cmd, some "\n".toList])
      let line ← streamReadLine .ssh
      let found := sshHostParseLS cmd (stripTrailingWhitespace (copyStr line))
      if strValid (some found) then pure found else sshHostFindCommand cmd rest

/-- The flags `PPPSSHVpnUp` runs the remote pppd with. -/
def pppSshFlags (settings : Settings) : FlagWord :=
  let flags := cmdNoSync ||| cmdSsh
  let flags := if settings.globalFlags.has flagRemoteSu then flags.raise cmdSu else flags
  if settings.globalFlags.has flagRemoteSudo then flags.raise cmdSudo else flags

/-- The remote command of `PPPSSHVpnUp`. -/
def pppSshCommand (settings : Settings) (vpn : TVpn) (cmd : CString) : CString :=
  let id := if strValid vpn.clientID then copyStr vpn.clientID
    else settings.userName ++ "@".toList ++ settings.hostName
  let flags := pppSshFlags settings
  let noauth := if flags.has (cmdSu ||| cmdSudo) then " noauth".toList else []
  cmd ++ " ".toList ++ formatInt vpn.lineSpeed.toInt ++ " ipparam '".toList ++ id ++ "' ".toList ++
    copyStr vpn.remoteAddress ++ ": ".toList ++ pppdOptions ++ noauth

/-- `PPPSSHVpnUp`. -/
def pppSshVpnUp (settings : Settings) (fuel : Nat) (vpn : TVpn) : Driver Unit := do
  if ← sshVpnValidate settings fuel vpn then
    if ← sshVpnConnect settings fuel vpn [] then
      let found ← sshHostFindCommand "pppd".toList
        (getTokens vpn.remoteSearchPath ":".toList getTokenQuotes)
      let cmd := if strValid (some found) then found else "pppd".toList
      let vpn := if strValid vpn.remoteAddress then vpn
        else { vpn with remoteAddress := some "172.16.0.1".toList }
      let _ ← sshVpnRunCommand settings fuel (pppSshCommand settings vpn cmd)
        (pppSshFlags settings)
      pppdProcess settings fuel vpn

/-- The stream configuration of `PPPSSLClientVpnUp`. -/
def tlsConfig (vpn : TVpn) : CString :=
  let key := if strValid vpn.clientKey then vpn.clientKey else vpn.clientCert
  let verify := if strValid vpn.verifyCert then
    mCopyStr [some " SSL:VerifyFile=".toList, vpn.verifyCert] else []
  let ciphers := if strValid vpn.ciphers then
    mCopyStr [some " SSL:PermittedCiphers=".toList, vpn.ciphers] else []
  mCopyStr [some "rw SSL:CertFile=".toList, vpn.clientCert] ++
    mCopyStr [some " SSL:KeyFile=".toList, key] ++ verify ++ ciphers

/-- `PPPSSLClientVpnUp`. -/
def pppSslClientVpnUp (settings : Settings) (fuel : Nat) (vpn : TVpn) : Driver Unit := do
  let url := settings.unpackURL vpn.server
  routeSetupVpnServer url.host
  if ← streamOpen .remotePeer
      (mCopyStr [some "tls:".toList, url.host, some ":".toList, url.port]) (tlsConfig vpn) then
    let verified ← streamGetValue .remotePeer "SSL:CertificateVerify".toList
    let vpn := if verified = some "OK".toList then
      { vpn with flags := vpn.flags.drop vpnVerifyPeer } else vpn
    pppdProcess settings fuel vpn

end VpnMgr.Client
