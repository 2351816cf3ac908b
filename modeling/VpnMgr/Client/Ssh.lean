import VpnMgr.Client.TunTap
import VpnMgr.Client.UpDown

/-!
# The SSH client

`ssh.c`.
-/

namespace VpnMgr.Client

open Machine Text CString LibUseful Command

/-- `SSHVpnValidate`: `ssh -G` resolves the host to another name. -/
def sshVpnValidate (settings : Settings) (fuel : Nat) (vpn : TVpn) : Driver Bool := do
  let host := (settings.parseURL vpn.server).host
  if ← streamOpen .sshConfig (mCopyStr [some "cmd:ssh -T -G ".toList, host]) [] then
    let result ← Process.loop (fun result => do
      match ← streamReadLine .sshConfig with
      | none => pure (.inr result)
      | some line =>
          let text := stripTrailingWhitespace line
          pure (.inl (result || (hasPrefix "hostname ".toList text &&
            copyStr host ≠ text.drop "hostname ".toList.length)))) fuel false
    streamClose .sshConfig
    pure result
  else pure false

/-- `SSHHostLookupIP`; the state of the loop is `CurrHost` and `IP`. -/
def sshHostLookupIP (settings : Settings) (fuel : Nat) (host : CPtr) : Driver CString := do
  let path := mCopyStr [some settings.homeDir, some "/.ssh/config".toList]
  if ← streamOpen (.file path) path "r".toList then
    let ip ← Process.loop (fun (state : CString × CString) => do
      match ← streamReadLine (.file path) with
      | none => pure (.inr state.2)
      | some line =>
          let text := stripLeadingWhitespace (stripTrailingWhitespace line)
          if hasPrefix "Host ".toList text then pure (.inl (text.drop "Host ".toList.length, state.2))
          else if hasPrefix "HostName ".toList text && copyStr host = state.1 then
            let found ← ask (.lookupHostIP (skipSpace (text.drop "HostName ".toList.length)))
            pure (.inl (state.1, copyStr found))
          else pure (.inl state)) fuel ([], [])
    streamClose (.file path)
    pure ip
  else pure []

/-- `SSHVpnSendSync`. -/
def sshVpnSendSync : Driver CString := do
  let key ← (ask .randomKey : Driver CString)
  streamWriteLine .ssh (mCopyStr [some "export PS1=\"\"; export PS2=\"\"; echo ".toList, some key,
    some "\n".toList])
  pure key

/-- `SSHVpnSync`. -/
def sshVpnSync (fuel : Nat) : Driver Unit := do
  let key ← sshVpnSendSync
  Process.loop (fun key => do
    match ← streamReadToMultiTerminator .ssh with
    | none => pure (.inr ())
    | some [] => return .inl (← sshVpnSendSync)
    | some text =>
        if stripLeadingWhitespace (stripTrailingWhitespace text) = key then pure (.inr ())
        else if ← exiting then pure (.inr ())
        else pure (.inl key)) fuel key
  let _ ← streamReadBytes .ssh
  pure ()

/-- The command part of `SSHVpnRunCommandTry`. -/
def sshVpnSendCommand (settings : Settings) (cmd : CString) (flags : FlagWord) : Driver RunCmd := do
  if strValid (some cmd) then
    streamWriteLine .ssh
      (runCmdFormat settings.getCommandPath (some cmd) (some []) (flags.raise cmdSsh))
    streamWriteLine .ssh "\n".toList
    if flags.has cmdSudo || flags.has cmdSu then ask .runCommandReadLoop else pure .okay
  else pure .begin

/-- `SSHVpnRunCommandTry`. -/
def sshVpnRunCommandTry (settings : Settings) (fuel : Nat) (cmd : CString) (flags : FlagWord) :
    Driver Bool := do
  sshVpnSync fuel
  let result ← sshVpnSendCommand settings cmd flags
  Process.when (!flags.has cmdNoSync) (sshVpnSync fuel)
  pure (result = .okay)

/-- `SSHVpnRunCommand`. -/
def sshVpnRunCommand (settings : Settings) (fuel : Nat) (cmd : CString) (flags : FlagWord) :
    Driver Bool := do
  let bare := flags.drop (cmdSu ||| cmdSudo)
  let withSu := if flags.has cmdSu && settings.globalFlags.has flagRemoteSu then bare.raise cmdSu
    else bare
  let cmdFlags := if flags.has cmdSudo && settings.globalFlags.has flagRemoteSudo then
    withSu.raise cmdSudo else withSu
  if ← sshVpnRunCommandTry settings fuel cmd cmdFlags then pure true
  else sshVpnRunCommandTry settings fuel cmd (cmdFlags.drop cmdSudo)

/-- The `ssh` command of `SSHVpnConnect`. -/
def sshCommand (settings : Settings) (vpn : TVpn) (command : CString) : CString :=
  let url := settings.unpackURL vpn.server
  let start := if strValid url.user then
    mCopyStr [some "ssh -t ".toList, url.user, some "@".toList, url.host]
    else mCopyStr [some "ssh -t ".toList, url.host]
  let port := if strValid url.port then mCopyStr [some " -p ".toList, url.port] else []
  let cipher := if strValid vpn.ciphers then
    mCopyStr [some " -c '".toList, vpn.ciphers, some "' ".toList] else []
  let rest := if strValid (some command) then mCopyStr [some " ".toList, some command] else []
  start ++ port ++ cipher ++ rest

/-- `SSHVpnConnect`: is there a stream? -/
def sshVpnConnect (settings : Settings) (fuel : Nat) (vpn : TVpn) (command : CString) :
    Driver Bool := do
  let ip ← sshHostLookupIP settings fuel (settings.unpackURL vpn.server).host
  Process.when (strValid (some ip)) (routeSetupVpnServer (some ip))
  if ← runCommandOpen (sshCommand settings vpn command) 0 then
    streamWriteLine .ssh
      "export LC_ALL=C; export LANG=C; export PS1=\"\"; export PS2=\"\"\n".toList
    sshVpnSync fuel
    pure true
  else pure false

/-- What `SSHGetRemoteDev` sends. -/
def sshTunnelQuestion : CString := "echo $SSH_TUNNEL\n".toList

/-- The loop of `SSHGetRemoteDev` with some rounds to go. -/
def sshReadRemoteDev : Nat → CString → Driver CString
  | 0, dev => pure dev
  | rounds + 1, _ => do
      let line ← streamReadToMultiTerminator .ssh
      let dev := stripTrailingWhitespace (copyStr line)
      if strValid (some dev) && hasPrefix "tun".toList dev then pure dev
      else sshReadRemoteDev rounds dev

/-- `SSHGetRemoteDev`. -/
def sshGetRemoteDev : Driver CString := do
  streamWriteLine .ssh sshTunnelQuestion
  sshReadRemoteDev 10 []

/-- `SSHSetup` takes the address of the default route when none is set. -/
def sshLocalAddress (vpn : TVpn) : Driver TVpn := do
  if strValid vpn.localAddress then pure vpn
  else
    let ip ← netGetDefaultIP
    pure { vpn with localAddress := some ip }

/-- The remote part of `SSHSetup`, once the remote device is known. -/
def sshSetupRoute (settings : Settings) (fuel : Nat) (vpn : TVpn) (dev : CString) :
    Driver TVpn := do
  let vpn ← sshLocalAddress vpn
  Process.when (strValid vpn.localAddress) do
    let _ ← sshVpnRunCommand settings fuel (mCopyStr [some "/sbin/route add -host ".toList,
      vpn.localAddress, some " dev ".toList, some dev]) (cmdSu ||| cmdSudo)
  pure vpn

/-- `SSHSetup`: its result, and the connection with the address it sets. -/
def sshSetup (settings : Settings) (fuel : Nat) (vpn : TVpn) : Driver (Bool × TVpn) := do
  streamWriteLine .ssh "stty -echo\n".toList
  sshVpnSync fuel
  let dev ← sshGetRemoteDev
  if strValid (some dev) then
    let vpn ← sshSetupRoute settings fuel vpn dev
    pure (true, vpn)
  else pure (false, vpn)

/-- `SSHProcess`. -/
def sshProcess (fuel : Nat) : Driver Unit := do
  if ← exiting then pure () else drainLines fuel .ssh

/-- The remote device's number, or `any`. -/
def sshRemoteDevArgument (vpn : TVpn) : CString :=
  if strValid vpn.remoteDev then
    if hasPrefix "tun".toList (copyStr vpn.remoteDev) then (copyStr vpn.remoteDev).drop 3
    else copyStr vpn.remoteDev
  else "any".toList

/-- The local device of `SSHVpnUp`. -/
def sshDevice (vpn : TVpn) : Driver CString := do
  if strValid vpn.dev then pure (copyStr vpn.dev)
  else netDevFindNextLive "tun".toList

/-- The part of `SSHVpnUp` after the connection is there. -/
def sshVpnSession (settings : Settings) (fuel : Nat) (vpn : TVpn) (dev : CString) :
    Driver Unit := do
  let (ready, vpn) ← sshSetup settings fuel vpn
  Process.when ready do
    vpnUp settings vpn dev
    sshProcess fuel
  let _ ← ask (.runCommandCleanUp cmdKill)
  streamClose .ssh
  vpnDown vpn dev

/-- `SSHVpnUp`. -/
def sshVpnUp (settings : Settings) (fuel : Nat) (vpn : TVpn) : Driver Unit := do
  if ← sshVpnValidate settings fuel vpn then
    let dev ← sshDevice vpn
    if strValid (some dev) then
      let _ ← tunSetup "tun".toList dev vpn.localAddress
      if ← sshVpnConnect settings fuel vpn (mCopyStr [some " -w ".toList, some (dev.drop 3),
          some ":".toList, some (sshRemoteDevArgument vpn)]) then
        sshVpnSession settings fuel vpn dev

end VpnMgr.Client
