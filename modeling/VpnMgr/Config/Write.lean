import VpnMgr.Config.Read

/-!
# Writing a configuration

`WriteConfig`, as the text it leaves in the file.  The file's path has a
doubled slash that `ReadConfig`'s path lacks; both name one file.
-/

namespace VpnMgr.Config

open Machine Text CString LibUseful

/-- What `SaveFilePath` writes behind the `=`; `home` ends in a slash. -/
def savedPath (home path : CString) : CString :=
  if hasPrefix home path then "~/".toList ++ path.drop home.length else path

/-- `SaveFilePath`. -/
def saveFilePath (name : CString) (path : CPtr) (home : CString) : CString :=
  if strValid path then recordText name (savedPath home (copyStr path)) ++ ['\n'] else []

/-- The `if (StrValid(..))` block of an optional setting. -/
def saveField (name : CString) (value : CPtr) : CString :=
  if strValid value then recordText name (copyStr value) ++ ['\n'] else []

/-- `FormatStr("Timeout=%ld", Vpn->Timeout, "\n", NULL)`: the newline is an
argument that the format does not print. -/
def saveTimeout (timeout : BitVec 32) : CString :=
  if 0 < timeout.toNat then recordText "Timeout".toList (decimal timeout.toNat) else []

/-- The `switch` over two privilege bits: the word written for them, if any. -/
def methodText (su viaSudo flags : FlagWord) : Option CString :=
  let bits := flags &&& (su ||| viaSudo)
  if bits = 0 then some "none".toList
  else if bits = su then some "su".toList
  else if bits = viaSudo then some "sudo".toList
  else none

def saveMethod (name : CString) (su viaSudo flags : FlagWord) : CString :=
  match methodText su viaSudo flags with
  | some word => recordText name word ++ ['\n']
  | none => []

/-- `WriteConfig`. -/
def writeConfig (currUserHome : CString) (s : Settings) : CString :=
  let vpn := s.vpn
  let home := mCopyStr [some currUserHome, some "/".toList]
  mCopyStr [some "Server=".toList, vpn.server, some ['\n']] ++
  saveFilePath "ClientCert".toList vpn.clientCert home ++
  saveFilePath "ClientKey".toList vpn.clientKey home ++
  saveFilePath "VerifyCert".toList vpn.verifyCert home ++
  saveFilePath "ConfFile".toList vpn.confFile home ++
  saveFilePath "UpFile".toList vpn.upFile home ++
  saveFilePath "DownFile".toList vpn.downFile home ++
  saveField "LocalAddress".toList vpn.localAddress ++
  saveField "AllowedIPs".toList vpn.allowedIPs ++
  saveField "RemoteDev".toList vpn.remoteDev ++
  saveField "DNS".toList vpn.dns ++
  saveField "ClientID".toList vpn.clientID ++
  saveField "UserName".toList vpn.userName ++
  saveField "Password".toList vpn.password ++
  saveField "RemoteSearchPath".toList vpn.remoteSearchPath ++
  saveTimeout vpn.timeout ++
  (if vpn.flags.has vpnTcp then "Protocol=tcp\n".toList else []) ++
  saveMethod "LocalSU".toList flagLocalSu flagLocalSudo s.globalFlags ++
  saveMethod "RemoteSU".toList flagRemoteSu flagRemoteSudo s.globalFlags

end VpnMgr.Config
