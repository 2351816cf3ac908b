import VpnMgr.Client.Host

/-!
# The resolver's configuration

`resolv.c`.
-/

namespace VpnMgr.Client

open Machine Text CString LibUseful

def resolvConf : CString := "/etc/resolv.conf".toList

def resolvSave : CString := "/etc/vpn_mgr.resolv.save".toList

/-- `FormatStr("/tmp/vpn_mgr-%d.resolv.conf", getpid())`. -/
def resolvTemp (pid : Nat) : CString :=
  "/tmp/vpn_mgr-".toList ++ decimal pid ++ ".resolv.conf".toList

def nameserverLine (token : CString) : CString :=
  mCopyStr [some "nameserver ".toList, some token, some "\n".toList]

/-- `ResolvChange`. -/
def resolvChange (pid : Nat) (nameservers : CPtr) : Driver Unit := do
  let path := resolvTemp pid
  let opened ← streamOpen (.file path) path "w".toList
  Process.when opened do
    Process.each (getTokens nameservers ",".toList noFlags) fun token =>
      streamWriteLine (.file path) (nameserverLine token)
    streamClose (.file path)
  command "mv /etc/resolv.conf /etc/vpn_mgr.resolv.save".toList
  command (mCopyStr [some "mv -f ".toList, some path, some " /etc/resolv.conf".toList])

/-- `ResolvRestore`. -/
def resolvRestore : Driver Unit :=
  command "mv /etc/vpn_mgr.resolv.save /etc/resolv.conf".toList

end VpnMgr.Client
