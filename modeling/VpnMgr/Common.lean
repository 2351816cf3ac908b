import VpnMgr.Machine.Flags

/-!
# Flag constants

The bits of `GlobalFlags` (`common.h`), of a command's flag word
(`run_command.h`) and of `TVpn.Flags` (`vpn_ctx.h`).
-/

namespace VpnMgr

open Machine

def flagExit : FlagWord := 1

/-- `FLAG_SU` and `FLAG_LOCAL_SU` are one bit. -/
def flagLocalSu : FlagWord := 2

/-- `FLAG_SUDO` and `FLAG_LOCAL_SUDO` are one bit. -/
def flagLocalSudo : FlagWord := 4

def flagRemoteSu : FlagWord := 8

def flagRemoteSudo : FlagWord := 16

def flagNoDns : FlagWord := 32

def flagDebug : FlagWord := 2048

def flagVerbose : FlagWord := 4096

def cmdAsRoot : FlagWord := 1

def cmdSu : FlagWord := 2

def cmdSudo : FlagWord := 4

def cmdSsh : FlagWord := 8

def cmdNoSync : FlagWord := 16

def cmdNoStderr : FlagWord := 32

def cmdKill : FlagWord := 4096

def vpnTcp : FlagWord := 2

def vpnVerifyPeer : FlagWord := 4

end VpnMgr
