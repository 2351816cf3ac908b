import VpnMgr.Common
import VpnMgr.LibUseful.Strings

/-!
# The connection context

`TVpn` and `VpnCtxCreate`.  The record comes from `calloc`, so a string that
nobody sets is NULL.
-/

namespace VpnMgr

open Machine Text CString LibUseful

/-- The `ACT_` constants. -/
inductive Action where
  | config
  | add
  | delete
  | list
  | connect
  | server
  | protocols
  | version
  | help
  deriving DecidableEq

structure TVpn where
  action : Action := .connect
  flags : FlagWord := 0
  lineSpeed : BitVec 32 := 0
  mtu : BitVec 32 := 0
  timeout : BitVec 32 := 0
  name : CPtr := none
  dev : CPtr := none
  remoteDev : CPtr := none
  server : CPtr := none
  confFile : CPtr := none
  upFile : CPtr := none
  downFile : CPtr := none
  localAddress : CPtr := none
  remoteAddress : CPtr := none
  allowedIPs : CPtr := none
  remoteAllowedIPs : CPtr := none
  userName : CPtr := none
  password : CPtr := none
  clientCert : CPtr := none
  clientKey : CPtr := none
  verifyCert : CPtr := none
  preSharedKey : CPtr := none
  ciphers : CPtr := none
  clientID : CPtr := none
  dns : CPtr := none
  pppAuth : CPtr := none
  serverAuth : CPtr := none
  remoteSearchPath : CPtr := none
  deriving DecidableEq

/-- The action named by the first command line word. -/
def actionOf (action : CString) : Action :=
  if action = "conf".toList then .config
  else if action = "config".toList then .config
  else if action = "add".toList then .add
  else if action = "del".toList then .delete
  else if action = "delete".toList then .delete
  else if action = "server".toList then .server
  else if action = "list".toList then .list
  else if action = "protocols".toList then .protocols
  else if action = "version".toList then .version
  else if action = "help".toList then .help
  else .connect

/-- The script list `VpnCtxCreate` builds for `kind` (`up` or `down`). -/
def defaultScripts (name : CPtr) (kind : CString) : CString :=
  let own :=
    if strValid name then
      mCopyStr [some "/etc/vpn_mgr/".toList, name, some ".".toList, some kind, some ":".toList]
    else []
  mCatStr own [some "/etc/vpn_mgr/default.".toList, some kind]

/-- `VpnCtxCreate`; `none` when `add` comes without a URL. -/
def vpnCtxCreate (action : CString) (name server : CPtr) : Option TVpn :=
  let act := actionOf action
  if act = .add && !strValid server then none
  else
    some
      { action := act
        name := some (copyStr name)
        server := some (copyStr server)
        localAddress := some []
        remoteAddress := some []
        upFile := some (defaultScripts name "up".toList)
        downFile := some (defaultScripts name "down".toList)
        lineSpeed := 4000000
        remoteSearchPath :=
          some "/sbin:/bin:/usr/sbin:/usr/bin:/usr/local/sbin:/usr/local/bin".toList }

end VpnMgr
