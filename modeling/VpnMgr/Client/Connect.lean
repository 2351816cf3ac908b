import VpnMgr.Client.OpenVpn
import VpnMgr.Client.Ppp
import VpnMgr.Client.Wireguard

/-!
# Connecting

The `ACT_CONNECT` branch of `main`.
-/

namespace VpnMgr.Client

open Machine Text CString LibUseful

inductive Protocol where
  | wireguard
  | ssh
  | openVpn
  | pppSsh
  | pppTls
  deriving DecidableEq

/-- The driver of a protocol. -/
def protocolUp (settings : Settings) (fuel : Nat) (vpn : TVpn) : Protocol → Driver Unit
  | .wireguard => wireguardUp settings fuel vpn
  | .ssh => sshVpnUp settings fuel vpn
  | .openVpn => openVpnUp settings fuel vpn
  | .pppSsh => pppSshVpnUp settings fuel vpn
  | .pppTls => pppSslClientVpnUp settings fuel vpn

end VpnMgr.Client
