import VpnMgr.Client.Host

/-!
# Tunnel devices

`tuntap.c`.
-/

namespace VpnMgr.Client

open Machine Text CString LibUseful Command

def tunPath : CString := "/dev/net/tun".toList

/-- `TunModprobe`. -/
def tunModprobe : Driver Unit := do
  command "modprobe tun".toList
  command "chmod a+rw /dev/net/tun".toList

/-- `TunAvailable`. -/
def tunAvailable : Driver Bool := do
  Process.when (!(← access tunPath .exists)) tunModprobe
  command "chmod a+rw /dev/net/tun".toList
  if !(← access tunPath .exists) then pure false
  else if !(← access tunPath .writable) then pure false
  else access tunPath .readable

/-- The command of `TunSetup` that creates a device. -/
def tunAddCommand (type name : CString) : CString :=
  if type = "tun".toList then
    mCopyStr [some "ip tuntap add dev ".toList, some name, some " mode tun".toList]
  else mCopyStr [some "ip link add dev ".toList, some name, some " type ".toList, some type]

/-- The first half of `TunSetup`: the device exists or is created. -/
def tunCreate (type name : CString) : Driver RunCmd := do
  if netDevExists (← devices) name then pure .okay
  else
    let _ ← tunAvailable
    runCommand (tunAddCommand type name) cmdAsRoot

/-- `TunSetup`. -/
def tunSetup (type name : CString) (address : CPtr) : Driver RunCmd := do
  let status ← tunCreate type name
  if status = .okay then
    Process.when (strValid address)
      (command (mCopyStr [some "ip address add dev ".toList, some name, some " ".toList, address]))
    command (mCopyStr [some "ip link set up dev ".toList, some name])
    if netDevExists (← devices) name then pure .okay else pure .fail
  else pure status

/-- `TunShutdown`. -/
def tunShutdown (dev : CString) : Driver Unit := do
  let _ ← ask (.tunShutdown dev)
  command (mCopyStr [some "ip link set dev ".toList, some dev, some " down ".toList])
  command (mCopyStr [some "ip link delete dev ".toList, some dev])

end VpnMgr.Client
