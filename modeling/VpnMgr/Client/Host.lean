import VpnMgr.Command.Open
import VpnMgr.Machine.Process
import VpnMgr.Net

/-!
# The host of a client

Everything a client driver asks of the system it runs on is a call that the
host answers.  What is only shown to the user or logged is left out.
-/

namespace VpnMgr.Client

open Machine Text CString LibUseful Command

/-- The streams that the drivers read and write. -/
inductive StreamId where
  | file (path : CString)
  /-- the output of `ssh -T -G` -/
  | sshConfig
  | ssh
  | openvpn
  | terminal
  | pppd
  | remotePeer
  deriving DecidableEq

inductive AccessMode where
  | exists
  | writable
  | readable
  | executable
  deriving DecidableEq

inductive Call where
  /-- `RunCommand`; no answer stands for its `_exit`, or the `exit` of an aborted password -/
  | runCommand (text : CString) (flags : FlagWord)
  /-- the `RunCommand` of an up or down script -/
  | runScript (text : CString)
  /-- `RunCommandOpen`; no answer stands for the `exit` of an aborted password -/
  | runCommandOpen (text : CString) (flags : FlagWord)
  | runCommandCleanUp (flags : FlagWord)
  /-- `RunCommandReadLoop` on the SSH stream -/
  | runCommandReadLoop
  | streamOpen (stream : StreamId) (url config : CString)
  | streamGetValue (stream : StreamId) (name : CString)
  | streamReadLine (stream : StreamId)
  | streamReadToMultiTerminator (stream : StreamId)
  /-- `STREAMReadBytes`; no bytes stand for a result below 1 -/
  | streamReadBytes (stream : StreamId)
  | streamWriteLine (stream : StreamId) (text : CString)
  | streamWriteBytes (stream : StreamId) (bytes : List UInt8)
  | streamClose (stream : StreamId)
  | streamSelect
  | readFile (path : CString)
  | access (path : CString) (mode : AccessMode)
  | netLoadDevices
  | getInterfaceIP (dev : CString)
  | lookupHostIP (host : CString)
  /-- `GetRandomAlphabetStr` -/
  | randomKey
  /-- is `FLAG_EXIT` set by now? -/
  | flagExit
  /-- `VpnUp` is entered -/
  | vpnUp (dev : CString)
  /-- `VpnDown` is entered -/
  | vpnDown (dev : CString)
  /-- `TunShutdown` is entered -/
  | tunShutdown (dev : CString)
  deriving DecidableEq

/-- What the host answers. -/
def Answer : Call → Type
  | .runCommand .. => Option RunCmd
  | .runScript .. => Option RunCmd
  | .runCommandOpen .. => Option Bool
  | .runCommandCleanUp .. => Unit
  | .runCommandReadLoop => RunCmd
  | .streamOpen .. => Bool
  | .streamGetValue .. => CPtr
  | .streamReadLine .. => CPtr
  | .streamReadToMultiTerminator .. => CPtr
  | .streamReadBytes .. => List UInt8
  | .streamWriteLine .. => Unit
  | .streamWriteBytes .. => Unit
  | .streamClose .. => Unit
  | .streamSelect => Option StreamId
  | .readFile .. => CString
  | .access .. => Bool
  | .netLoadDevices => NetTable
  | .getInterfaceIP .. => CString
  | .lookupHostIP .. => CPtr
  | .randomKey => CString
  | .flagExit => Bool
  | .vpnUp .. => Unit
  | .vpnDown .. => Unit
  | .tunShutdown .. => Unit

/-- A URL taken apart. -/
structure Url where
  host : CPtr
  port : CPtr
  user : CPtr

/-- What stays the same while a client runs: the bits of `GlobalFlags` other
than `FLAG_EXIT`, the process, its user, and `libUseful`'s view of URLs. -/
structure Settings where
  globalFlags : FlagWord
  pid : Nat
  homeDir : CString
  userName : CString
  hostName : CString
  getCommandPath : CString → CPtr
  parseURL : CPtr → Url
  unpackURL : CPtr → Url

abbrev Driver (α : Type) := Process Answer α

def ask (call : Call) : Driver (Answer call) := Process.ask call

def runCommand (text : CString) (flags : FlagWord) : Driver RunCmd := do
  match ← (ask (.runCommand text flags) : Driver (Option RunCmd)) with
  | some status => pure status
  | none => Process.exit

/-- A `RunCommand` with `CMD_ASROOT` whose result nobody looks at. -/
def command (text : CString) : Driver Unit := do
  let _ ← runCommand text cmdAsRoot
  pure ()

/-- A `RunCommand` of `UpDownRunFiles`. -/
def script (text : CString) : Driver Unit := do
  match ← (ask (.runScript text) : Driver (Option RunCmd)) with
  | some _ => pure ()
  | none => Process.exit

def runCommandOpen (text : CString) (flags : FlagWord) : Driver Bool := do
  match ← (ask (.runCommandOpen text flags) : Driver (Option Bool)) with
  | some opened => pure opened
  | none => Process.exit

def streamOpen (stream : StreamId) (url config : CString) : Driver Bool :=
  ask (.streamOpen stream url config)

def streamGetValue (stream : StreamId) (name : CString) : Driver CPtr :=
  ask (.streamGetValue stream name)

def streamReadLine (stream : StreamId) : Driver CPtr := ask (.streamReadLine stream)

def streamReadToMultiTerminator (stream : StreamId) : Driver CPtr :=
  ask (.streamReadToMultiTerminator stream)

def streamReadBytes (stream : StreamId) : Driver (List UInt8) := ask (.streamReadBytes stream)

def streamWriteLine (stream : StreamId) (text : CString) : Driver Unit :=
  ask (.streamWriteLine stream text)

def streamWriteBytes (stream : StreamId) (bytes : List UInt8) : Driver Unit :=
  ask (.streamWriteBytes stream bytes)

def streamClose (stream : StreamId) : Driver Unit := ask (.streamClose stream)

def streamSelect : Driver (Option StreamId) := ask .streamSelect

def readFile (path : CString) : Driver CString := ask (.readFile path)

def access (path : CString) (mode : AccessMode) : Driver Bool := ask (.access path mode)

def devices : Driver NetTable := ask .netLoadDevices

/-- The names are tried in turn. -/
def findFreeName (stem : CString) : List Nat → Driver CString
  | [] => pure []
  | i :: rest => do
      if netDevExists (← devices) (numbered stem i) then findFreeName stem rest
      else pure (numbered stem i)

/-- `NetDevFindNext` as it runs, with one look at the devices for each name. -/
def netDevFindNextLive (stem : CString) : Driver CString := findFreeName stem (List.range 999)

/-- `GlobalFlags & FLAG_EXIT`. -/
def exiting : Driver Bool := ask .flagExit

/-- Read lines until the stream ends or `FLAG_EXIT` is set. -/
def drainLines (fuel : Nat) (stream : StreamId) : Driver Unit :=
  Process.loop (fun _ => do
    match ← streamReadLine stream with
    | none => pure (.inr ())
    | some _ => if ← exiting then pure (.inr ()) else pure (.inl ())) fuel ()

def isLineRead (stream : StreamId) : Sigma Answer → Bool
  | ⟨.streamReadLine other, _⟩ => other = stream
  | _ => false

def linesTaken (stream : StreamId) (made : History Answer) : Nat :=
  made.countP (isLineRead stream)

theorem linesTaken_append (stream : StreamId) (first second : History Answer) :
    linesTaken stream (first ++ second) = linesTaken stream first + linesTaken stream second :=
  List.countP_append

/-- A host on which every command ends well, every stream is at its end and
nothing is found. -/
def obligingHost : Environment Answer
  | _, .runCommand .. => some .okay
  | _, .runScript .. => some .okay
  | _, .runCommandOpen .. => some true
  | _, .runCommandCleanUp .. => ()
  | _, .runCommandReadLoop => .okay
  | _, .streamOpen .. => true
  | _, .streamGetValue .. => none
  | _, .streamReadLine .. => none
  | _, .streamReadToMultiTerminator .. => none
  | _, .streamReadBytes .. => []
  | _, .streamWriteLine .. => ()
  | _, .streamWriteBytes .. => ()
  | _, .streamClose .. => ()
  | _, .streamSelect => none
  | _, .readFile .. => []
  | _, .access .. => true
  | _, .netLoadDevices => ⟨none, fun _ => []⟩
  | _, .getInterfaceIP .. => []
  | _, .lookupHostIP .. => none
  | _, .randomKey => []
  | _, .flagExit => false
  | _, .vpnUp .. => ()
  | _, .vpnDown .. => ()
  | _, .tunShutdown .. => ()

/-- A user with no special settings. -/
def plainSettings : Settings where
  globalFlags := 0
  pid := 1
  homeDir := "/home/u".toList
  userName := "u".toList
  hostName := "h".toList
  getCommandPath := fun _ => none
  parseURL := fun _ => ⟨none, none, none⟩
  unpackURL := fun _ => ⟨none, none, none⟩

end VpnMgr.Client
