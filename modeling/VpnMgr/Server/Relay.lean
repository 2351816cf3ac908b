import VpnMgr.Machine.Channels
import VpnMgr.Machine.Run
import VpnMgr.Net
import VpnMgr.Server.Auth

/-!
# The loop of the TLS server

`SSLServer` and what it calls: every event of the loop is one step on the
connection list, the streams and their `Peer` items.  The two last fields of
the state only record what was done.
-/

namespace VpnMgr.Server

open Machine Text CString LibUseful

/-- A pppd launched for a client, and the address given to it. -/
structure Launch where
  client : Option Handle
  pppd : Option Handle
  remoteAddress : CString
  deriving DecidableEq

structure SslServer where
  /-- What `STREAMServerNew` returned. -/
  listener : Option Handle
  /-- `Connections`; `ListAddItem` adds NULL too. -/
  connections : List (Option Handle)
  streams : Channels UInt8
  launches : List Launch := []
  /-- The clients that did not pass `SSLAuth`. -/
  refused : List Handle := []
  deriving DecidableEq

/-- What `SSLAuth` looks up. -/
structure Policy where
  passwd : CString → Bool
  serverAuth : CPtr

/-- One pass through the accept branch: the client, unless `STREAMServerAccept`
gives NULL, the devices the host shows, and whether `PPPDLaunch` gives a stream. -/
structure Arrival where
  client : Option ClientInfo
  table : NetTable
  pppd : Bool

inductive Input where
  | arrival (arrival : Arrival)
  /-- What `STREAMReadBytes` puts in the buffer: nothing at the end of the stream. -/
  | bytes (bytes : List UInt8)

inductive Event where
  /-- `STREAMSelect` returns NULL. -/
  | idle
  /-- It returns a stream, from its buffer or from its descriptor. -/
  | ready (handle : Handle) (buffered : Bool) (input : Input)

/-- `STREAMSelect`: only listed streams are returned, and one that had its turn
goes to the end of the list. -/
def streamSelect (connections : List (Option Handle)) (handle : Handle) (buffered : Bool) :
    Option (List (Option Handle)) :=
  if some handle ∈ connections then
    some (if buffered then connections else connections.erase (some handle) ++ [some handle])
  else none

/-- `ListDeleteItem`. -/
def listDeleteItem (connections : List (Option Handle)) (item : Option Handle) :
    List (Option Handle) :=
  match item with
  | none => connections
  | some _ => connections.erase item

/-- `STREAMClose`. -/
def streamClose (streams : Channels UInt8) : Option Handle → Channels UInt8
  | none => streams
  | some handle => streams.close handle

/-- `STREAMGetItem(S, "Peer")`. -/
def streamGetPeer (streams : Channels UInt8) (handle : Handle) : Option Handle :=
  (streams.get handle).bind Channel.peer

/-- `STREAMSetItem(S, "Peer", Value)`. -/
def streamSetPeer (streams : Channels UInt8) (stream value : Option Handle) : Channels UInt8 :=
  match stream with
  | none => streams
  | some handle => streams.link handle value

def streamOpen (streams : Channels UInt8) (succeeds : Bool) : Option Handle × Channels UInt8 :=
  if succeeds then (some streams.fresh, streams.allocate) else (none, streams)

/-- `SSLShutdownConnection`. -/
def sslShutdownConnection (server : SslServer) (con : Handle) (peer : Option Handle) : SslServer :=
  { server with
    connections := listDeleteItem (listDeleteItem server.connections (some con)) peer
    streams := streamClose (streamClose server.streams peer) (some con) }

/-- `SSLProcess`. -/
def sslProcess (server : SslServer) (s : Handle) (buffer : List UInt8) : SslServer :=
  let peer := streamGetPeer server.streams s
  let streams := server.streams.receive s buffer
  match peer, buffer with
  | some handle, _ :: _ => { server with streams := streams.send handle buffer }
  | _, _ => sslShutdownConnection { server with streams } s peer

/-- What `STREAMGetValue` gives for NULL. -/
def noClient : ClientInfo := { peerIP := [], commonName := none, certificateVerify := none }

/-- `SSLAcceptClient`. -/
def sslAcceptClient (policy : Policy) (server : SslServer) (arrival : Arrival) : SslServer :=
  let (client, streams) := streamOpen server.streams arrival.client.isSome
  if sslAuth policy.passwd policy.serverAuth (arrival.client.getD noClient) then
    let remoteAddress := netDevFindNextIP arrival.table "172.16.0".toList
    let (pppd, streams) := streamOpen streams arrival.pppd
    { server with
      connections := server.connections ++ [pppd] ++ [client]
      streams := streamSetPeer (streamSetPeer streams pppd client) client pppd
      launches := server.launches ++ [{ client, pppd, remoteAddress }] }
  else
    { server with
      streams := streamClose streams client
      refused := server.refused ++ client.toList }

/-- One turn of `SSLServer`'s loop. -/
def serverStep (policy : Policy) (server : SslServer) : Event → Option SslServer
  | .idle => some server
  | .ready handle buffered input =>
      (streamSelect server.connections handle buffered).bind fun connections =>
        match input with
        | .arrival arrival =>
            if server.listener = some handle then
              some (sslAcceptClient policy { server with connections } arrival)
            else none
        | .bytes buffer =>
            if server.listener = some handle ∨ 4096 < buffer.length then none
            else some (sslProcess { server with connections } handle buffer)

def startServer (listening : Bool) : SslServer :=
  let (listener, streams) := streamOpen {} listening
  { listener, connections := [listener], streams }

/-- The three kinds of turns. -/
theorem serverStep_cases {policy : Policy} {server next : SslServer} {event : Event}
    (stepped : serverStep policy server event = some next) :
    (event = .idle ∧ next = server) ∨
      ∃ handle buffered connections,
        streamSelect server.connections handle buffered = some connections ∧
        ((∃ arrival, event = .ready handle buffered (.arrival arrival) ∧
            server.listener = some handle ∧
            next = sslAcceptClient policy { server with connections } arrival) ∨
          ∃ buffer, event = .ready handle buffered (.bytes buffer) ∧
            server.listener ≠ some handle ∧ buffer.length ≤ 4096 ∧
            next = sslProcess { server with connections } handle buffer) := by
  cases event with
  | idle => exact .inl ⟨rfl, (Option.some.inj stepped).symm⟩
  | ready handle buffered input =>
      obtain ⟨connections, selected, turn⟩ := Option.bind_eq_some_iff.mp stepped
      refine .inr ⟨handle, buffered, connections, selected, ?_⟩
      cases input with
      | arrival arrival =>
          dsimp only at turn
          split at turn
          next listener =>
            exact .inl ⟨arrival, rfl, listener, (Option.some.inj turn).symm⟩
          next => exact absurd turn (by simp)
      | bytes buffer =>
          dsimp only at turn
          split at turn
          next => exact absurd turn (by simp)
          next allowed =>
            simp only [not_or, Nat.not_lt] at allowed
            exact .inr ⟨buffer, rfl, allowed.1, allowed.2, (Option.some.inj turn).symm⟩

def openPolicy : Policy := { passwd := fun _ => false, serverAuth := some "open".toList }

def quietTable : NetTable := { procNetDev := none, interfaceIP := fun _ => [] }

end VpnMgr.Server
