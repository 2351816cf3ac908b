import VpnMgr.Server.Relay

/-!
# Accepting a client

A turn of the accept branch of `SSLServer` should add a client together with
its pppd, or nothing.
-/

namespace VpnMgr.Server

open Machine Text CString LibUseful Channels

/-- A step of `SSLAcceptClient` fails. -/
def Fails (policy : Policy) (arrival : Arrival) : Prop :=
  arrival.client = none ∨
    sslAuth policy.passwd policy.serverAuth (arrival.client.getD noClient) = false ∨
    arrival.pppd = false

/-- Nothing came of the accept event. -/
structure Dropped (server : SslServer) (arrival : Arrival) (next : SslServer) : Prop where
  connections : next.connections = server.connections
  launches : ∀ launch ∈ next.launches.drop server.launches.length,
    launch.pppd.isSome = true → launch.client.isSome = true
  closed : arrival.client.isSome = true → next.streams.isOpen server.streams.fresh = false

/-- The client and its pppd were added as a pair. -/
structure Joined (server next : SslServer) (client pppd : Handle) : Prop where
  connections : next.connections = server.connections ++ [some pppd, some client]
  clientOpen : next.streams.isOpen client = true
  pppdOpen : next.streams.isOpen pppd = true
  clientPeer : streamGetPeer next.streams client = some pppd
  pppdPeer : streamGetPeer next.streams pppd = some client

structure AllOrNothing (policy : Policy) (server : SslServer) (arrival : Arrival)
    (next : SslServer) : Prop where
  nothing : Fails policy arrival → Dropped server arrival next
  all : ¬ Fails policy arrival → ∃ client pppd, Joined server next client pppd

section Accept

variable {policy : Policy} {server : SslServer} {arrival : Arrival}

theorem dropped_of_refused
    (refused : sslAuth policy.passwd policy.serverAuth (arrival.client.getD noClient) = false) :
    Dropped server arrival (sslAcceptClient policy server arrival) := by
  obtain ⟨client, table, pppd⟩ := arrival
  simp only [sslAcceptClient, refused, Bool.false_eq_true, if_false]
  refine ⟨rfl, by simp, fun accepted => ?_⟩
  simp only [streamOpen, accepted, if_true, streamClose]
  have found : server.streams.allocate.get server.streams.fresh = some {} := by
    rw [get_allocate, if_pos rfl]
  have closed := @get_edit _ _ _ _ (fun channel => { channel with isOpen := false }) found rfl
    server.streams.fresh
  rw [if_pos rfl] at closed
  rw [Channels.close, isOpen_of_get closed]

theorem longer_of_authorized
    (authorized : sslAuth policy.passwd policy.serverAuth (arrival.client.getD noClient) = true) :
    (sslAcceptClient policy server arrival).connections ≠ server.connections := by
  simp only [sslAcceptClient, authorized, if_true]
  intro same
  have := congrArg List.length same
  simp at this

theorem joined_of_launched
    (accepted : arrival.client.isSome = true)
    (authorized : sslAuth policy.passwd policy.serverAuth (arrival.client.getD noClient) = true)
    (launched : arrival.pppd = true) :
    Joined server (sslAcceptClient policy server arrival) server.streams.fresh
      server.streams.allocate.fresh := by
  have apart : server.streams.allocate.fresh ≠ server.streams.fresh := by
    simp [fresh, allocate]
  have client : server.streams.allocate.allocate.get server.streams.fresh = some {} := by
    rw [get_allocate, if_neg apart.symm, get_allocate, if_pos rfl]
  have pppd : server.streams.allocate.allocate.get server.streams.allocate.fresh = some {} := by
    rw [get_allocate, if_pos rfl]
  -- the streams once pppd's peer is set, and once the client's is
  have first := @get_edit UInt8 _ _ _
    (fun channel => { channel with peer := some server.streams.fresh }) pppd rfl
  have clientLater := first server.streams.fresh
  rw [if_neg apart.symm, client] at clientLater
  have second := @get_edit UInt8 _ _ _
    (fun channel => { channel with peer := some server.streams.allocate.fresh }) clientLater rfl
  have clientEnd := second server.streams.fresh
  rw [if_pos rfl] at clientEnd
  have pppdEnd := second server.streams.allocate.fresh
  rw [if_neg apart, first, if_pos rfl] at pppdEnd
  simp only [sslAcceptClient, authorized, if_true, streamOpen, accepted, launched, streamSetPeer]
  refine ⟨by simp, ?_, ?_, ?_, ?_⟩
  · exact isOpen_of_get clientEnd
  · exact isOpen_of_get pppdEnd
  · exact congrArg (Option.bind · Channel.peer) clientEnd
  · exact congrArg (Option.bind · Channel.peer) pppdEnd

end Accept

theorem sslAuth_noClient (passwd : CString → Bool) (serverAuth : CPtr) :
    sslAuth passwd serverAuth noClient = true ↔ IsKeyword "open".toList serverAuth := by
  constructor
  · exact fun authorized => (open_or_named authorized).resolve_right (by decide)
  · intro keyword
    rw [sslAuth, requirementFlags_open keyword, certificateFlags_or_okay]
    rfl

/-- An accept event is handled as a whole exactly if no NULL passes under `open`
and every authorized client gets its pppd. -/
theorem sslAcceptClient_allOrNothing_iff (policy : Policy) (server : SslServer)
    (arrival : Arrival) :
    AllOrNothing policy server arrival (sslAcceptClient policy server arrival) ↔
      (arrival.client = none → ¬ IsKeyword "open".toList policy.serverAuth) ∧
      ∀ client, arrival.client = some client →
        sslAuth policy.passwd policy.serverAuth client = true → arrival.pppd = true := by
  constructor
  · rintro ⟨nothing, -⟩
    refine ⟨fun absent anyone => ?_, fun client accepted authorized => ?_⟩
    · have authorized := (sslAuth_noClient policy.passwd policy.serverAuth).mpr anyone
      exact longer_of_authorized (by rwa [absent, Option.getD_none])
        (nothing (.inl absent)).connections
    · by_contra failed
      exact longer_of_authorized (by rwa [accepted, Option.getD_some])
        (nothing (.inr (.inr (by simpa using failed)))).connections
  · rintro ⟨notOpen, launched⟩
    refine ⟨fun fails => dropped_of_refused ?_, fun succeeds => ?_⟩
    · rw [← Bool.not_eq_true]
      intro authorized
      cases accepted : arrival.client with
      | none =>
          rw [accepted, Option.getD_none] at authorized
          exact notOpen accepted ((sslAuth_noClient _ _).mp authorized)
      | some client =>
          have started := launched client accepted (by simpa [accepted] using authorized)
          rcases fails with absent | refused | failed
          · exact absurd (accepted.symm.trans absent) (by simp)
          · exact absurd (authorized.symm.trans refused) (by decide)
          · exact absurd (started.symm.trans failed) (by decide)
    · simp only [Fails, not_or, Bool.not_eq_false] at succeeds
      obtain ⟨accepted, authorized, started⟩ := succeeds
      exact ⟨_, _, joined_of_launched (Option.isSome_iff_ne_none.mpr accepted) authorized
        started⟩

def openServer : SslServer := startServer true

/-- Without a client, pppd is launched all the same and NULL joins the list. -/
theorem openServer_keeps_null :
    let policy : Policy := ⟨fun _ => false, some "open".toList⟩
    let next := sslAcceptClient policy openServer ⟨none, ⟨none, fun _ => []⟩, true⟩
    next.connections = [some 0, some 1, none] ∧
      ¬ AllOrNothing policy openServer ⟨none, ⟨none, fun _ => []⟩, true⟩ next := by
  refine ⟨by decide, fun whole => ?_⟩
  exact absurd (whole.nothing (.inl rfl)).connections (by decide)

end VpnMgr.Server
