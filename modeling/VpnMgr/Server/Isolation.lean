import VpnMgr.Server.Lasting

/-!
# Isolation of the server's sessions

Who came, what was read and what ended, by the events alone, and what every
stream of the server is after them.
-/

namespace VpnMgr.Server

open Machine Text CString LibUseful Channels

def Event.readOf (handle : Handle) : Event → Option (List UInt8)
  | .ready turned _ (.bytes buffer) => if turned = handle then some buffer else none
  | _ => none

def reads (events : List Event) (handle : Handle) : List (List UInt8) :=
  events.filterMap (Event.readOf handle)

def delivered (events : List Event) (handle : Handle) : List UInt8 := (reads events handle).flatten

def ended (events : List Event) (handle : Handle) : Bool := (reads events handle).contains []

/-- A session is over when the end of one side was read; half a session, whose
bytes have nowhere to go, at its first read. -/
def sessionOver (events : List Event) : Option Handle → Option Handle → Bool
  | some client, some pppd => ended events client || ended events pppd
  | some side, none | none, some side => !(reads events side).isEmpty
  | none, none => false

/-- Someone who came, and the first handle that was free then. -/
structure Visit where
  arrival : Arrival
  free : Handle

namespace Visit

def admitted (policy : Policy) (visit : Visit) : Bool :=
  sslAuth policy.passwd policy.serverAuth (visit.arrival.client.getD noClient)

def client (visit : Visit) : Option Handle :=
  if visit.arrival.client.isSome then some visit.free else none

def afterClient (visit : Visit) : Handle :=
  if visit.arrival.client.isSome then visit.free + 1 else visit.free

def pppd (policy : Policy) (visit : Visit) : Option Handle :=
  if visit.admitted policy && visit.arrival.pppd then some visit.afterClient else none

def next (policy : Policy) (visit : Visit) : Handle :=
  if visit.admitted policy && visit.arrival.pppd then visit.afterClient + 1
  else visit.afterClient

/-- A stream of the visit, and the one at the other side. -/
def Side (policy : Policy) (visit : Visit) (side : Handle) (other : Option Handle) : Prop :=
  (visit.client = some side ∧ visit.pppd policy = other) ∨
    (visit.pppd policy = some side ∧ visit.client = other)

def finished (policy : Policy) (events : List Event) (visit : Visit) : Bool :=
  sessionOver events visit.client (visit.pppd policy)

end Visit

/-- Who comes in these events, from the first free handle on. -/
def visitsFrom (policy : Policy) : Handle → List Event → List Visit
  | free, .ready _ _ (.arrival arrival) :: rest =>
      ⟨arrival, free⟩ :: visitsFrom policy ((Visit.mk arrival free).next policy) rest
  | free, _ :: rest => visitsFrom policy free rest
  | _, [] => []

def freeAfter (policy : Policy) : Handle → List Event → Handle
  | free, .ready _ _ (.arrival arrival) :: rest =>
      freeAfter policy ((Visit.mk arrival free).next policy) rest
  | free, _ :: rest => freeAfter policy free rest
  | free, [] => free

/-- Who came to the server, whose own stream, if there is one, has the first handle. -/
def visits (policy : Policy) (listening : Bool) (events : List Event) : List Visit :=
  visitsFrom policy (if listening then 1 else 0) events

/-- What the events say of the streams. -/
structure Isolated (policy : Policy) (listening : Bool) (events : List Event)
    (server : SslServer) : Prop where
  /-- No stream was used after it was closed. -/
  noFault : server.streams.fault = false
  /-- What was read from one side, and nothing else, was written to the other.
  Both are closed and unlisted once their session is over, and not before. -/
  relayed : ∀ visit ∈ visits policy listening events, visit.admitted policy = true →
    ∀ side other, visit.Side policy side other →
      server.streams.get side = some
          { isOpen := !visit.finished policy events, peer := other
            received := delivered events side
            sent := (other.map (delivered events)).getD [] } ∧
        (some side ∈ server.connections ↔ visit.finished policy events = false)
  /-- A client that did not pass was closed at once, and never read or written. -/
  refused : ∀ visit ∈ visits policy listening events, visit.admitted policy = false →
    ∀ side, visit.client = some side →
      server.streams.get side = some { isOpen := false } ∧ some side ∉ server.connections ∧
        reads events side = []
  /-- There are no other streams but the listener, which is never read or written. -/
  others : ∀ handle stream, server.streams.get handle = some stream →
    (server.listener = some handle ∧ stream = {}) ∨
      ∃ visit ∈ visits policy listening events,
        visit.client = some handle ∨ visit.pppd policy = some handle

section History

variable {policy : Policy} {free : Handle} {before : List Event} {event : Event}
  {handle : Handle}

theorem visitsFrom_append (events : List Event) : visitsFrom policy free (before ++ events) =
    visitsFrom policy free before ++ visitsFrom policy (freeAfter policy free before) events := by
  induction before generalizing free with
  | nil => rfl
  | cons first rest inductionHypothesis =>
      rcases first with _ | ⟨_, _, arrival | _⟩
      · exact inductionHypothesis
      · exact congrArg (List.cons _) inductionHypothesis
      · exact inductionHypothesis

theorem freeAfter_append (events : List Event) : freeAfter policy free (before ++ events) =
    freeAfter policy (freeAfter policy free before) events := by
  induction before generalizing free with
  | nil => rfl
  | cons first rest inductionHypothesis =>
      rcases first with _ | ⟨_, _, _ | _⟩ <;> exact inductionHypothesis

theorem reads_append (events : List Event) :
    reads (before ++ events) handle = reads before handle ++ reads events handle :=
  List.filterMap_append

theorem reads_single (unread : event.readOf handle = none) :
    reads (before ++ [event]) handle = reads before handle := by
  rw [reads_append, reads, reads, List.filterMap_cons_none unread, List.filterMap_nil,
    List.append_nil]

theorem reads_bytes (turned : Handle) (buffered : Bool) (buffer : List UInt8) :
    reads (before ++ [.ready turned buffered (.bytes buffer)]) handle =
      reads before handle ++ if turned = handle then [buffer] else [] := by
  rw [reads_append]
  congr 1
  by_cases same : turned = handle
  · simp [reads, Event.readOf, same]
  · simp [reads, Event.readOf, same]

theorem sessionOver_congr {events : List Event} {client pppd : Option Handle}
    (same : ∀ handle, client = some handle ∨ pppd = some handle →
      reads events handle = reads before handle) :
    sessionOver events client pppd = sessionOver before client pppd := by
  cases client with
  | none =>
      cases pppd with
      | none => rfl
      | some p => simp only [sessionOver, same p (.inr rfl)]
  | some c =>
      cases pppd with
      | none => simp only [sessionOver, same c (.inl rfl)]
      | some p => simp only [sessionOver, ended, same c (.inl rfl), same p (.inr rfl)]

theorem sessionOver_unread {client pppd : Option Handle}
    (unread : ∀ handle, client = some handle ∨ pppd = some handle → reads before handle = []) :
    sessionOver before client pppd = false :=
  (@sessionOver_congr [] before client pppd fun handle side => unread handle side).trans
    (by cases client <;> cases pppd <;> rfl)

end History

/-! ## What the model's operations leave -/

def receivedFrom (streams : Channels UInt8) (handle : Handle) : List UInt8 :=
  ((streams.get handle).map Channel.received).getD []

section Operations

variable {policy : Policy} {server : SslServer} {streams : Channels UInt8}
  {handle : Handle} {change : Channel UInt8 → Channel UInt8} {buffer : List UInt8}

theorem fresh_edit : (streams.edit handle change).fresh = streams.fresh := by
  unfold edit
  split
  · split
    · exact List.length_set
    · rfl
  · rfl

theorem receivedFrom_edit (keeps : ∀ channel, (change channel).received = channel.received)
    (other : Handle) : receivedFrom (streams.edit handle change) other = receivedFrom streams other := by
  cases found : streams.get handle with
  | none =>
      simp only [edit, found]
      rfl
  | some channel =>
      cases opened : channel.isOpen with
      | false =>
          simp only [edit, found, opened]
          rfl
      | true =>
          rw [receivedFrom, get_edit found opened]
          split
          case isTrue same => simp [receivedFrom, same, found, keeps]
          case isFalse => rfl

theorem receivedFrom_receive (opened : streams.isOpen handle = true) (other : Handle) :
    receivedFrom (streams.receive handle buffer) other =
      receivedFrom streams other ++ if handle = other then buffer else [] := by
  obtain ⟨channel, found, isOpen'⟩ := isOpen_iff.mp opened
  rw [receivedFrom, receive, get_edit found isOpen']
  by_cases same : other = handle
  · subst same
    simp [receivedFrom, found]
  · simp [receivedFrom, same, Ne.symm same]

theorem receivedFrom_open (succeeds : Bool) (other : Handle) :
    receivedFrom (streamOpen streams succeeds).2 other = receivedFrom streams other := by
  cases succeeds with
  | false => rfl
  | true =>
      simp only [streamOpen, if_true, receivedFrom, get_allocate]
      split
      case isTrue same => rw [same, get_fresh]; rfl
      case isFalse => rfl

theorem streamOpen_item (succeeds : Bool) :
    (streamOpen streams succeeds).1 = if succeeds then some streams.fresh else none := by
  cases succeeds <;> rfl

theorem streamOpen_fresh (succeeds : Bool) : (streamOpen streams succeeds).2.fresh =
    if succeeds then streams.fresh + 1 else streams.fresh := by
  cases succeeds with
  | false => rfl
  | true => simp [streamOpen, fresh, allocate]

theorem receivedFrom_close (item : Option Handle) (other : Handle) :
    receivedFrom (streamClose streams item) other = receivedFrom streams other := by
  cases item with
  | none => rfl
  | some =>
      refine receivedFrom_edit ?_ other
      exact fun _ => rfl

theorem receivedFrom_setPeer (item value : Option Handle) (other : Handle) :
    receivedFrom (streamSetPeer streams item value) other = receivedFrom streams other := by
  cases item with
  | none => rfl
  | some =>
      refine receivedFrom_edit ?_ other
      exact fun _ => rfl

theorem fresh_close (item : Option Handle) : (streamClose streams item).fresh = streams.fresh := by
  cases item with
  | none => rfl
  | some => exact fresh_edit

theorem fresh_setPeer (item value : Option Handle) :
    (streamSetPeer streams item value).fresh = streams.fresh := by
  cases item with
  | none => rfl
  | some => exact fresh_edit

/-- The streams after a turn of the relay, but for what was written and closed. -/
theorem sslProcess_streams (opened : server.streams.isOpen handle = true) :
    (sslProcess server handle buffer).streams.fresh = server.streams.fresh ∧
      ∀ other, receivedFrom (sslProcess server handle buffer).streams other =
        receivedFrom server.streams other ++ if handle = other then buffer else [] := by
  have later : ∀ peer other, receivedFrom (streamClose (streamClose
      (server.streams.receive handle buffer) peer) (some handle)) other =
        receivedFrom server.streams other ++ if handle = other then buffer else [] := by
    intro peer other
    rw [receivedFrom_close, receivedFrom_close, receivedFrom_receive opened]
  have closed : ∀ peer, (streamClose (streamClose
      (server.streams.receive handle buffer) peer) (some handle)).fresh = server.streams.fresh := by
    intro peer
    rw [fresh_close, fresh_close]
    exact fresh_edit
  unfold sslProcess
  dsimp only
  split
  · refine ⟨fresh_edit.trans fresh_edit, fun other => ?_⟩
    refine Eq.trans (receivedFrom_edit ?_ other) (receivedFrom_receive opened other)
    exact fun _ => rfl
  · exact ⟨closed _, later _⟩

theorem sslProcess_records : (sslProcess server handle buffer).launches = server.launches ∧
    (sslProcess server handle buffer).refused = server.refused := by
  unfold sslProcess
  dsimp only
  split <;> exact ⟨rfl, rfl⟩

/-- What the accept branch leaves, in terms of the visit. -/
theorem sslAcceptClient_visit (arrival : Arrival) :
    let visit : Visit := ⟨arrival, server.streams.fresh⟩
    let after := sslAcceptClient policy server arrival
    after.streams.fresh = visit.next policy ∧
      (∀ other, receivedFrom after.streams other = receivedFrom server.streams other) ∧
      (after.launches.map fun launch => (launch.client, launch.pppd)) =
        (server.launches.map fun launch => (launch.client, launch.pppd)) ++
          (if visit.admitted policy then [(visit.client, visit.pppd policy)] else []) ∧
      after.refused = server.refused ++
        (if visit.admitted policy then [] else visit.client.toList) := by
  intro visit after
  simp only [after, sslAcceptClient]
  by_cases admitted : sslAuth policy.passwd policy.serverAuth (arrival.client.getD noClient) = true
  · rw [if_pos admitted]
    dsimp only
    have passes : visit.admitted policy = true := admitted
    refine ⟨?_, fun other => ?_, ?_, ?_⟩
    · rw [fresh_setPeer, fresh_setPeer, streamOpen_fresh, streamOpen_fresh, Visit.next, passes, Bool.true_and]
      rfl
    · rw [receivedFrom_setPeer, receivedFrom_setPeer, receivedFrom_open, receivedFrom_open]
    · rw [List.map_append, streamOpen_item, streamOpen_item, streamOpen_fresh, passes, if_pos rfl, Visit.pppd, passes,
        Bool.true_and]
      rfl
    · rw [passes, if_pos rfl, List.append_nil]
  · rw [if_neg admitted]
    dsimp only
    have fails : visit.admitted policy = false := Bool.eq_false_iff.mpr admitted
    refine ⟨?_, fun other => ?_, ?_, ?_⟩
    · rw [fresh_close, streamOpen_fresh, Visit.next, fails, Bool.false_and]
      rfl
    · rw [receivedFrom_close, receivedFrom_open]
    · rw [fails]
      simp
    · rw [fails, streamOpen_item]
      rfl

/-- The streams of an admitted visit are new and open. -/
theorem sslAcceptClient_new (sound : Sound server) {arrival : Arrival} :
    let visit : Visit := ⟨arrival, server.streams.fresh⟩
    visit.admitted policy = true → ∀ handle,
      visit.client = some handle ∨ visit.pppd policy = some handle →
        server.streams.get handle = none ∧
          (sslAcceptClient policy server arrival).streams.isOpen handle = true := by
  intro visit admitted handle side
  have clientOpened := streamOpen_opened sound.coupled arrival.client.isSome
  have accepted := (@Sound.accept server sound _ _ _ _
    (netDevFindNextIP arrival.table "172.16.0".toList) clientOpened
    (streamOpen_opened clientOpened.coupled arrival.pppd)).2.2 handle
  have passes : sslAuth policy.passwd policy.serverAuth (arrival.client.getD noClient) = true :=
    admitted
  unfold sslAcceptClient
  dsimp only
  rw [if_pos passes]
  refine accepted ?_
  rw [Visit.pppd, admitted, Bool.true_and] at side
  simp only [streamOpen_item, streamOpen_fresh]
  exact side

end Operations

/-! ## What the events say is so -/

structure Chronicle (policy : Policy) (listening : Bool) (events : List Event)
    (server : SslServer) : Prop where
  sound : Sound server
  free : server.streams.fresh = freeAfter policy (if listening then 1 else 0) events
  launches : (server.launches.map fun launch => (launch.client, launch.pppd)) =
    ((visits policy listening events).filter (Visit.admitted policy)).map
      fun visit => (visit.client, visit.pppd policy)
  refused : server.refused = ((visits policy listening events).filter
    fun visit => !visit.admitted policy).flatMap fun visit => visit.client.toList
  received : ∀ handle, receivedFrom server.streams handle = delivered events handle
  unread : ∀ handle, server.streams.get handle = none → reads events handle = []
  unreadRefused : ∀ handle ∈ server.refused, reads events handle = []
  finished : ∀ launch ∈ server.launches, ∀ handle,
    launch.client = some handle ∨ launch.pppd = some handle →
      server.streams.isOpen handle = !sessionOver events launch.client launch.pppd

section Steps

variable {policy : Policy} {listening : Bool} {events : List Event} {server next : SslServer}

theorem visits_append (event : Event) : visits policy listening (events ++ [event]) =
    visits policy listening events ++
      visitsFrom policy (freeAfter policy (if listening then 1 else 0) events) [event] :=
  visitsFrom_append [event]

/-- An event that brings nobody and reads nothing. -/
theorem Chronicle.idle (chronicle : Chronicle policy listening events server) :
    Chronicle policy listening (events ++ [.idle]) server := by
  have sameVisits : visits policy listening (events ++ [.idle]) = visits policy listening events := by
    rw [visits_append]
    exact List.append_nil _
  have sameReads : ∀ handle, reads (events ++ [.idle]) handle = reads events handle :=
    fun handle => reads_single rfl
  refine ⟨chronicle.sound, ?_, ?_, ?_, fun handle => ?_, fun handle absent => ?_,
    fun handle member => ?_, fun launch member handle side => ?_⟩
  · rw [freeAfter_append, ← chronicle.free]
    rfl
  · rw [sameVisits, chronicle.launches]
  · rw [sameVisits, chronicle.refused]
  · rw [delivered, sameReads, chronicle.received, delivered]
  · rw [sameReads, chronicle.unread handle absent]
  · rw [sameReads, chronicle.unreadRefused handle member]
  · rw [sessionOver_congr fun handle _ => sameReads handle,
      chronicle.finished launch member handle side]

theorem Launch.Linked.present {launch : Launch} {streams : Channels UInt8} {handle : Handle}
    (linked : launch.Linked streams) (side : launch.client = some handle ∨ launch.pppd = some handle) :
    ∃ stream, streams.get handle = some stream := by
  rcases side with isClient | isPppd
  · obtain ⟨stream, found, -⟩ := linked.client handle isClient
    exact ⟨stream, found⟩
  · obtain ⟨stream, found, -⟩ := linked.pppd handle isPppd
    exact ⟨stream, found⟩

/-- Someone comes. -/
theorem Chronicle.accept {connections : List (Option Handle)} {turned : Handle} {buffered : Bool}
    (chronicle : Chronicle policy listening events server) (arrival : Arrival)
    (rotated : Sound { server with connections }) :
    Chronicle policy listening (events ++ [.ready turned buffered (.arrival arrival)])
      (sslAcceptClient policy { server with connections } arrival) := by
  obtain ⟨sound, kept⟩ := sslAcceptClient_sound policy arrival rotated
  obtain ⟨free, received, launches, refused⟩ :=
    @sslAcceptClient_visit policy { server with connections } arrival
  have entered := @sslAcceptClient_new policy { server with connections } rotated arrival
  generalize sslAcceptClient policy { server with connections } arrival = after at *
  have sameReads : ∀ handle, reads (events ++ [.ready turned buffered (.arrival arrival)]) handle =
      reads events handle := fun handle => reads_single rfl
  have newVisit : visits policy listening (events ++ [.ready turned buffered (.arrival arrival)]) =
      visits policy listening events ++ [⟨arrival, server.streams.fresh⟩] := by
    rw [visits_append, chronicle.free]
    rfl
  have stillAbsent : ∀ handle, after.streams.get handle = none →
      server.streams.get handle = none := by
    intro handle absent
    by_contra present
    obtain ⟨stream, found⟩ := Option.ne_none_iff_exists'.mp present
    rw [kept handle stream found] at absent
    cases absent
  refine ⟨sound, ?_, ?_, ?_, fun handle => ?_, fun handle absent => ?_, fun handle member => ?_,
    fun launch member handle side => ?_⟩
  · rw [free, freeAfter_append, ← chronicle.free]
    rfl
  · rw [launches, newVisit, chronicle.launches, List.filter_append, List.map_append]
    congr 1
    by_cases admitted : Visit.admitted policy ⟨arrival, server.streams.fresh⟩ = true <;>
      simp [admitted]
  · rw [refused, newVisit, chronicle.refused, List.filter_append, List.flatMap_append]
    congr 1
    by_cases admitted : Visit.admitted policy ⟨arrival, server.streams.fresh⟩ = true <;>
      simp [admitted]
  · rw [received, delivered, sameReads, ← delivered]
    exact chronicle.received handle
  · rw [sameReads, chronicle.unread handle (stillAbsent handle absent)]
  · rw [sameReads]
    rw [refused] at member
    rcases List.mem_append.mp member with before | last
    · exact chronicle.unreadRefused handle before
    · refine chronicle.unread handle ?_
      have isNew : handle = server.streams.fresh := by
        split at last
        · cases last
        · simp only [Visit.client] at last
          split at last
          · simpa using last
          · cases last
      rw [isNew]
      exact get_fresh server.streams
  · rw [sessionOver_congr fun handle _ => sameReads handle]
    have pair : (launch.client, launch.pppd) ∈
        after.launches.map fun launch => (launch.client, launch.pppd) :=
      List.mem_map_of_mem member
    rw [launches] at pair
    rcases List.mem_append.mp pair with before | last
    · obtain ⟨earlier, member', same⟩ := List.mem_map.mp before
      obtain ⟨sameClient, samePppd⟩ := Prod.mk.inj same
      rw [← sameClient, ← samePppd] at side ⊢
      obtain ⟨stream, found⟩ := (chronicle.sound.launches earlier member').present side
      rw [isOpen_of_get (kept handle stream found), ← isOpen_of_get found]
      exact chronicle.finished earlier member' handle side
    · split at last
      case isFalse => cases last
      case isTrue admitted =>
        obtain ⟨isClient, isPppd⟩ := Prod.mk.inj (List.mem_singleton.mp last)
        rw [isClient, isPppd] at side ⊢
        rw [(entered admitted handle side).2,
          sessionOver_unread fun handle side => chronicle.unread handle (entered admitted handle side).1]
        rfl

theorem Launch.Linked.peer {launch : Launch} {streams : Channels UInt8} (linked : launch.Linked streams) :
    (∀ handle, launch.client = some handle → streamGetPeer streams handle = launch.pppd) ∧
      ∀ handle, launch.pppd = some handle → streamGetPeer streams handle = launch.client := by
  constructor
  · intro handle isClient
    obtain ⟨stream, found, peer⟩ := linked.client handle isClient
    rw [streamGetPeer_of_get found, peer]
  · intro handle isPppd
    obtain ⟨stream, found, peer⟩ := linked.pppd handle isPppd
    rw [streamGetPeer_of_get found, peer]

/-- A read that no side of a launch made leaves its streams as they are. -/
theorem isOpen_sslProcess_apart (sound : Sound server) {launch : Launch}
    (member : launch ∈ server.launches) {turned handle : Handle} {buffer : List UInt8}
    (opened : server.streams.isOpen turned = true)
    (apart : launch.client ≠ some turned ∧ launch.pppd ≠ some turned)
    (side : launch.client = some handle ∨ launch.pppd = some handle) :
    (sslProcess server turned buffer).streams.isOpen handle = server.streams.isOpen handle := by
  have linked := (sound.launches launch member).peer
  have different : handle ≠ turned := by
    rintro rfl
    exact side.elim apart.1 apart.2
  have unlinked : streamGetPeer server.streams turned ≠ some handle := by
    intro peer
    have back := (sound.paired opened peer).pppdPeer
    rcases side with isClient | isPppd
    · exact apart.2 ((linked.1 handle isClient).symm.trans back)
    · exact apart.1 ((linked.2 handle isPppd).symm.trans back)
  cases buffer with
  | nil => rw [isOpen_sslProcess_nil sound opened, if_neg (not_or_intro different unlinked)]
  | cons => rw [isOpen_sslProcess_cons sound opened, if_neg fun both => different both.1]

/-- A read of one side of a session. -/
theorem over_of_session (sound : Sound server) {turned other handle : Handle} {buffered : Bool}
    {buffer : List UInt8} (opened : server.streams.isOpen turned = true)
    (peer : streamGetPeer server.streams turned = some other) (side : handle = turned ∨ handle = other)
    (before : (ended events turned || ended events other) = false) :
    (sslProcess server turned buffer).streams.isOpen handle =
      !(ended (events ++ [.ready turned buffered (.bytes buffer)]) turned ||
        ended (events ++ [.ready turned buffered (.bytes buffer)]) other) := by
  have paired := sound.paired opened peer
  have different : turned ≠ other := by
    rintro rfl
    obtain ⟨stream, found, linked⟩ := Option.bind_eq_some_iff.mp peer
    obtain ⟨-, -, -, apart, -⟩ := sound.coupled.pair turned stream found turned linked
    exact apart rfl
  have isOpen' : server.streams.isOpen handle = true := by
    rcases side with rfl | rfl
    · exact opened
    · exact paired.pppdOpen
  rw [Bool.or_eq_false_iff] at before
  have endedLater : (ended (events ++ [.ready turned buffered (.bytes buffer)]) turned ||
      ended (events ++ [.ready turned buffered (.bytes buffer)]) other) = (buffer == []) := by
    unfold ended at before ⊢
    rw [reads_bytes, reads_bytes, if_pos rfl, if_neg different, List.append_nil, before.2,
      Bool.or_false, List.contains_append, before.1, Bool.false_or]
    cases buffer <;> rfl
  rw [endedLater]
  cases buffer with
  | nil =>
      rw [isOpen_sslProcess_nil sound opened, if_pos]
      · rfl
      · exact side.imp_right fun same => by rw [same, peer]
  | cons =>
      rw [isOpen_sslProcess_cons sound opened, if_neg, isOpen']
      · rfl
      · rintro ⟨-, alone⟩
        rw [peer] at alone
        cases alone

theorem over_of_half (sound : Sound server) {turned : Handle} {buffer : List UInt8}
    (opened : server.streams.isOpen turned = true)
    (alone : streamGetPeer server.streams turned = none) :
    (sslProcess server turned buffer).streams.isOpen turned = false := by
  cases buffer with
  | nil => rw [isOpen_sslProcess_nil sound opened, if_pos (.inl rfl)]
  | cons => rw [isOpen_sslProcess_cons sound opened, if_pos ⟨rfl, alone⟩]

/-- A session is over after a read exactly if its streams are closed. -/
theorem Chronicle.over_read (chronicle : Chronicle policy listening events server)
    {turned handle : Handle} {buffered : Bool} {buffer : List UInt8}
    (opened : server.streams.isOpen turned = true) {launch : Launch}
    (member : launch ∈ server.launches)
    (side : launch.client = some handle ∨ launch.pppd = some handle) :
    (sslProcess server turned buffer).streams.isOpen handle =
      !sessionOver (events ++ [.ready turned buffered (.bytes buffer)]) launch.client launch.pppd := by
  have linked := (chronicle.sound.launches launch member).peer
  have finished := chronicle.finished launch member
  have readNow : reads (events ++ [.ready turned buffered (.bytes buffer)]) turned =
      reads events turned ++ [buffer] := by rw [reads_bytes, if_pos rfl]
  by_cases isClient : launch.client = some turned
  · have peer := linked.1 turned isClient
    have running := finished turned (.inl isClient)
    rw [opened, isClient] at running
    rw [isClient] at side ⊢
    cases isPppd : launch.pppd with
    | none =>
        rw [isPppd] at peer side
        obtain rfl : turned = handle := side.elim Option.some.inj (fun none => by cases none)
        rw [over_of_half chronicle.sound opened peer, sessionOver, readNow]
        simp
    | some p =>
        rw [isPppd] at peer side running
        exact over_of_session chronicle.sound opened peer
          (side.imp (fun same => (Option.some.inj same).symm) fun same => (Option.some.inj same).symm)
          (by simpa [sessionOver] using running)
  by_cases isPppd : launch.pppd = some turned
  · have peer := linked.2 turned isPppd
    have running := finished turned (.inr isPppd)
    rw [opened, isPppd] at running
    rw [isPppd] at side ⊢
    cases isClient : launch.client with
    | none =>
        rw [isClient] at peer side
        obtain rfl : turned = handle := side.elim (fun none => by cases none) Option.some.inj
        rw [over_of_half chronicle.sound opened peer, sessionOver, readNow]
        simp
    | some c =>
        rw [isClient] at peer side running
        rw [sessionOver, Bool.or_comm]
        exact over_of_session chronicle.sound opened peer
          (side.symm.imp (fun same => (Option.some.inj same).symm)
            fun same => (Option.some.inj same).symm)
          (by rw [Bool.or_comm]; simpa [sessionOver] using running)
  · have apart : ∀ handle, launch.client = some handle ∨ launch.pppd = some handle →
        turned ≠ handle := by
      rintro handle side rfl
      exact side.elim isClient isPppd
    rw [isOpen_sslProcess_apart chronicle.sound member opened ⟨isClient, isPppd⟩ side,
      finished handle side, sessionOver_congr fun handle side => ?_]
    rw [reads_bytes, if_neg (apart handle side), List.append_nil]

/-- A stream has its turn. -/
theorem Chronicle.read {connections : List (Option Handle)} {turned : Handle} {buffered : Bool}
    (chronicle : Chronicle policy listening events server) (buffer : List UInt8)
    (rotated : Sound { server with connections }) (opened : server.streams.isOpen turned = true)
    (notListener : server.listener ≠ some turned) :
    Chronicle policy listening (events ++ [.ready turned buffered (.bytes buffer)])
      (sslProcess { server with connections } turned buffer) := by
  obtain ⟨sound, extension⟩ := @sslProcess_sound { server with connections } turned buffer rotated
    opened notListener
  obtain ⟨free, received⟩ := @sslProcess_streams { server with connections } turned buffer opened
  obtain ⟨sameLaunches, sameRefused⟩ := @sslProcess_records { server with connections } turned buffer
  have sameVisits : visits policy listening (events ++ [.ready turned buffered (.bytes buffer)]) =
      visits policy listening events := by
    rw [visits_append]
    exact List.append_nil _
  have unreadStill : ∀ handle, turned ≠ handle → reads events handle = [] →
      reads (events ++ [.ready turned buffered (.bytes buffer)]) handle = [] := by
    intro handle different unread
    rw [reads_bytes, unread, if_neg different, List.append_nil]
  obtain ⟨stream, found, isOpen'⟩ := isOpen_iff.mp opened
  refine ⟨sound, ?_, ?_, ?_, fun handle => ?_, fun handle absent => ?_, fun handle member => ?_,
    fun launch member handle side => ?_⟩
  · rw [free, freeAfter_append, ← chronicle.free]
    rfl
  · rw [sameLaunches, sameVisits, ← chronicle.launches]
  · rw [sameRefused, sameVisits, ← chronicle.refused]
  · rw [received, delivered, reads_bytes, List.flatten_append]
    congr 1
    · exact chronicle.received handle
    · split <;> simp
  · have still : ∀ stream, server.streams.get handle ≠ some stream := by
      intro stream present
      obtain ⟨later, foundLater, -⟩ := extension handle stream present
      rw [absent] at foundLater
      cases foundLater
    refine unreadStill handle ?_ (chronicle.unread handle (Option.eq_none_iff_forall_ne_some.mpr still))
    rintro rfl
    exact still stream found
  · rw [sameRefused] at member
    refine unreadStill handle ?_ (chronicle.unreadRefused handle member)
    rintro rfl
    rw [chronicle.sound.refused turned member] at found
    rw [← Option.some.inj found] at isOpen'
    cases isOpen'
  · rw [sameLaunches] at member
    exact @Chronicle.over_read policy listening events { server with connections }
      ⟨rotated, chronicle.free, chronicle.launches, chronicle.refused, chronicle.received,
        chronicle.unread, chronicle.unreadRefused, chronicle.finished⟩ turned handle buffered buffer
      opened launch member side

theorem serverStep_chronicle {event : Event}
    (stepped : serverStep policy server event = some next)
    (chronicle : Chronicle policy listening events server) :
    Chronicle policy listening (events ++ [event]) next := by
  rcases serverStep_cases stepped with ⟨rfl, rfl⟩ | ⟨turned, buffered, connections, selected, turn⟩
  · exact chronicle.idle
  obtain ⟨opened, rotated⟩ := chronicle.sound.selected selected
  rcases turn with ⟨arrival, rfl, -, rfl⟩ | ⟨buffer, rfl, notListener, -, rfl⟩
  · exact chronicle.accept arrival rotated
  · exact chronicle.read buffer rotated opened notListener

theorem startServer_chronicle (policy : Policy) (listening : Bool) :
    Chronicle policy listening [] (startServer listening) := by
  refine ⟨startServer_sound listening, ?_, rfl, rfl, fun handle => ?_, fun _ _ => rfl,
    fun _ _ => rfl, fun launch member => by cases member⟩
  · cases listening <;> rfl
  · exact receivedFrom_open listening handle

theorem run_chronicle (events : List Event)
    (taken : run (serverStep policy) (startServer listening) events = some next) :
    Chronicle policy listening events next :=
  run_history (startServer_chronicle policy listening)
    (fun _ _ _ _ stepped chronicle => serverStep_chronicle stepped chronicle) events taken

theorem Chronicle.launch (chronicle : Chronicle policy listening events server) {visit : Visit}
    (came : visit ∈ visits policy listening events) (admitted : visit.admitted policy = true) :
    ∃ launch ∈ server.launches, launch.client = visit.client ∧ launch.pppd = visit.pppd policy := by
  have pair : (visit.client, visit.pppd policy) ∈
      server.launches.map fun launch => (launch.client, launch.pppd) := by
    rw [chronicle.launches]
    exact List.mem_map.mpr ⟨visit, List.mem_filter.mpr ⟨came, admitted⟩, rfl⟩
  obtain ⟨launch, member, same⟩ := List.mem_map.mp pair
  exact ⟨launch, member, Prod.mk.inj same⟩

theorem Chronicle.mem_refused (chronicle : Chronicle policy listening events server) {visit : Visit}
    (came : visit ∈ visits policy listening events) (refused : visit.admitted policy = false)
    {handle : Handle} (isClient : visit.client = some handle) : handle ∈ server.refused := by
  rw [chronicle.refused]
  refine List.mem_flatMap.mpr ⟨visit, List.mem_filter.mpr ⟨came, by simp [refused]⟩, ?_⟩
  simp [isClient]

theorem Chronicle.received_of_get (chronicle : Chronicle policy listening events server)
    {handle : Handle} {stream : Channel UInt8} (found : server.streams.get handle = some stream) :
    stream.received = delivered events handle := by
  rw [← chronicle.received handle, receivedFrom, found]
  rfl

/-- What a side of an admitted visit is. -/
theorem Chronicle.relayed (chronicle : Chronicle policy listening events server) {visit : Visit}
    (came : visit ∈ visits policy listening events) (admitted : visit.admitted policy = true)
    {side : Handle} {other : Option Handle} (isSide : visit.Side policy side other) :
    server.streams.get side = some
      { isOpen := !visit.finished policy events, peer := other, received := delivered events side
        sent := (other.map (delivered events)).getD [] } := by
  obtain ⟨launch, member, sameClient, samePppd⟩ := chronicle.launch came admitted
  have linked := chronicle.sound.launches launch member
  have isOpen' := chronicle.finished launch member side (by
    rw [sameClient, samePppd]
    exact isSide.imp And.left And.left)
  rw [sameClient, samePppd] at isOpen'
  obtain ⟨stream, found, peer⟩ : ∃ stream, server.streams.get side = some stream ∧
      stream.peer = other := by
    rcases isSide with ⟨isClient, rfl⟩ | ⟨isPppd, rfl⟩
    · rw [← samePppd]
      exact linked.client side (sameClient.trans isClient)
    · rw [← sameClient]
      exact linked.pppd side (samePppd.trans isPppd)
  have sent : stream.sent = (other.map (delivered events)).getD [] := by
    cases other with
    | none => exact chronicle.sound.coupled.single side stream found peer
    | some across =>
        obtain ⟨opposite, foundOther, -, -, -, written⟩ :=
          chronicle.sound.coupled.pair side stream found across peer
        exact written.trans (chronicle.received_of_get foundOther)
  rw [isOpen_of_get found] at isOpen'
  rw [found, ← sent, ← peer, ← chronicle.received_of_get found, Visit.finished, ← isOpen']

theorem Chronicle.isolated (chronicle : Chronicle policy listening events server) :
    Isolated policy listening events server where
  noFault := chronicle.sound.coupled.noFault
  relayed := by
    intro visit came admitted side other isSide
    have found := chronicle.relayed came admitted isSide
    refine ⟨found, ?_⟩
    rw [chronicle.sound.listed.mem_iff, isOpen_of_get found]
    simp
  refused := by
    intro visit came refused side isClient
    have member := chronicle.mem_refused came refused isClient
    have found := chronicle.sound.refused side member
    refine ⟨found, ?_, chronicle.unreadRefused side member⟩
    rw [chronicle.sound.listed.mem_iff, isOpen_of_get found]
    simp
  others := by
    intro handle stream found
    rcases chronicle.sound.accounted handle (by simp [found]) with
      isListener | refused | ⟨launch, member, side⟩
    · have idle := chronicle.sound.listener handle isListener
      exact .inl ⟨isListener, Option.some.inj (found.symm.trans idle)⟩
    · rw [chronicle.refused] at refused
      obtain ⟨visit, came, isClient⟩ := List.mem_flatMap.mp refused
      exact .inr ⟨visit, (List.mem_filter.mp came).1, .inl (by simpa using isClient)⟩
    · have pair : (launch.client, launch.pppd) ∈
          server.launches.map fun launch => (launch.client, launch.pppd) := List.mem_map_of_mem member
      rw [chronicle.launches] at pair
      obtain ⟨visit, came, same⟩ := List.mem_map.mp pair
      obtain ⟨sameClient, samePppd⟩ := Prod.mk.inj same
      refine .inr ⟨visit, (List.mem_filter.mp came).1, ?_⟩
      rw [sameClient, samePppd]
      exact side

theorem not_ready_of_closed {final : SslServer} (sound : Sound server) {side : Handle}
    {stream : Channel UInt8} (found : server.streams.get side = some stream)
    (closed : stream.isOpen = false) (after : List Event)
    (taken : run (serverStep policy) server after = some final) (buffered : Bool) (input : Input) :
    Event.ready side buffered input ∉ after := by
  intro member
  obtain ⟨front, behind, rfl⟩ := List.append_of_mem member
  obtain ⟨here, next, reached, stepped, -⟩ := run_split taken
  obtain ⟨soundHere, extension⟩ := run_sound front reached sound
  obtain ⟨later, foundLater, -, untouched⟩ := extension side stream found
  obtain ⟨connections, selected, -⟩ := Option.bind_eq_some_iff.mp stepped
  obtain ⟨opened, -⟩ := soundHere.selected selected
  rw [isOpen_of_get foundLater, untouched closed, closed] at opened
  cases opened

end Steps

/-- In every run of the loop the sessions stay isolated, and the streams of one
that is over, or of a refused client, have no turn any more. -/
theorem sslServer_isolates {policy : Policy} {final : SslServer} (listening : Bool)
    (events : List Event)
    (taken : run (serverStep policy) (startServer listening) events = some final) :
    Isolated policy listening events final ∧
      ∀ before after, events = before ++ after → ∀ visit ∈ visits policy listening before,
        (visit.admitted policy = true → visit.finished policy before = true) →
        ∀ side, visit.client = some side ∨ visit.pppd policy = some side →
          ∀ buffered input, Event.ready side buffered input ∉ after := by
  refine ⟨(run_chronicle events taken).isolated, ?_⟩
  rintro before after rfl visit came finished side isSide buffered input
  rw [run_append] at taken
  obtain ⟨middle, reached, continued⟩ := Option.bind_eq_some_iff.mp taken
  have chronicle := run_chronicle before reached
  by_cases admitted : visit.admitted policy = true
  · have closed : ∃ stream, middle.streams.get side = some stream ∧ stream.isOpen = false := by
      have isOver := finished admitted
      rcases isSide with isClient | isPppd
      · exact ⟨_, chronicle.relayed came admitted (.inl ⟨isClient, rfl⟩), by simp [isOver]⟩
      · exact ⟨_, chronicle.relayed came admitted (.inr ⟨isPppd, rfl⟩), by simp [isOver]⟩
    obtain ⟨stream, found, isClosed⟩ := closed
    exact not_ready_of_closed chronicle.sound found isClosed after continued buffered input
  · have refused := Bool.eq_false_iff.mpr admitted
    have isClient : visit.client = some side := by
      refine isSide.resolve_right fun isPppd => ?_
      simp [Visit.pppd, refused] at isPppd
    have found := chronicle.sound.refused side (chronicle.mem_refused came refused isClient)
    exact not_ready_of_closed chronicle.sound found rfl after continued buffered input

/-- A client is relayed both ways and hangs up, then another one comes. -/
theorem sslServer_isolates_session :
    let before : List Event :=
      [.ready 0 false (.arrival { client := some noClient, table := quietTable, pppd := true }),
        .ready 1 false (.bytes [1, 2]), .ready 2 false (.bytes [3]), .ready 1 false (.bytes [])]
    let after : List Event :=
      [.ready 0 false (.arrival { client := some noClient, table := quietTable, pppd := false }),
        .idle, .ready 3 true (.bytes [4])]
    ∃ final, run (serverStep openPolicy) (startServer true) (before ++ after) = some final ∧
      Isolated openPolicy true (before ++ after) final ∧
      final.streams.get 2 = some
        { isOpen := false, peer := some 1, received := [3], sent := [1, 2] } ∧
      ∀ buffered input, Event.ready 2 buffered input ∉ after := by
  intro before after
  obtain ⟨final, taken⟩ := Option.isSome_iff_exists.mp (show (run (serverStep openPolicy)
    (startServer true) (before ++ after)).isSome = true by decide)
  obtain ⟨isolated, unread⟩ := sslServer_isolates true (before ++ after) taken
  let visit : Visit :=
    ⟨{ client := some noClient, table := quietTable, pppd := true }, 1⟩
  have came : visit ∈ visits openPolicy true before := List.mem_singleton.mpr rfl
  have cameLater : visit ∈ visits openPolicy true (before ++ after) := List.mem_cons_self
  refine ⟨final, taken, isolated, ?_, ?_⟩
  · rw [(isolated.relayed visit cameLater (by decide) 2 (some 1)
      (.inr ⟨by decide, by decide⟩)).1]
    decide
  · exact unread before after rfl visit came (fun _ => by decide) 2 (.inr (by decide))

end VpnMgr.Server
