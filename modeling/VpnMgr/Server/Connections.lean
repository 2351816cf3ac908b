import VpnMgr.Server.Relay

/-!
# The connections of the server

An invariant of the connection list and the `Peer` links, which every turn of
the loop keeps.
-/

namespace VpnMgr.Server

open Machine Text CString LibUseful Channels

/-- The list holds each open stream once, and no closed one. -/
def Listed (connections : List (Option Handle)) (isOpen : Handle → Bool) : Prop :=
  ∀ handle, connections.count (some handle) = if isOpen handle then 1 else 0

section Listed

variable {connections rotated : List (Option Handle)} {isOpen : Handle → Bool} {handle : Handle}

theorem Listed.mem_iff (listed : Listed connections isOpen) :
    some handle ∈ connections ↔ isOpen handle = true := by
  rw [← List.count_pos_iff, listed handle]
  cases isOpen handle <;> simp

theorem Listed.select {buffered : Bool} (listed : Listed connections isOpen)
    (selected : streamSelect connections handle buffered = some rotated) :
    isOpen handle = true ∧ Listed rotated isOpen := by
  unfold streamSelect at selected
  split at selected
  next member =>
    obtain rfl := Option.some.inj selected
    refine ⟨listed.mem_iff.mp member, ?_⟩
    split
    next => exact listed
    next =>
      intro other
      have once := listed handle
      rw [listed.mem_iff.mp member, if_pos rfl] at once
      rw [List.count_append, List.count_erase, listed other]
      by_cases same : handle = other
      · subst same
        simp [listed.mem_iff.mp member]
      · simp [same]
  next => exact absurd selected (by simp)

theorem Listed.delete (listed : Listed connections isOpen) (handle : Handle) :
    Listed (listDeleteItem connections (some handle))
      (fun other => if other = handle then false else isOpen other) := by
  intro other
  rw [listDeleteItem, List.count_erase, listed other]
  by_cases same : other = handle
  · subst same
    cases isOpen other <;> simp
  · simp [same, Ne.symm same]

theorem Listed.add {item : Option Handle} (listed : Listed connections isOpen)
    (closed : ∀ handle, item = some handle → isOpen handle = false) :
    Listed (connections ++ [item])
      (fun other => if item = some other then true else isOpen other) := by
  intro other
  rw [List.count_append, listed other]
  by_cases same : item = some other
  · simp [same, closed other same]
  · simp [same]

end Listed

/-- The streams of a launch are each other's peers. -/
structure Launch.Linked (launch : Launch) (streams : Channels UInt8) : Prop where
  client : ∀ handle, launch.client = some handle →
    ∃ stream, streams.get handle = some stream ∧ stream.peer = launch.pppd
  pppd : ∀ handle, launch.pppd = some handle →
    ∃ stream, streams.get handle = some stream ∧ stream.peer = launch.client

theorem Launch.Linked.extends {launch : Launch} {streams after : Channels UInt8}
    (linked : launch.Linked streams) (extension : streams.Extends after) :
    launch.Linked after := by
  constructor
  · intro handle given
    obtain ⟨stream, found, peer⟩ := linked.client handle given
    obtain ⟨later, foundLater, samePeer, -⟩ := extension handle stream found
    exact ⟨later, foundLater, samePeer.trans peer⟩
  · intro handle given
    obtain ⟨stream, found, peer⟩ := linked.pppd handle given
    obtain ⟨later, foundLater, samePeer, -⟩ := extension handle stream found
    exact ⟨later, foundLater, samePeer.trans peer⟩

/-- Every stream is the listener, a refused client or one side of a launch. -/
def Accounted (server : SslServer) (handle : Handle) : Prop :=
  server.listener = some handle ∨ handle ∈ server.refused ∨
    ∃ launch ∈ server.launches, launch.client = some handle ∨ launch.pppd = some handle

structure Sound (server : SslServer) : Prop where
  coupled : server.streams.Coupled
  listed : Listed server.connections server.streams.isOpen
  listener : ∀ handle, server.listener = some handle → server.streams.get handle = some {}
  launches : ∀ launch ∈ server.launches, launch.Linked server.streams
  refused : ∀ handle ∈ server.refused, server.streams.get handle = some { isOpen := false }
  accounted : ∀ handle, server.streams.get handle ≠ none → Accounted server handle

variable {server next : SslServer}

/-- A turn that neither launches nor refuses anyone. -/
theorem Sound.of_extends (sound : Sound server) (coupled : next.streams.Coupled)
    (listed : Listed next.connections next.streams.isOpen)
    (extension : server.streams.Extends next.streams)
    (sameListener : next.listener = server.listener)
    (listenerKept : ∀ handle, server.listener = some handle →
      next.streams.get handle = server.streams.get handle)
    (noNew : ∀ handle, server.streams.get handle = none → next.streams.get handle = none)
    (sameLaunches : next.launches = server.launches)
    (sameRefused : next.refused = server.refused) : Sound next := by
  refine ⟨coupled, listed, fun handle given => ?_, fun launch member => ?_,
    fun handle member => ?_, fun handle present => ?_⟩
  · rw [sameListener] at given
    rw [listenerKept handle given, sound.listener handle given]
  · rw [sameLaunches] at member
    exact (sound.launches launch member).extends extension
  · rw [sameRefused] at member
    obtain ⟨later, found, -, untouched⟩ := extension handle _ (sound.refused handle member)
    rw [found, untouched rfl]
  · rw [Accounted, sameListener, sameRefused, sameLaunches]
    exact sound.accounted handle fun absent => present (noNew handle absent)

theorem Sound.ne_listener (sound : Sound server) {handle : Handle} {stream : Channel UInt8}
    {peer : Handle} (found : server.streams.get handle = some stream)
    (linked : stream.peer = some peer) : server.listener ≠ some handle := by
  intro given
  have idle := (sound.listener handle given).symm.trans found
  simp [← Option.some.inj idle] at linked

/-! ## A turn of the relay -/

section Process

variable {s peer : Handle} {stream opposite : Channel UInt8} {buffer : List UInt8}

/-- Bytes that were read go to the peer. -/
theorem Sound.relay (sound : Sound server) (found : server.streams.get s = some stream)
    (opened : stream.isOpen = true) (linked : stream.peer = some peer) :
    Sound { server with streams := (server.streams.receive s buffer).send peer buffer } ∧
      server.streams.Extends ((server.streams.receive s buffer).send peer buffer) := by
  obtain ⟨opposite, foundPeer, back, apart, sameOpen, written⟩ :=
    sound.coupled.pair s stream found peer linked
  obtain ⟨stream', foundStream', -, -, -, writtenBack⟩ :=
    sound.coupled.pair peer opposite foundPeer s back
  obtain rfl := Option.some.inj (found.symm.trans foundStream')
  have openedPeer : opposite.isOpen = true := sameOpen.trans opened
  have between : (server.streams.receive s buffer).get peer = some opposite := by
    rw [receive, get_edit found opened, if_neg apart, foundPeer]
  have extension : server.streams.Extends ((server.streams.receive s buffer).send peer buffer) :=
    (extends_edit found opened rfl).trans (extends_edit between openedPeer rfl)
  refine ⟨sound.of_extends ?_ ?_ extension rfl ?_
    (fun _ absent => get_edit_of_none (get_edit_of_none absent)) rfl rfl, extension⟩
  · exact sound.coupled.edit_pair found opened foundPeer openedPeer apart (.inr linked)
      (.inr back) linked back sameOpen written (by simp [writtenBack])
  · have sameOpenness : ((server.streams.receive s buffer).send peer buffer).isOpen =
        server.streams.isOpen := by
      funext other
      rw [send, isOpen_edit between openedPeer, receive, isOpen_edit found opened]
      split
      next same => rw [same, isOpen_of_get foundPeer]
      next =>
        split
        next same => rw [same, isOpen_of_get found]
        next => rfl
    exact sameOpenness ▸ sound.listed
  · intro handle given
    have notPeer : handle ≠ peer := fun same => sound.ne_listener foundPeer back (same ▸ given)
    have notSelf : handle ≠ s := fun same => sound.ne_listener found linked (same ▸ given)
    show ((server.streams.receive s buffer).send peer buffer).get handle = _
    rw [send, get_edit between openedPeer, if_neg notPeer, receive, get_edit found opened,
      if_neg notSelf]

/-- The end of one side closes both. -/
theorem Sound.shutdown_pair (sound : Sound server) (found : server.streams.get s = some stream)
    (opened : stream.isOpen = true) (linked : stream.peer = some peer) :
    Sound (sslShutdownConnection server s (some peer)) ∧
      server.streams.Extends (sslShutdownConnection server s (some peer)).streams := by
  obtain ⟨opposite, foundPeer, back, apart, sameOpen, written⟩ :=
    sound.coupled.pair s stream found peer linked
  obtain ⟨stream', foundStream', -, -, -, writtenBack⟩ :=
    sound.coupled.pair peer opposite foundPeer s back
  obtain rfl := Option.some.inj (found.symm.trans foundStream')
  have openedPeer : opposite.isOpen = true := sameOpen.trans opened
  have between : (server.streams.close peer).get s = some stream := by
    rw [close, get_edit foundPeer openedPeer, if_neg apart.symm, found]
  have extension : server.streams.Extends ((server.streams.close peer).close s) :=
    (extends_edit foundPeer openedPeer rfl).trans (extends_edit between opened rfl)
  refine ⟨sound.of_extends ?_ ?_ extension rfl ?_
    (fun _ absent => get_edit_of_none (get_edit_of_none absent)) rfl rfl, extension⟩
  · exact sound.coupled.edit_pair foundPeer openedPeer found opened apart.symm (.inr back)
      (.inr linked) back linked rfl writtenBack written
  · have openness : (sslShutdownConnection server s (some peer)).streams.isOpen =
        fun other => if other = peer then false
          else if other = s then false else server.streams.isOpen other := by
      funext other
      show ((server.streams.close peer).close s).isOpen other = _
      rw [close, isOpen_edit between opened, close, isOpen_edit foundPeer openedPeer]
      by_cases same : other = s <;> by_cases samePeer : other = peer <;> simp [same, samePeer]
    rw [openness]
    exact (sound.listed.delete s).delete peer
  · intro handle given
    have notPeer : handle ≠ peer := fun same => sound.ne_listener foundPeer back (same ▸ given)
    have notSelf : handle ≠ s := fun same => sound.ne_listener found linked (same ▸ given)
    show ((server.streams.close peer).close s).get handle = _
    rw [close, get_edit between opened, if_neg notSelf, close, get_edit foundPeer openedPeer,
      if_neg notPeer]

/-- A stream without peer is closed whatever was read from it. -/
theorem Sound.shutdown_single (sound : Sound server) (found : server.streams.get s = some stream)
    (opened : stream.isOpen = true) (alone : stream.peer = none)
    (notListener : server.listener ≠ some s) :
    let reading := { server with streams := server.streams.receive s buffer }
    Sound (sslShutdownConnection reading s none) ∧
      server.streams.Extends (sslShutdownConnection reading s none).streams := by
  intro reading
  have between : (server.streams.receive s buffer).get s =
      some { stream with received := stream.received ++ buffer } := by
    rw [receive, get_edit found opened, if_pos rfl]
  have extension : server.streams.Extends ((server.streams.receive s buffer).close s) :=
    (extends_edit found opened rfl).trans (extends_edit between opened rfl)
  refine ⟨sound.of_extends ?_ ?_ extension rfl ?_
    (fun _ absent => get_edit_of_none (get_edit_of_none absent)) rfl rfl, extension⟩
  · exact (sound.coupled.edit_single found opened alone alone rfl).edit_single between opened
      alone alone rfl
  · have openness : (sslShutdownConnection reading s none).streams.isOpen =
        fun other => if other = s then false else server.streams.isOpen other := by
      funext other
      show ((server.streams.receive s buffer).close s).isOpen other = _
      rw [close, isOpen_edit between opened, receive, isOpen_edit found opened]
      by_cases same : other = s <;> simp [same]
    rw [openness]
    exact sound.listed.delete s
  · intro handle given
    have notSelf : handle ≠ s := fun same => notListener (same ▸ given)
    show ((server.streams.receive s buffer).close s).get handle = _
    rw [close, get_edit between opened, if_neg notSelf, receive, get_edit found opened,
      if_neg notSelf]

theorem sslProcess_sound (sound : Sound server) (opened : server.streams.isOpen s = true)
    (notListener : server.listener ≠ some s) :
    Sound (sslProcess server s buffer) ∧
      server.streams.Extends (sslProcess server s buffer).streams := by
  obtain ⟨stream, found, open'⟩ := isOpen_iff.mp opened
  have ownPeer : streamGetPeer server.streams s = stream.peer := by
    rw [streamGetPeer, found, Option.bind_some]
  unfold sslProcess
  rw [ownPeer]
  cases linked : stream.peer with
  | none => exact sound.shutdown_single found open' linked notListener
  | some peer =>
      cases buffer with
      | nil =>
          dsimp only
          rw [receive_nil found open']
          exact sound.shutdown_pair found open' linked
      | cons byte rest => exact sound.relay found open' linked

end Process

/-! ## A turn of the accept branch -/

section Accept

variable {streams after : Channels UInt8}

/-- What a call that opens a stream, or fails, leaves. -/
structure Opened (streams after : Channels UInt8) (item : Option Handle) : Prop where
  coupled : after.Coupled
  extension : streams.Extends after
  new : ∀ handle, item = some handle → streams.get handle = none ∧ after.get handle = some {}
  old : ∀ handle, item ≠ some handle → after.get handle = streams.get handle

theorem streamOpen_opened (coupled : streams.Coupled) (succeeds : Bool) :
    Opened streams (streamOpen streams succeeds).2 (streamOpen streams succeeds).1 := by
  cases succeeds with
  | false => exact ⟨coupled, .refl _, by simp [streamOpen], fun _ _ => rfl⟩
  | true =>
      refine ⟨coupled.allocate, extends_allocate _, fun handle new => ?_, fun handle old => ?_⟩
      · obtain rfl := Option.some.inj new
        exact ⟨get_fresh streams, by simp [streamOpen, get_allocate]⟩
      · have different : handle ≠ streams.fresh := fun same => old (same ▸ rfl)
        simp [streamOpen, get_allocate, different]

/-- Two new streams become each other's peers; without one of them the other
stays alone. -/
theorem link_new {client pppd : Option Handle} (coupled : streams.Coupled)
    (newClient : ∀ handle, client = some handle → streams.get handle = some {})
    (newPppd : ∀ handle, pppd = some handle → streams.get handle = some {})
    (apart : ∀ handle, client = some handle → pppd ≠ some handle) :
    let linked := streamSetPeer (streamSetPeer streams pppd client) client pppd
    linked.Coupled ∧ ∀ other, linked.get other =
      if client = some other then some { peer := pppd }
      else if pppd = some other then some { peer := client }
      else streams.get other := by
  intro linked
  cases client with
  | none =>
      cases pppd with
      | none => exact ⟨coupled, fun _ => by simp [linked, streamSetPeer]⟩
      | some p =>
          have found := newPppd p rfl
          refine ⟨coupled.edit_single found rfl rfl rfl rfl, fun other => ?_⟩
          show (streams.link p none).get other = _
          rw [link, get_edit found rfl]
          by_cases same : other = p
          · simp [same]
          · simp [same, Ne.symm same]
  | some c =>
      have foundClient := newClient c rfl
      cases pppd with
      | none =>
          refine ⟨coupled.edit_single foundClient rfl rfl rfl rfl, fun other => ?_⟩
          show (streams.link c none).get other = _
          rw [link, get_edit foundClient rfl]
          by_cases same : other = c
          · simp [same]
          · simp [same, Ne.symm same]
      | some p =>
          have found := newPppd p rfl
          have different : c ≠ p := fun same => apart c rfl (same ▸ rfl)
          refine ⟨coupled.edit_pair found rfl foundClient rfl different (.inl rfl) (.inl rfl)
            rfl rfl rfl rfl rfl, fun other => ?_⟩
          show ((streams.link p (some c)).link c (some p)).get other = _
          rw [link, link, get_edit_edit found rfl foundClient rfl different]
          by_cases same : other = c
          · simp [same]
          · by_cases samePppd : other = p
            · simp [samePppd, different, Ne.symm different]
            · simp [same, Ne.symm same, samePppd, Ne.symm samePppd]

/-- Two streams that are opened one after the other and linked. -/
theorem link_opened {client pppd : Option Handle} {middle opened : Channels UInt8}
    (clientOpened : Opened streams middle client) (pppdOpened : Opened middle opened pppd) :
    let linked := streamSetPeer (streamSetPeer opened pppd client) client pppd
    linked.Coupled ∧ (∀ handle, client = some handle → pppd ≠ some handle) ∧
      (∀ handle, client = some handle ∨ pppd = some handle → streams.get handle = none) ∧
      ∀ other, linked.get other =
        if client = some other then some { peer := pppd }
        else if pppd = some other then some { peer := client }
        else streams.get other := by
  intro linked
  have apart : ∀ handle, client = some handle → pppd ≠ some handle := by
    intro handle isClient isPppd
    have absent := (pppdOpened.new handle isPppd).1
    simp [(clientOpened.new handle isClient).2] at absent
  have newClient : ∀ handle, client = some handle → opened.get handle = some {} := by
    intro handle isClient
    rw [pppdOpened.old handle (apart handle isClient), (clientOpened.new handle isClient).2]
  obtain ⟨coupled, shape⟩ := link_new pppdOpened.coupled newClient
    (fun handle isPppd => (pppdOpened.new handle isPppd).2) apart
  refine ⟨coupled, apart, ?_, fun other => (shape other).trans ?_⟩
  · rintro handle (isClient | isPppd)
    · exact (clientOpened.new handle isClient).1
    · have notClient : client ≠ some handle := fun isClient => apart handle isClient isPppd
      rw [← clientOpened.old handle notClient, (pppdOpened.new handle isPppd).1]
  · by_cases isClient : client = some other
    · simp [isClient]
    by_cases isPppd : pppd = some other
    · simp [isClient, isPppd]
    · rw [if_neg isClient, if_neg isPppd, if_neg isClient, if_neg isPppd,
        pppdOpened.old other isPppd, clientOpened.old other isClient]

/-- A client that passes is linked with the pppd launched for it. -/
theorem Sound.accept (sound : Sound server) {client pppd : Option Handle}
    {middle opened : Channels UInt8} {remoteAddress : CString}
    (clientOpened : Opened server.streams middle client) (pppdOpened : Opened middle opened pppd) :
    let linked := streamSetPeer (streamSetPeer opened pppd client) client pppd
    Sound { server with
        connections := server.connections ++ [pppd] ++ [client], streams := linked
        launches := server.launches ++ [{ client, pppd, remoteAddress }] } ∧
      (∀ handle stream, server.streams.get handle = some stream →
        linked.get handle = some stream) ∧
      ∀ handle, client = some handle ∨ pppd = some handle →
        server.streams.get handle = none ∧ linked.isOpen handle = true := by
  intro linked
  obtain ⟨coupled, apart, absent, shape⟩ := link_opened clientOpened pppdOpened
  have kept : ∀ handle stream, server.streams.get handle = some stream →
      linked.get handle = some stream := by
    intro handle stream found
    have notClient : client ≠ some handle := fun isClient => by
      simp [absent handle (.inl isClient)] at found
    have notPppd : pppd ≠ some handle := fun isPppd => by
      simp [absent handle (.inr isPppd)] at found
    rw [shape, if_neg notClient, if_neg notPppd, found]
  have openness : linked.isOpen = fun other => if client = some other then true
      else if pppd = some other then true else server.streams.isOpen other := by
    funext other
    rw [isOpen, shape]
    by_cases isClient : client = some other
    · simp [isClient]
    by_cases isPppd : pppd = some other
    · simp [isClient, isPppd]
    · rw [if_neg isClient, if_neg isPppd, if_neg isClient, if_neg isPppd, isOpen]
  refine ⟨⟨coupled, ?_, ?_, ?_, ?_, ?_⟩, kept, fun handle side => ⟨absent handle side, ?_⟩⟩
  · show Listed _ linked.isOpen
    rw [openness]
    refine (sound.listed.add fun handle isPppd => ?_).add fun handle isClient => ?_
    · simp [isOpen, absent handle (.inr isPppd)]
    · simp [isOpen, absent handle (.inl isClient), apart handle isClient]
  · intro handle given
    exact kept handle {} (sound.listener handle given)
  · intro launch member
    rcases List.mem_append.mp member with before | last
    · exact (sound.launches launch before).extends (.of_get kept)
    · obtain rfl := List.mem_singleton.mp last
      refine ⟨fun handle isClient => ⟨{ peer := pppd }, ?_, rfl⟩, fun handle isPppd =>
        ⟨{ peer := client }, ?_, rfl⟩⟩
      · rw [shape, if_pos isClient]
      · rw [shape, if_neg fun isClient => apart handle isClient isPppd, if_pos isPppd]
  · intro handle member
    exact kept handle _ (sound.refused handle member)
  · intro handle present
    by_cases isClient : client = some handle
    · exact .inr (.inr ⟨_, List.mem_append_right _ List.mem_cons_self, .inl isClient⟩)
    by_cases isPppd : pppd = some handle
    · exact .inr (.inr ⟨_, List.mem_append_right _ List.mem_cons_self, .inr isPppd⟩)
    rw [shape, if_neg isClient, if_neg isPppd] at present
    rcases sound.accounted handle present with listener | refused | ⟨launch, member, side⟩
    · exact .inl listener
    · exact .inr (.inl refused)
    · exact .inr (.inr ⟨launch, List.mem_append_left _ member, side⟩)
  · rcases side with isClient | isPppd
    · simp [openness, isClient]
    · simp [openness, isPppd]

/-- A client that does not pass is closed and never listed. -/
theorem Sound.refuse (sound : Sound server) {client : Option Handle} {opened : Channels UInt8}
    (clientOpened : Opened server.streams opened client) :
    Sound { server with
        streams := streamClose opened client, refused := server.refused ++ client.toList } ∧
      ∀ handle stream, server.streams.get handle = some stream →
        (streamClose opened client).get handle = some stream := by
  cases client with
  | none =>
      have same : ∀ handle, opened.get handle = server.streams.get handle :=
        fun handle => clientOpened.old handle (by simp)
      have openness : opened.isOpen = server.streams.isOpen := by
        funext other
        rw [isOpen, same, isOpen]
      refine ⟨sound.of_extends clientOpened.coupled ?_ clientOpened.extension rfl
        (fun handle _ => same handle) (fun handle absent => (same handle).trans absent) rfl
        (by simp), fun handle stream found => (same handle).trans found⟩
      exact openness ▸ sound.listed
  | some c =>
      obtain ⟨absent, found⟩ := clientOpened.new c rfl
      have closed : ∀ handle stream, server.streams.get handle = some stream →
          (opened.close c).get handle = some stream := by
        intro handle stream present
        have different : handle ≠ c := by
          rintro rfl
          simp [absent] at present
        rw [close, get_edit found rfl, if_neg different,
          clientOpened.old handle (fun same => different (Option.some.inj same).symm), present]
      have extension : server.streams.Extends (opened.close c) := .of_get closed
      refine ⟨⟨clientOpened.coupled.edit_single found rfl rfl rfl rfl, ?_, ?_, ?_, ?_, ?_⟩,
        closed⟩
      · have openness : (opened.close c).isOpen = server.streams.isOpen := by
          funext other
          rw [close, isOpen_edit found rfl]
          by_cases same : other = c
          · simp [same, isOpen, absent]
          · rw [if_neg same, isOpen,
              clientOpened.old other (fun equal => same (Option.some.inj equal).symm), isOpen]
        show Listed server.connections (opened.close c).isOpen
        exact openness ▸ sound.listed
      · exact fun handle given => closed handle {} (sound.listener handle given)
      · exact fun launch member => (sound.launches launch member).extends extension
      · intro handle member
        rcases List.mem_append.mp member with before | last
        · exact closed handle _ (sound.refused handle before)
        · obtain rfl : handle = c := by simpa using last
          show (opened.close handle).get handle = _
          rw [close, get_edit found rfl, if_pos rfl]
      · intro handle present
        by_cases same : some c = some handle
        · exact .inr (.inl (by simp [← Option.some.inj same]))
        have before : server.streams.get handle ≠ none := by
          rw [← clientOpened.old handle same]
          exact fun absent => present (get_edit_of_none absent)
        rcases sound.accounted handle before with listener | refused | launched
        · exact .inl listener
        · exact .inr (.inl (List.mem_append_left _ refused))
        · exact .inr (.inr launched)

theorem sslAcceptClient_sound (policy : Policy) (arrival : Arrival) (sound : Sound server) :
    Sound (sslAcceptClient policy server arrival) ∧
      ∀ handle stream, server.streams.get handle = some stream →
        (sslAcceptClient policy server arrival).streams.get handle = some stream := by
  have clientOpened := streamOpen_opened sound.coupled arrival.client.isSome
  unfold sslAcceptClient
  dsimp only
  split
  next =>
    obtain ⟨sound', kept, -⟩ := sound.accept clientOpened
      (streamOpen_opened clientOpened.coupled arrival.pppd)
    exact ⟨sound', kept⟩
  next => exact sound.refuse clientOpened

end Accept

variable {policy : Policy}

theorem Sound.selected {handle : Handle} {buffered : Bool} {connections : List (Option Handle)}
    (sound : Sound server)
    (selected : streamSelect server.connections handle buffered = some connections) :
    server.streams.isOpen handle = true ∧ Sound { server with connections } := by
  obtain ⟨opened, listed⟩ := sound.listed.select selected
  exact ⟨opened, sound.coupled, listed, sound.listener, sound.launches, sound.refused,
    sound.accounted⟩

theorem serverStep_sound {event : Event} (stepped : serverStep policy server event = some next)
    (sound : Sound server) : Sound next ∧ server.streams.Extends next.streams := by
  rcases serverStep_cases stepped with ⟨-, rfl⟩ | ⟨handle, buffered, connections, selected, turn⟩
  · exact ⟨sound, .refl _⟩
  obtain ⟨opened, turned⟩ := sound.selected selected
  rcases turn with ⟨arrival, -, -, rfl⟩ | ⟨buffer, -, notListener, -, rfl⟩
  · obtain ⟨sound', kept⟩ := sslAcceptClient_sound policy arrival turned
    exact ⟨sound', .of_get kept⟩
  · exact sslProcess_sound turned opened notListener

theorem run_sound (events : List Event) (taken : run (serverStep policy) server events = some next)
    (sound : Sound server) : Sound next ∧ server.streams.Extends next.streams := by
  induction events generalizing server with
  | nil =>
      obtain rfl := Option.some.inj taken
      exact ⟨sound, .refl _⟩
  | cons event rest inductionHypothesis =>
      obtain ⟨middle, stepped, remaining⟩ := run_cons taken
      obtain ⟨soundMiddle, first⟩ := serverStep_sound stepped sound
      obtain ⟨soundNext, second⟩ := inductionHypothesis remaining soundMiddle
      exact ⟨soundNext, first.trans second⟩

theorem startServer_sound (listening : Bool) : Sound (startServer listening) := by
  have opened := streamOpen_opened (coupled_empty : Coupled ({} : Channels UInt8)) listening
  have empty : Listed [] (({} : Channels UInt8).isOpen) := fun _ => rfl
  have openness : (startServer listening).streams.isOpen = fun other =>
      if (startServer listening).listener = some other then true
      else ({} : Channels UInt8).isOpen other := by
    funext other
    by_cases isListener : (startServer listening).listener = some other
    · rw [if_pos isListener]
      exact congrArg (Option.any Channel.isOpen) (opened.new other isListener).2
    · rw [if_neg isListener]
      exact congrArg (Option.any Channel.isOpen) (opened.old other isListener)
  refine ⟨opened.coupled, ?_, fun handle given => (opened.new handle given).2,
    fun _ member => absurd member List.not_mem_nil, fun _ member => absurd member List.not_mem_nil,
    fun handle present => .inl ?_⟩
  · rw [openness]
    exact empty.add fun _ _ => rfl
  · by_contra notListener
    exact present (opened.old handle notListener)

end VpnMgr.Server
