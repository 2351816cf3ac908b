import VpnMgr.Server.Connections

/-!
# Addresses of the server's clients

`NetDevFindNextIP` looks for an address that no local interface has, while the
addresses it gave away are those of the far ends.
-/

namespace VpnMgr.Server

open Machine Text CString LibUseful Channels

/-- No two connected clients were given one address. -/
def AddressesDistinct (server : SslServer) : Prop :=
  ∀ first ∈ server.launches, ∀ second ∈ server.launches, ∀ c d,
    first.client = some c → second.client = some d → c ≠ d →
      server.streams.isOpen c = true → server.streams.isOpen d = true →
        first.remoteAddress ≠ [] → first.remoteAddress ≠ second.remoteAddress

/-- The search for an address does not stop at this one: an interface has it,
or a lower one is free. -/
def PassedOver (devs : List Device) (address : CString) : Prop :=
  devsIPExists devs address = true ∨
    ∃ lower count, 2 ≤ lower ∧ lower < count ∧ address = hostAddress "172.16.0".toList count ∧
      devsIPExists devs (hostAddress "172.16.0".toList lower) = false

/-- A client that is let in while the search passes over every address that a
connected client holds. -/
def Unclaimed (policy : Policy) (server : SslServer) : Event → Prop
  | .ready _ _ (.arrival arrival) =>
      arrival.client.isSome = true →
        sslAuth policy.passwd policy.serverAuth (arrival.client.getD noClient) = true →
          ∀ launch ∈ server.launches, ∀ handle, launch.client = some handle →
            server.streams.isOpen handle = true → launch.remoteAddress ≠ [] →
              PassedOver (netLoadDevices arrival.table) launch.remoteAddress
  | _ => True

def Numbered (server : SslServer) : Prop :=
  ∀ launch ∈ server.launches, launch.remoteAddress = [] ∨
    ∃ count, 2 ≤ count ∧ count < 255 ∧
      launch.remoteAddress = hostAddress "172.16.0".toList count

theorem hostAddress_injective {stem : CString} {m n : Nat}
    (same : hostAddress stem m = hostAddress stem n) : m = n := numbered_injective same

/-- The search stops at the one address that it does not pass over. -/
theorem passedOver_iff {table : NetTable} {count : Nat} (least : 2 ≤ count) (most : count < 255) :
    PassedOver (netLoadDevices table) (hostAddress "172.16.0".toList count) ↔
      netDevFindNextIP table "172.16.0".toList ≠ hostAddress "172.16.0".toList count := by
  rcases netDevFindNextIP_spec table "172.16.0".toList with
    ⟨empty, allTaken⟩ | ⟨found, leastFound, mostFound, result, free, lowerTaken⟩
  · rw [empty]
    exact iff_of_true (.inl (allTaken count least most)) (hostAddress_ne_nil _ count).symm
  · rw [result]
    constructor
    · rintro (taken | ⟨lower, count', leastLower, below, same, lowerFree⟩) equal
      · rw [equal, taken] at free
        exact absurd free (by simp)
      · obtain rfl := hostAddress_injective (equal.trans same)
        rw [lowerTaken lower leastLower below] at lowerFree
        exact absurd lowerFree (by simp)
    · intro different
      by_cases below : found < count
      · exact .inr ⟨found, count, leastFound, below, rfl, free⟩
      · have above : count < found := by
          have unequal : found ≠ count := fun same => different (by rw [same])
          omega
        exact .inl (lowerTaken count least above)

variable {policy : Policy} {server next : SslServer}

theorem isOpen_of_extends {streams after : Channels UInt8} (extension : streams.Extends after)
    {handle : Handle} (present : streams.get handle ≠ none)
    (opened : after.isOpen handle = true) : streams.isOpen handle = true := by
  obtain ⟨stream, found⟩ := Option.ne_none_iff_exists'.mp present
  obtain ⟨later, foundLater, -, untouched⟩ := extension handle stream found
  rw [isOpen_of_get found]
  by_contra closed
  rw [untouched (by simpa using closed)] at foundLater
  rw [isOpen_of_get foundLater] at opened
  exact closed opened

theorem Sound.client_present (sound : Sound server) {launch : Launch}
    (member : launch ∈ server.launches) {handle : Handle} (isClient : launch.client = some handle) :
    server.streams.get handle ≠ none := by
  obtain ⟨stream, found, -⟩ := (sound.launches launch member).client handle isClient
  simp [found]

theorem AddressesDistinct.of_sameLaunches (sound : Sound server)
    (distinct : AddressesDistinct server) (extension : server.streams.Extends next.streams)
    (sameLaunches : next.launches = server.launches) : AddressesDistinct next := by
  intro first firstMember second secondMember c d isClient isClient' different opened opened' given
  rw [sameLaunches] at firstMember secondMember
  exact distinct first firstMember second secondMember c d isClient isClient' different
    (isOpen_of_extends extension (sound.client_present firstMember isClient) opened)
    (isOpen_of_extends extension (sound.client_present secondMember isClient') opened') given

theorem sslAcceptClient_refused {arrival : Arrival}
    (refused : ¬ sslAuth policy.passwd policy.serverAuth (arrival.client.getD noClient) = true) :
    (sslAcceptClient policy server arrival).launches = server.launches := by
  unfold sslAcceptClient
  dsimp only
  rw [if_neg refused]

/-- A client that passes is new, open, and recorded with the address found for it. -/
theorem sslAcceptClient_passed {arrival : Arrival} (sound : Sound server)
    (passed : sslAuth policy.passwd policy.serverAuth (arrival.client.getD noClient) = true) :
    ∃ launch, (sslAcceptClient policy server arrival).launches = server.launches ++ [launch] ∧
      launch.remoteAddress = netDevFindNextIP arrival.table "172.16.0".toList ∧
      (arrival.client = none → launch.client = none) ∧
      (arrival.client.isSome = true → ∃ handle, launch.client = some handle ∧
        server.streams.get handle = none ∧
        (sslAcceptClient policy server arrival).streams.isOpen handle = true) := by
  have clientOpened := streamOpen_opened sound.coupled arrival.client.isSome
  have accepted := @Sound.accept server sound _ _ _ _
    (netDevFindNextIP arrival.table "172.16.0".toList) clientOpened
    (streamOpen_opened clientOpened.coupled arrival.pppd)
  unfold sslAcceptClient
  dsimp only
  rw [if_pos passed]
  refine ⟨_, rfl, rfl, fun none => ?_, fun some => ?_⟩
  · simp [none, streamOpen]
  · refine ⟨server.streams.fresh, ?_, get_fresh _, ?_⟩
    · simp [some, streamOpen]
    · exact (accepted.2.2 _ (.inl (by simp [some, streamOpen]))).2

/-- One more launch needs an address that no connected client holds. -/
theorem distinct_append_iff {launch : Launch} (sound : Sound server)
    (distinct : AddressesDistinct server)
    (kept : ∀ handle stream, server.streams.get handle = some stream →
      next.streams.get handle = some stream)
    (launches : next.launches = server.launches ++ [launch])
    (new : ∀ handle, launch.client = some handle →
      server.streams.get handle = none ∧ next.streams.isOpen handle = true) :
    AddressesDistinct next ↔
      (launch.client.isSome = true → ∀ other ∈ server.launches, ∀ handle,
        other.client = some handle → server.streams.isOpen handle = true →
          other.remoteAddress ≠ [] → launch.remoteAddress ≠ other.remoteAddress) := by
  have sameOpen : ∀ other ∈ server.launches, ∀ handle, other.client = some handle →
      next.streams.isOpen handle = server.streams.isOpen handle := by
    intro other member handle isClient
    obtain ⟨stream, found, -⟩ := (sound.launches other member).client handle isClient
    rw [isOpen_of_get (kept handle stream found), isOpen_of_get found]
  constructor
  · intro distinctNext someClient other member handle isClient opened given
    obtain ⟨own, isOwn⟩ := Option.isSome_iff_exists.mp someClient
    obtain ⟨absent, openedOwn⟩ := new own isOwn
    have different : handle ≠ own := by
      rintro rfl
      exact sound.client_present member isClient absent
    refine (distinctNext other (launches ▸ List.mem_append_left _ member) launch
      (launches ▸ List.mem_append_right _ List.mem_cons_self) handle own isClient isOwn different
      ?_ openedOwn given).symm
    rw [sameOpen other member handle isClient, opened]
  · intro unclaimed first firstMember second secondMember c d isClient isClient' different opened
      opened' given
    rw [launches] at firstMember secondMember
    rcases List.mem_append.mp firstMember with firstOld | firstNew <;>
      rcases List.mem_append.mp secondMember with secondOld | secondNew
    · rw [sameOpen first firstOld c isClient] at opened
      rw [sameOpen second secondOld d isClient'] at opened'
      exact distinct first firstOld second secondOld c d isClient isClient' different opened
        opened' given
    · obtain rfl := List.mem_singleton.mp secondNew
      rw [sameOpen first firstOld c isClient] at opened
      exact (unclaimed (by simp [isClient']) first firstOld c isClient opened given).symm
    · obtain rfl := List.mem_singleton.mp firstNew
      rw [sameOpen second secondOld d isClient'] at opened'
      intro same
      exact unclaimed (by simp [isClient]) second secondOld d isClient' opened' (same ▸ given) same
    · obtain rfl := List.mem_singleton.mp firstNew
      obtain rfl := List.mem_singleton.mp secondNew
      exact absurd (Option.some.inj (isClient.symm.trans isClient')) different

/-- The addresses stay distinct exactly when the search passes over those in use. -/
theorem accept_distinct_iff {arrival : Arrival} (sound : Sound server) (numbered : Numbered server)
    (distinct : AddressesDistinct server) (listener : Handle) (buffered : Bool) :
    AddressesDistinct (sslAcceptClient policy server arrival) ↔
      Unclaimed policy server (.ready listener buffered (.arrival arrival)) := by
  obtain ⟨-, kept⟩ := sslAcceptClient_sound policy arrival sound
  by_cases passed : sslAuth policy.passwd policy.serverAuth (arrival.client.getD noClient) = true
  swap
  · refine iff_of_true ?_ fun _ passes => absurd passes passed
    exact distinct.of_sameLaunches sound (.of_get kept) (sslAcceptClient_refused passed)
  obtain ⟨launch, launches, address, nobody, somebody⟩ := sslAcceptClient_passed sound passed
  have sameSome : launch.client.isSome = arrival.client.isSome := by
    cases shape : arrival.client with
    | none => rw [nobody shape]; rfl
    | some client =>
        obtain ⟨handle, isClient, -⟩ := somebody (by rw [shape]; rfl)
        rw [isClient]
        rfl
  have new : ∀ handle, launch.client = some handle → server.streams.get handle = none ∧
      (sslAcceptClient policy server arrival).streams.isOpen handle = true := by
    intro handle isClient
    obtain ⟨handle', isClient', absent, opened⟩ := somebody (by rw [← sameSome, isClient]; rfl)
    obtain rfl := Option.some.inj (isClient.symm.trans isClient')
    exact ⟨absent, opened⟩
  rw [distinct_append_iff sound distinct kept launches new, Unclaimed, sameSome, address]
  have exact (other : Launch) (member : other ∈ server.launches) (given : other.remoteAddress ≠ []) :
      netDevFindNextIP arrival.table "172.16.0".toList ≠ other.remoteAddress ↔
        PassedOver (netLoadDevices arrival.table) other.remoteAddress := by
    obtain ⟨count, least, most, shape⟩ := (numbered other member).resolve_left given
    rw [shape]
    exact (passedOver_iff least most).symm
  constructor
  · intro unclaimed someClient _ other member handle isClient opened given
    exact (exact other member given).mp
      (unclaimed someClient other member handle isClient opened given)
  · intro unclaimed someClient other member handle isClient opened given
    exact (exact other member given).mpr
      (unclaimed someClient passed other member handle isClient opened given)

theorem sslAcceptClient_numbered {arrival : Arrival} (sound : Sound server)
    (numbered : Numbered server) : Numbered (sslAcceptClient policy server arrival) := by
  by_cases passed : sslAuth policy.passwd policy.serverAuth (arrival.client.getD noClient) = true
  swap
  · rw [Numbered, sslAcceptClient_refused passed]
    exact numbered
  obtain ⟨launch, launches, address, -⟩ := sslAcceptClient_passed sound passed
  intro other member
  rw [launches] at member
  rcases List.mem_append.mp member with before | last
  · exact numbered other before
  · obtain rfl := List.mem_singleton.mp last
    rw [address]
    rcases netDevFindNextIP_spec arrival.table "172.16.0".toList with
      ⟨empty, -⟩ | ⟨count, least, most, result, -⟩
    · exact .inl empty
    · exact .inr ⟨count, least, most, result⟩

/-! ## Runs -/

theorem sslProcess_launches (s : Handle) (buffer : List UInt8) :
    (sslProcess server s buffer).launches = server.launches := by
  unfold sslProcess
  dsimp only
  split <;> rfl

theorem serverStep_numbered {event : Event} (stepped : serverStep policy server event = some next)
    (sound : Sound server) (numbered : Numbered server) : Numbered next := by
  rcases serverStep_cases stepped with ⟨-, rfl⟩ | ⟨handle, buffered, connections, selected, turn⟩
  · exact numbered
  obtain ⟨-, turned⟩ := sound.selected selected
  rcases turn with ⟨arrival, -, -, rfl⟩ | ⟨buffer, -, -, -, rfl⟩
  · exact sslAcceptClient_numbered turned numbered
  · rw [Numbered, sslProcess_launches]
    exact numbered

theorem serverStep_distinct_iff {event : Event}
    (stepped : serverStep policy server event = some next) (sound : Sound server)
    (numbered : Numbered server) (distinct : AddressesDistinct server) :
    AddressesDistinct next ↔ Unclaimed policy server event := by
  rcases serverStep_cases stepped with ⟨rfl, rfl⟩ | ⟨handle, buffered, connections, selected, turn⟩
  · exact iff_of_true distinct trivial
  obtain ⟨opened, turned⟩ := sound.selected selected
  rcases turn with ⟨arrival, rfl, -, rfl⟩ | ⟨buffer, rfl, notListener, -, rfl⟩
  · exact accept_distinct_iff turned numbered distinct handle buffered
  · refine iff_of_true ?_ trivial
    obtain ⟨-, extension⟩ := @sslProcess_sound _ _ buffer turned opened notListener
    exact AddressesDistinct.of_sameLaunches turned distinct extension (sslProcess_launches _ _)

/-- Over whole runs: no two clients are ever connected with one address exactly
when each new client comes while the search passes over the addresses in use. -/
theorem addresses_distinct_iff {final : SslServer} (listening : Bool) (events : List Event)
    (taken : run (serverStep policy) (startServer listening) events = some final) :
    (∀ before after middle, events = before ++ after →
      run (serverStep policy) (startServer listening) before = some middle →
        AddressesDistinct middle) ↔
      EachStep (serverStep policy) (Unclaimed policy) (startServer listening) events := by
  have start : Sound (startServer listening) := startServer_sound listening
  have noLaunch : (startServer listening).launches = [] := rfl
  have numbered : Numbered (startServer listening) := by
    rw [Numbered, noLaunch]
    exact fun _ member => absurd member List.not_mem_nil
  have distinct : AddressesDistinct (startServer listening) := by
    rw [AddressesDistinct, noLaunch]
    exact fun _ member => absurd member List.not_mem_nil
  have supported (server : SslServer) (event : Event) (next : SslServer)
      (stepped : serverStep policy server event = some next)
      (support : Sound server ∧ Numbered server) : Sound next ∧ Numbered next :=
    ⟨(serverStep_sound stepped support.1).1, serverStep_numbered stepped support.1 support.2⟩
  exact run_prefixes_iff supported
    (fun _ _ _ stepped support unique =>
      serverStep_distinct_iff stepped support.1 support.2 unique)
    events taken ⟨start, numbered⟩ distinct

/-- A host with one Ethernet link, before and after `ppp0` is up for the first
client; the server's side of it has the server's address. -/
def hostTable (linkUp : Bool) : NetTable :=
  { procNetDev := some ("    lo: 0\n  eth0: 0\n".toList ++ if linkUp then "  ppp0: 0\n".toList else [])
    interfaceIP := fun name =>
      if name = "lo".toList then "127.0.0.1".toList
      else if name = "eth0".toList then "192.168.1.10".toList
      else if name = "ppp0".toList then "172.16.0.1".toList
      else [] }

def clientComes (linkUp : Bool) : Event :=
  .ready 0 false (.arrival { client := some noClient, table := hostTable linkUp, pppd := true })

/-- The first client has left before the second comes. -/
theorem addresses_distinct_iff_successive :
    ∃ final, run (serverStep openPolicy) (startServer true)
        [clientComes false, .ready 1 false (.bytes []), clientComes false] = some final ∧
      ((∀ before after middle,
        [clientComes false, .ready 1 false (.bytes []), clientComes false] = before ++ after →
          run (serverStep openPolicy) (startServer true) before = some middle →
            AddressesDistinct middle) ↔
        EachStep (serverStep openPolicy) (Unclaimed openPolicy) (startServer true)
          [clientComes false, .ready 1 false (.bytes []), clientComes false]) := by
  have possible : (run (serverStep openPolicy) (startServer true)
      [clientComes false, .ready 1 false (.bytes []), clientComes false]).isSome = true := by
    decide
  obtain ⟨final, taken⟩ := Option.isSome_iff_exists.mp possible
  exact ⟨final, taken, addresses_distinct_iff true _ taken⟩

/-- The second client comes while the first is connected, and is given the same
address, though `ppp0` is up. -/
theorem second_client_same_address :
    ∃ final, run (serverStep openPolicy) (startServer true)
        [clientComes false, clientComes true] = some final ∧ ¬ AddressesDistinct final := by
  have reached : (run (serverStep openPolicy) (startServer true)
      [clientComes false, clientComes true]).map (fun server =>
        (server.launches, server.streams.isOpen 1, server.streams.isOpen 3)) =
      some ([⟨some 1, some 2, "172.16.0.2".toList⟩, ⟨some 3, some 4, "172.16.0.2".toList⟩],
        true, true) := by decide
  obtain ⟨final, taken, shape⟩ := Option.map_eq_some_iff.mp reached
  obtain ⟨launches, opened⟩ := Prod.mk.inj shape
  obtain ⟨firstOpen, secondOpen⟩ := Prod.mk.inj opened
  refine ⟨final, taken, fun distinct => ?_⟩
  refine distinct ⟨some 1, some 2, "172.16.0.2".toList⟩ ?_ ⟨some 3, some 4, "172.16.0.2".toList⟩ ?_
    1 3 rfl rfl (by decide) firstOpen secondOpen (by decide) rfl <;> simp [launches]

end VpnMgr.Server
