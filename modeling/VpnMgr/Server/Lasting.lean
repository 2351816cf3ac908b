import VpnMgr.Server.Connections

/-!
# How long a session lasts

`SSLProcess` closes both sides when a read gives no data.
-/

namespace VpnMgr.Server

open Machine Text CString LibUseful Channels

/-- An event of the loop, with what `STREAMReadBytes` reports. -/
inductive Turn where
  | idle
  | accept (handle : Handle) (buffered : Bool) (arrival : Arrival)
  | read (handle : Handle) (buffered : Bool) (result : ReadResult)

def Turn.event : Turn → Event
  | idle => .idle
  | accept handle buffered arrival => .ready handle buffered (.arrival arrival)
  | read handle buffered result => .ready handle buffered (.bytes result.buffer)

def Turn.readOf (c p : Handle) : Turn → Option ReadResult
  | read handle _ result => if handle = c ∨ handle = p then some result else none
  | _ => none

structure Paired (streams : Channels UInt8) (c p : Handle) : Prop where
  clientOpen : streams.isOpen c = true
  pppdOpen : streams.isOpen p = true
  clientPeer : streamGetPeer streams c = some p
  pppdPeer : streamGetPeer streams p = some c

section Pairs

variable {server next : SslServer} {policy : Policy} {c p handle : Handle}

theorem streamGetPeer_of_get {streams : Channels UInt8} {stream : Channel UInt8}
    (found : streams.get handle = some stream) : streamGetPeer streams handle = stream.peer := by
  rw [streamGetPeer, found, Option.bind_some]

theorem Paired.symm {streams : Channels UInt8} (paired : Paired streams c p) :
    Paired streams p c :=
  ⟨paired.pppdOpen, paired.clientOpen, paired.pppdPeer, paired.clientPeer⟩

theorem Sound.paired (sound : Sound server) (opened : server.streams.isOpen c = true)
    (peer : streamGetPeer server.streams c = some p) : Paired server.streams c p := by
  obtain ⟨stream, found, open'⟩ := isOpen_iff.mp opened
  rw [streamGetPeer_of_get found] at peer
  obtain ⟨opposite, foundPeer, back, -, sameOpen, -⟩ := sound.coupled.pair c stream found p peer
  refine ⟨opened, ?_, streamGetPeer_of_get found ▸ peer, streamGetPeer_of_get foundPeer ▸ back⟩
  rw [isOpen_of_get foundPeer, sameOpen, open']

theorem streamGetPeer_extends {streams after : Channels UInt8} (extension : streams.Extends after)
    (peer : streamGetPeer streams c = some p) : streamGetPeer after c = some p := by
  obtain ⟨stream, found, linked⟩ := Option.bind_eq_some_iff.mp peer
  obtain ⟨later, foundLater, samePeer, -⟩ := extension c stream found
  rw [streamGetPeer_of_get foundLater, samePeer, linked]

theorem closed_extends {streams after : Channels UInt8} (extension : streams.Extends after)
    (peer : streamGetPeer streams c = some p) (closed : streams.isOpen c = false) :
    after.isOpen c = false := by
  obtain ⟨stream, found, -⟩ := Option.bind_eq_some_iff.mp peer
  obtain ⟨later, foundLater, -, untouched⟩ := extension c stream found
  rw [isOpen_of_get found] at closed
  rw [isOpen_of_get foundLater, untouched closed, closed]

theorem isOpen_edit_kept {streams : Channels UInt8}
    {change : Channel UInt8 → Channel UInt8} (opened : streams.isOpen handle = true)
    (keeps : ∀ channel, (change channel).isOpen = channel.isOpen) :
    (streams.edit handle change).isOpen = streams.isOpen := by
  obtain ⟨channel, found, isOpen'⟩ := isOpen_iff.mp opened
  funext other
  rw [isOpen_edit found isOpen']
  split
  next same => rw [keeps, same, isOpen_of_get found]
  next => rfl

theorem isOpen_close {streams : Channels UInt8} (opened : streams.isOpen handle = true)
    (other : Handle) : (streams.close handle).isOpen other =
      if other = handle then false else streams.isOpen other := by
  obtain ⟨channel, found, isOpen'⟩ := isOpen_iff.mp opened
  rw [close, isOpen_edit found isOpen']

/-- A read without data closes the stream that was read, and its peer. -/
theorem isOpen_sslProcess_nil (sound : Sound server)
    (opened : server.streams.isOpen handle = true) (other : Handle) :
    (sslProcess server handle []).streams.isOpen other =
      if other = handle ∨ streamGetPeer server.streams handle = some other then false
      else server.streams.isOpen other := by
  obtain ⟨stream, found, isOpen'⟩ := isOpen_iff.mp opened
  unfold sslProcess
  rw [streamGetPeer_of_get found, receive_nil found isOpen']
  cases linked : stream.peer with
  | none =>
      show (server.streams.close handle).isOpen other = _
      rw [isOpen_close opened]
      simp
  | some peer =>
      obtain ⟨opposite, foundPeer, -, apart, sameOpen, -⟩ :=
        sound.coupled.pair handle stream found peer linked
      have peerOpen : server.streams.isOpen peer = true := by
        rw [isOpen_of_get foundPeer, sameOpen, isOpen']
      have stillOpen : (server.streams.close peer).isOpen handle = true := by
        rw [isOpen_close peerOpen, if_neg (Ne.symm apart), opened]
      show ((server.streams.close peer).close handle).isOpen other = _
      rw [isOpen_close stillOpen, isOpen_close peerOpen]
      by_cases isHandle : other = handle
      · simp [isHandle]
      · simp [isHandle, eq_comm]

/-- Bytes that were read close a stream only when there is no peer to write them to. -/
theorem isOpen_sslProcess_cons (sound : Sound server) {byte : UInt8} {rest : List UInt8}
    (opened : server.streams.isOpen handle = true) (other : Handle) :
    (sslProcess server handle (byte :: rest)).streams.isOpen other =
      if other = handle ∧ streamGetPeer server.streams handle = none then false
      else server.streams.isOpen other := by
  obtain ⟨stream, found, isOpen'⟩ := isOpen_iff.mp opened
  have received : (server.streams.receive handle (byte :: rest)).isOpen = server.streams.isOpen :=
    isOpen_edit_kept opened fun _ => rfl
  unfold sslProcess
  rw [streamGetPeer_of_get found]
  cases linked : stream.peer with
  | none =>
      have stillOpen : (server.streams.receive handle (byte :: rest)).isOpen handle = true := by
        rw [received, opened]
      show ((server.streams.receive handle (byte :: rest)).close handle).isOpen other = _
      rw [isOpen_close stillOpen, received]
      simp
  | some peer =>
      obtain ⟨opposite, foundPeer, -, apart, sameOpen, -⟩ :=
        sound.coupled.pair handle stream found peer linked
      have peerOpen : (server.streams.receive handle (byte :: rest)).isOpen peer = true := by
        rw [received, isOpen_of_get foundPeer, sameOpen, isOpen']
      have sent : ((server.streams.receive handle (byte :: rest)).send peer (byte :: rest)).isOpen =
          (server.streams.receive handle (byte :: rest)).isOpen :=
        isOpen_edit_kept peerOpen fun _ => rfl
      show ((server.streams.receive handle (byte :: rest)).send peer (byte :: rest)).isOpen other = _
      rw [sent, received]
      simp

def Turn.Leaves (turn : Turn) (c p : Handle) : Prop :=
  ∀ result, turn.readOf c p = some result → result.buffer ≠ []

theorem Paired.apart {streams : Channels UInt8} (coupled : streams.Coupled)
    (paired : Paired streams c p) (outside : handle ≠ p) :
    streamGetPeer streams handle ≠ some c := by
  intro linked
  obtain ⟨stream, found, peer⟩ := Option.bind_eq_some_iff.mp linked
  obtain ⟨opposite, foundPeer, back, -⟩ := coupled.pair handle stream found c peer
  have linkedBack := paired.clientPeer
  rw [streamGetPeer_of_get foundPeer, back] at linkedBack
  exact outside (Option.some.inj linkedBack)

theorem Paired.read_kept (sound : Sound server) (paired : Paired server.streams c p)
    (opened : server.streams.isOpen handle = true) (buffer : List UInt8)
    (leaves : handle = c ∨ handle = p → buffer ≠ []) :
    (sslProcess server handle buffer).streams.isOpen c = true := by
  cases buffer with
  | nil =>
      have outside : handle ≠ c ∧ handle ≠ p :=
        ⟨fun same => leaves (.inl same) rfl, fun same => leaves (.inr same) rfl⟩
      rw [isOpen_sslProcess_nil sound opened, if_neg, paired.clientOpen]
      exact not_or_intro (Ne.symm outside.1) (paired.apart sound.coupled outside.2)
  | cons byte rest =>
      rw [isOpen_sslProcess_cons sound opened, if_neg, paired.clientOpen]
      rintro ⟨rfl, alone⟩
      rw [paired.clientPeer] at alone
      cases alone

/-- A turn leaves a pair as it is, unless a read of it gives no data. -/
theorem serverStep_paired (sound : Sound server) (paired : Paired server.streams c p) {turn : Turn}
    (leaves : turn.Leaves c p) (stepped : serverStep policy server turn.event = some next) :
    Paired next.streams c p := by
  obtain ⟨-, extension⟩ := serverStep_sound stepped sound
  have kept : next.streams.isOpen c = true ∧ next.streams.isOpen p = true := by
    rcases serverStep_cases stepped with ⟨-, rfl⟩ | ⟨handle, buffered, connections, selected, done⟩
    · exact ⟨paired.clientOpen, paired.pppdOpen⟩
    obtain ⟨opened, turned⟩ := sound.selected selected
    rcases done with ⟨arrival, -, -, rfl⟩ | ⟨buffer, isRead, -, -, rfl⟩
    · have old := (sslAcceptClient_sound policy arrival turned).2
      obtain ⟨client, foundClient, clientOpen⟩ := isOpen_iff.mp paired.clientOpen
      obtain ⟨pppd, foundPppd, pppdOpen⟩ := isOpen_iff.mp paired.pppdOpen
      exact ⟨isOpen_iff.mpr ⟨client, old c client foundClient, clientOpen⟩,
        isOpen_iff.mpr ⟨pppd, old p pppd foundPppd, pppdOpen⟩⟩
    · have hasData : handle = c ∨ handle = p → buffer ≠ [] := by
        intro side
        cases turn with
        | read _ _ result =>
            obtain ⟨rfl, rfl, rfl⟩ : _ ∧ _ ∧ _ := by simpa [Turn.event] using isRead
            exact leaves result (if_pos side)
        | idle => cases isRead
        | accept => cases isRead
      exact ⟨paired.read_kept turned opened buffer hasData,
        paired.symm.read_kept turned opened buffer (hasData ·.symm)⟩
  exact ⟨kept.1, kept.2, streamGetPeer_extends extension paired.clientPeer,
    streamGetPeer_extends extension paired.pppdPeer⟩

/-- A read of the pair without data closes both sides. -/
theorem serverStep_closes (sound : Sound server) (paired : Paired server.streams c p) {turn : Turn}
    {result : ReadResult} (isRead : turn.readOf c p = some result) (empty : result.buffer = [])
    (stepped : serverStep policy server turn.event = some next) :
    next.streams.isOpen c = false ∧ next.streams.isOpen p = false := by
  cases turn with
  | idle => cases isRead
  | accept => cases isRead
  | read handle buffered given =>
      obtain ⟨side, rfl⟩ : (handle = c ∨ handle = p) ∧ given = result := by
        simpa [Turn.readOf] using isRead
      rcases serverStep_cases stepped with ⟨isIdle, -⟩ | ⟨other, _, connections, selected, done⟩
      · cases isIdle
      obtain ⟨opened, turned⟩ := sound.selected selected
      rcases done with ⟨arrival, isArrival, -, rfl⟩ | ⟨buffer, isBytes, -, -, rfl⟩
      · cases isArrival
      · obtain ⟨rfl, -, rfl⟩ : handle = other ∧ _ ∧ given.buffer = buffer := by
          simpa [Turn.event] using isBytes
        rw [empty, isOpen_sslProcess_nil turned opened, isOpen_sslProcess_nil turned opened]
        rcases side with rfl | rfl
        · simp [paired.clientPeer]
        · simp [paired.pppdPeer]

theorem serverStep_unread (sound : Sound server) (closedClient : server.streams.isOpen c = false)
    (closedPppd : server.streams.isOpen p = false) {turn : Turn}
    (stepped : serverStep policy server turn.event = some next) : turn.readOf c p = none := by
  cases turn with
  | idle => rfl
  | accept => rfl
  | read handle buffered result =>
      obtain ⟨connections, selected, -⟩ := Option.bind_eq_some_iff.mp stepped
      obtain ⟨opened, -⟩ := sound.selected selected
      refine if_neg ?_
      rintro (rfl | rfl)
      · simp [closedClient] at opened
      · simp [closedPppd] at opened

/-! ## Runs -/

/-- Both sides stay open until a read of one of them reports that it is closed. -/
def LastsUntilClosed (policy : Policy) (server : SslServer) (c p : Handle)
    (turns : List Turn) : Prop :=
  ∀ part rest state, turns = part ++ rest →
    run (serverStep policy) server (part.map Turn.event) = some state →
      (state.streams.isOpen c = true ∧ state.streams.isOpen p = true) ∨
        ∃ turn ∈ part, turn.readOf c p = some .closed

/-- No read of the pair is one that merely returned no data. -/
def NeverIdle (c p : Handle) (turns : List Turn) : Prop :=
  ∀ turn ∈ turns, ∀ result, turn.readOf c p = some result → result.isIdle = false

theorem neverIdle_of_closed (sound : Sound server) (peer : streamGetPeer server.streams c = some p)
    (back : streamGetPeer server.streams p = some c)
    (closedClient : server.streams.isOpen c = false) (closedPppd : server.streams.isOpen p = false)
    {turns : List Turn} {final : SslServer}
    (taken : run (serverStep policy) server (turns.map Turn.event) = some final) :
    NeverIdle c p turns := by
  induction turns generalizing server with
  | nil => exact fun _ member => absurd member List.not_mem_nil
  | cons turn rest inductionHypothesis =>
      obtain ⟨middle, stepped, remaining⟩ := run_cons taken
      obtain ⟨soundMiddle, extension⟩ := serverStep_sound stepped sound
      have unread := serverStep_unread sound closedClient closedPppd stepped
      have later := inductionHypothesis soundMiddle (streamGetPeer_extends extension peer)
        (streamGetPeer_extends extension back) (closed_extends extension peer closedClient)
        (closed_extends extension back closedPppd) remaining
      intro other member result isRead
      rcases List.mem_cons.mp member with rfl | inRest
      · rw [unread] at isRead
        cases isRead
      · exact later other inRest result isRead

theorem Turn.Leaves.not_idle {turn : Turn} (leaves : turn.Leaves c p) {result : ReadResult}
    (isRead : turn.readOf c p = some result) : result.isIdle = false := by
  cases result with
  | bytes => rfl
  | closed => rfl
  | timeout => exact absurd rfl (leaves _ isRead)
  | noData => exact absurd rfl (leaves _ isRead)

/-- A turn that leaves the pair as it is makes no difference. -/
theorem lastsUntilClosed_cons {middle : SslServer} (paired : Paired server.streams c p)
    {turn : Turn} (leaves : turn.Leaves c p) (rest : List Turn)
    (stepped : serverStep policy server turn.event = some middle) :
    LastsUntilClosed policy server c p (turn :: rest) ↔
      LastsUntilClosed policy middle c p rest := by
  have onward : ∀ part, run (serverStep policy) server ((turn :: part).map Turn.event) =
      run (serverStep policy) middle (part.map Turn.event) := by
    intro part
    rw [List.map_cons, run, stepped, Option.bind_some]
  constructor
  · intro lasts part after state split taken
    have whole := lasts (turn :: part) after state (congrArg (turn :: ·) split)
      ((onward part).trans taken)
    refine whole.imp_right fun closed => ?_
    obtain ⟨other, member, isClosed⟩ := closed
    rcases List.mem_cons.mp member with rfl | inPart
    · exact absurd rfl (leaves _ isClosed)
    · exact ⟨other, inPart, isClosed⟩
  · intro lasts part after state split taken
    cases part with
    | nil =>
        obtain rfl := Option.some.inj taken
        exact .inl ⟨paired.clientOpen, paired.pppdOpen⟩
    | cons first part =>
        obtain ⟨rfl, rfl⟩ := List.cons.inj split
        refine (lasts part after state rfl ((onward part).symm.trans taken)).imp_right fun closed => ?_
        obtain ⟨other, member, isClosed⟩ := closed
        exact ⟨other, List.mem_cons_of_mem _ member, isClosed⟩

theorem lastsUntilClosed_iff (sound : Sound server) (paired : Paired server.streams c p)
    {turns : List Turn} {final : SslServer}
    (taken : run (serverStep policy) server (turns.map Turn.event) = some final) :
    LastsUntilClosed policy server c p turns ↔ NeverIdle c p turns := by
  induction turns generalizing server with
  | nil =>
      refine iff_of_true ?_ fun _ member => absurd member List.not_mem_nil
      rintro part rest state split reached
      obtain ⟨rfl, -⟩ := List.append_eq_nil_iff.mp split.symm
      obtain rfl := Option.some.inj reached
      exact .inl ⟨paired.clientOpen, paired.pppdOpen⟩
  | cons turn rest inductionHypothesis =>
      obtain ⟨middle, stepped, remaining⟩ := run_cons taken
      obtain ⟨soundMiddle, extension⟩ := serverStep_sound stepped sound
      by_cases leaves : turn.Leaves c p
      · have after := serverStep_paired sound paired leaves stepped
        rw [lastsUntilClosed_cons paired leaves rest stepped,
          inductionHypothesis soundMiddle after remaining]
        exact ⟨fun never => List.forall_mem_cons.mpr ⟨fun _ => leaves.not_idle, never⟩,
          fun never => (List.forall_mem_cons.mp never).2⟩
      obtain ⟨result, isRead, empty⟩ : ∃ result, turn.readOf c p = some result ∧
          result.buffer = [] := by
        simpa [Turn.Leaves] using leaves
      obtain ⟨closedClient, closedPppd⟩ := serverStep_closes sound paired isRead empty stepped
      rcases (ReadResult.buffer_eq_nil_iff result).mp empty with isIdle | rfl
      · refine iff_of_false (fun lasts => ?_) fun never => ?_
        · have reached : run (serverStep policy) server ([turn].map Turn.event) = some middle := by
            rw [List.map_cons, run, stepped]
            rfl
          rcases lasts [turn] rest middle rfl reached with ⟨stillOpen, -⟩ | ⟨other, member, isClosed⟩
          · rw [closedClient] at stillOpen
            cases stillOpen
          · obtain rfl := List.mem_singleton.mp member
            obtain rfl := Option.some.inj (isRead.symm.trans isClosed)
            cases isIdle
        · have notIdle := never turn List.mem_cons_self result isRead
          rw [isIdle] at notIdle
          cases notIdle
      · refine iff_of_true (fun part after state split reached => ?_)
          (List.forall_mem_cons.mpr ⟨fun result given => ?_, ?_⟩)
        · cases part with
          | nil =>
              obtain rfl := Option.some.inj reached
              exact .inl ⟨paired.clientOpen, paired.pppdOpen⟩
          | cons first part =>
              obtain ⟨rfl, -⟩ := List.cons.inj split
              exact .inr ⟨turn, List.mem_cons_self, isRead⟩
        · obtain rfl := Option.some.inj (isRead.symm.trans given)
          rfl
        · exact neverIdle_of_closed soundMiddle (streamGetPeer_extends extension paired.clientPeer)
            (streamGetPeer_extends extension paired.pppdPeer) closedClient closedPppd remaining

end Pairs

end VpnMgr.Server
