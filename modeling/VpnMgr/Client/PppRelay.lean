import VpnMgr.Client.Bracketing

/-!
# The relay between pppd and its peer

What the loop of `PPPDProcess` passes on, when it brings the link up, and what
ends it.
-/

namespace VpnMgr.Client

open Machine Text CString LibUseful Command Process

def bytesRead (stream : StreamId) : Sigma Answer → List UInt8
  | ⟨.streamReadBytes source, bytes⟩ => if source = stream then bytes else []
  | _ => []

def bytesWritten (stream : StreamId) : Sigma Answer → List UInt8
  | ⟨.streamWriteBytes target bytes, _⟩ => if target = stream then bytes else []
  | _ => []

def received (stream : StreamId) (made : History Answer) : List UInt8 :=
  made.flatMap (bytesRead stream)

def delivered (stream : StreamId) (made : History Answer) : List UInt8 :=
  made.flatMap (bytesWritten stream)

/-- Each side was given what was read from the other. -/
structure Balanced (made : History Answer) : Prop where
  toRemote : delivered .remotePeer made = received .pppd made
  toLocal : delivered .pppd made = received .remotePeer made

theorem Balanced.append {first second : History Answer} (balanced : Balanced first)
    (balancedLater : Balanced second) : Balanced (first ++ second) where
  toRemote := by
    simp only [delivered, received, List.flatMap_append]
    exact congrArg₂ (· ++ ·) balanced.toRemote balancedLater.toRemote
  toLocal := by
    simp only [delivered, received, List.flatMap_append]
    exact congrArg₂ (· ++ ·) balanced.toLocal balancedLater.toLocal

def isSide : StreamId → Bool
  | .pppd | .remotePeer => true
  | _ => false

def offRelay : Call → Bool
  | .streamReadBytes _ | .streamWriteBytes .. | .flagExit => false
  | .streamClose stream => !isSide stream
  | _ => true

section OffRelay

variable {settings : Settings} {vpn : TVpn}

theorem runCommand_offRelay (text : CString) (flags : FlagWord) :
    (runCommand text flags).Uses offRelay := by
  refine Uses.bind (Uses.ask rfl) fun status => ?_
  cases status with
  | some status => exact .pure status
  | none => exact .exit

theorem command_offRelay (text : CString) : (command text).Uses offRelay :=
  Uses.bind (runCommand_offRelay _ _) fun _ => .pure ()

theorem resolvChange_offRelay (pid : Nat) (nameservers : CPtr) :
    (resolvChange pid nameservers).Uses offRelay := by
  refine Uses.bind (Uses.ask rfl) fun opened => Uses.bind (Uses.when ?_) fun _ => ?_
  · exact Uses.bind (Uses.each fun _ => Uses.ask rfl) fun _ => Uses.ask rfl
  · exact Uses.bind (command_offRelay _) fun _ => command_offRelay _

theorem netSetup_offRelay (dev : CString) : (netSetup settings vpn dev).Uses offRelay := by
  refine Uses.bind (Uses.when (command_offRelay _)) fun _ => ?_
  refine Uses.bind (Uses.when (Uses.each fun _ => command_offRelay _)) fun _ => ?_
  exact Uses.when (resolvChange_offRelay _ _)

theorem upDownRunFiles_offRelay (files : CPtr) (dev : CString) :
    (upDownRunFiles vpn files dev).Uses offRelay := by
  refine Uses.each fun token => Uses.bind (Uses.ask rfl) fun _ => Uses.when ?_
  refine Uses.bind (Uses.ask rfl) fun status => ?_
  cases status with
  | some _ => exact .pure ()
  | none => exact .exit

theorem vpnUp_offRelay (dev : CString) : (vpnUp settings vpn dev).Uses offRelay := by
  refine Uses.bind (Uses.ask rfl) fun _ => Uses.bind (netSetup_offRelay dev) fun _ => ?_
  exact Uses.when (upDownRunFiles_offRelay _ _)

theorem runCommandOpen_offRelay (text : CString) (flags : FlagWord) :
    (runCommandOpen text flags).Uses offRelay := by
  refine Uses.bind (Uses.ask rfl) fun opened => ?_
  cases opened with
  | some opened => exact .pure opened
  | none => exact .exit

end OffRelay

/-- `PPPDTryConfigureEndpoint` looks at the devices, or calls `VpnUp`. -/
inductive EndpointEvent where
  | polled (table : NetTable)
  | up (dev : CString)

def endpointEvent : Sigma Answer → Option EndpointEvent
  | ⟨.netLoadDevices, table⟩ => some (.polled table)
  | ⟨.vpnUp dev, _⟩ => some (.up dev)
  | _ => none

def endpointEvents (made : History Answer) : List EndpointEvent := made.filterMap endpointEvent

/-- The link is looked for in vain, perhaps until it is found and brought up. -/
inductive ConfiguresOnce (address : CString) : List EndpointEvent → Prop where
  | waits : ConfiguresOnce address []
  | polls {table : NetTable} {events : List EndpointEvent}
      (missing : netDevFindForIP table "ppp".toList address = [])
      (later : ConfiguresOnce address events) : ConfiguresOnce address (.polled table :: events)
  | finds {table : NetTable} (found : netDevFindForIP table "ppp".toList address ≠ []) :
      ConfiguresOnce address
        [.polled table, .up (netDevFindForIP table "ppp".toList address)]

@[simp]
theorem endpointEvents_append (first second : History Answer) :
    endpointEvents (first ++ second) = endpointEvents first ++ endpointEvents second :=
  List.filterMap_append

theorem endpointEvents_eq_nil {features : List Feature} {made : History Answer}
    (only : Only (within features) made) (lacks : .bracket ∉ features ∧ .devices ∉ features) :
    endpointEvents made = [] := by
  refine List.filterMap_eq_nil_iff.mpr fun interaction member => ?_
  have noBracket := featureOf_ne (only interaction member) lacks.1 (by decide)
  have noDevices := featureOf_ne (only interaction member) lacks.2 (by decide)
  rcases interaction with ⟨call, answer⟩
  cases call <;> first | rfl | exact absurd rfl noBracket | exact absurd rfl noDevices

def SeesTo (address : CString) : Bool → List EndpointEvent → Prop
  | true, events => events = []
  | false, events => ConfiguresOnce address events

def Looks (address : CString) (found : Bool) (events : List EndpointEvent) : Prop :=
  ∃ table, events = EndpointEvent.polled table ::
      (if found then [.up (netDevFindForIP table "ppp".toList address)] else []) ∧
    (found = true ↔ netDevFindForIP table "ppp".toList address ≠ [])

section Rounds

variable {address : CString} {settings : Settings} {vpn : TVpn}

theorem seesTo_nil (configured : Bool) : SeesTo address configured [] := by
  cases configured with
  | true => exact rfl
  | false => exact .waits

theorem Looks.seesTo {found : Bool} {events later : List EndpointEvent}
    (looks : Looks address found events) (rest : SeesTo address found later) :
    SeesTo address false (events ++ later) := by
  obtain ⟨table, rfl, isFound⟩ := looks
  cases found with
  | true =>
      obtain rfl := rest
      exact .finds (isFound.mp rfl)
  | false => exact .polls (by simpa using isFound) rest

theorem pppdTryConfigureEndpoint_looks :
    (pppdTryConfigureEndpoint settings vpn).Ends
      (fun found made => Looks (copyStr vpn.localAddress) found (endpointEvents made))
      fun made => Looks (copyStr vpn.localAddress) true (endpointEvents made) := by
  refine (Ends.asked _).bind fun table made isMade => ?_
  obtain rfl := isMade
  dsimp only
  split
  case isTrue found =>
    have isFound := (strValid_some_iff _).mp found
    have up : ∀ more, Marked (.vpnUp (netDevFindForIP table "ppp".toList (copyStr vpn.localAddress)))
        [.addRoute, .rewrite, .move, .script] more → Looks (copyStr vpn.localAddress) true
          (endpointEvents ([⟨.netLoadDevices, table⟩] ++ more)) := by
      rintro more ⟨answer, rest, rfl, only⟩
      refine ⟨table, ?_, iff_of_true rfl isFound⟩
      have quiet := endpointEvents_eq_nil only (by simp)
      rw [endpointEvents, List.filterMap_append, List.filterMap_cons]
      exact congrArg (fun events => EndpointEvent.polled table :: .up _ :: events) quiet
    refine Ends.bind ((vpnUp_ends _).mono (fun _ => up) up) fun _ made looks => Ends.pure ?_
    rwa [List.append_nil]
  case isFalse missing =>
    exact Ends.pure ⟨table, rfl, by simpa [strValid_some_iff] using missing⟩

def LeavesTo (address : CString) (configured : Bool) (events : List EndpointEvent) :
    Bool ⊕ Unit → Prop
  | .inl later => ∀ rest, SeesTo address later rest → SeesTo address configured (events ++ rest)
  | .inr () => events = []

theorem before_endpoint {α β : Type} {features : List Feature} {process : Driver α}
    {next : α → Driver β} (post : β → List EndpointEvent → Prop)
    (gone : List EndpointEvent → Prop) (touches : Touches process features)
    (lacks : .bracket ∉ features ∧ .devices ∉ features) (exits : gone [])
    (rest : ∀ result, (next result).Ends (fun final made => post final (endpointEvents made))
      fun made => gone (endpointEvents made)) :
    (process >>= next).Ends (fun final made => post final (endpointEvents made))
      fun made => gone (endpointEvents made) := by
  refine Uses.before_ends touches (fun _ before made only held => ?_)
    (fun before made only held => ?_) (fun made only => ?_) rest
  · simpa [endpointEvents_eq_nil only lacks] using held
  · simpa [endpointEvents_eq_nil only lacks] using held
  · rwa [endpointEvents_eq_nil only lacks]

theorem pppdRound_leaves (configured : Bool) :
    (pppdRound settings vpn configured).Ends
      (fun next made => LeavesTo (copyStr vpn.localAddress) configured (endpointEvents made) next)
      fun made => SeesTo (copyStr vpn.localAddress) configured (endpointEvents made) := by
  have quiet {α : Type} {process : Driver α} {next : α → Driver (Bool ⊕ Unit)}
      (touches : Touches process []) := @before_endpoint _ _ _ _ next
    (fun next events => LeavesTo (copyStr vpn.localAddress) configured events next)
    (SeesTo (copyStr vpn.localAddress) configured) touches (by simp) (seesTo_nil configured)
  refine quiet (ask_plain rfl) fun selected => quiet (ask_plain rfl) fun exits => ?_
  refine Ends.ite (fun _ => Ends.pure rfl) fun _ => ?_
  refine quiet (pppdReady_touches selected) fun ready => ?_
  refine Ends.ite (fun _ => ?_) fun _ => Ends.pure rfl
  refine Ends.ite (fun isConfigured => Ends.pure ?_) fun notConfigured => ?_
  · obtain rfl := isConfigured
    exact fun rest sees => sees
  · obtain rfl : configured = false := by simpa using notConfigured
    refine Ends.bind (pppdTryConfigureEndpoint_looks.mono (fun _ _ held => held) fun _ looks => ?_)
      fun found made looks => Ends.pure ?_
    · simpa using looks.seesTo (seesTo_nil true)
    · rw [List.append_nil]
      exact fun rest => looks.seesTo

theorem pppdRounds_seesTo (n : Nat) (configured : Bool) :
    (Process.rounds (pppdRound settings vpn) n configured).Ends
      (fun _ made => SeesTo (copyStr vpn.localAddress) configured (endpointEvents made))
      fun made => SeesTo (copyStr vpn.localAddress) configured (endpointEvents made) := by
  refine @Ends.rounds_from _ _ _ _ _
    (fun configured _ made => SeesTo (copyStr vpn.localAddress) configured (endpointEvents made))
    (fun configured made => SeesTo (copyStr vpn.localAddress) configured (endpointEvents made))
    (fun configured => seesTo_nil configured) (fun configured => ?_) n configured
  refine (pppdRound_leaves configured).mono (fun next made leaves => ?_) fun _ sees => sees
  cases next with
  | inl later =>
      have after : ∀ more, SeesTo (copyStr vpn.localAddress) later (endpointEvents more) →
          SeesTo (copyStr vpn.localAddress) configured (endpointEvents (made ++ more)) := by
        intro more sees
        rw [endpointEvents_append]
        exact leaves _ sees
      exact ⟨fun _ => after, after⟩
  | inr => exact (congrArg (SeesTo _ configured) leaves).mpr (seesTo_nil configured)

end Rounds

/-! ## Runs -/

/-- `PPPDProcess`, left in its loop after so many rounds. -/
def pppdProcessWithin (settings : Settings) (rounds : Nat) (vpn : TVpn) : Driver Unit := do
  let (launched, vpn) ← pppdLaunch vpn
  if launched then
    match ← Process.rounds (pppdRound settings vpn) rounds false with
    | .inl _ => pure ()
    | .inr () => streamClose .pppd

/-- Calls that `PPPDProcess` makes, up to some round or all of them. -/
def PppdRun (settings : Settings) (vpn : TVpn) (env : Environment Answer)
    (made : History Answer) : Prop :=
  ∃ rounds ending, pppdProcessWithin settings rounds vpn env [] = some (ending, made)

theorem pppdRun_of_ended {settings : Settings} {fuel : Nat} {vpn : TVpn}
    {env : Environment Answer} {ending : Ending Unit} {made : History Answer}
    (ended : pppdProcess settings fuel vpn env [] = some (ending, made)) :
    PppdRun settings vpn env made := by
  refine ⟨fuel, ending, ?_⟩
  rw [pppdProcess, bind_run] at ended
  rw [pppdProcessWithin, bind_run]
  rcases launch : pppdLaunch vpn env [] with _ | ⟨⟨launched, vpn'⟩ | _, history⟩
  · rw [launch] at ended
    cases ended
  · rw [launch] at ended
    cases launched with
    | false => exact ended
    | true =>
        dsimp only at ended ⊢
        rw [if_pos rfl, bind_run] at ended ⊢
        rcases looped : Process.loop (pppdRound settings vpn') fuel false env history with
          _ | ⟨result | _, reached⟩
        · rw [looped] at ended
          cases ended
        · rw [rounds_of_loop looped]
          rw [looped] at ended
          exact ended
        · rw [rounds_of_loop looped]
          rw [looped] at ended
          exact ended
  · rw [launch] at ended
    exact ended

theorem PppdRun.spec {settings : Settings} {vpn : TVpn} {env : Environment Answer}
    {made : History Answer} (run : PppdRun settings vpn env made) {property : History Answer → Prop}
    (makes : ∀ rounds, (pppdProcessWithin settings rounds vpn).Makes property property) :
    property made := by
  obtain ⟨rounds, ending, ended⟩ := run
  exact (makes rounds).ended ended

section Claims

variable {settings : Settings} {vpn : TVpn}

theorem pppdProcessWithin_configuresOnce (rounds : Nat) :
    (pppdProcessWithin settings rounds vpn).Makes
      (fun made => ConfiguresOnce (copyStr (pppdLocalAddress vpn)) (endpointEvents made))
      fun made => ConfiguresOnce (copyStr (pppdLocalAddress vpn)) (endpointEvents made) := by
  have quiet : ∀ {features : List Feature} {before : History Answer},
      Only (within features) before → .bracket ∉ features ∧ .devices ∉ features →
        ∀ more, endpointEvents (before ++ more) = endpointEvents more := by
    intro features before only lacks more
    rw [endpointEvents_append, endpointEvents_eq_nil only lacks, List.nil_append]
  have launch := Ends.and (@pppdLaunch_touches vpn) pppdLaunch_yields
  refine Ends.bind (launch.mono (fun _ _ held => held) fun made held => ?_)
    fun launched before held => ?_
  · rw [endpointEvents_eq_nil held.1 (by simp)]
    exact .waits
  obtain ⟨only, same, -⟩ := held
  rcases launched with ⟨launched, vpn'⟩
  obtain rfl : vpn' = { vpn with localAddress := pppdLocalAddress vpn } := same
  simp only [quiet only (by simp)]
  refine Ends.ite (fun _ => ?_) fun _ => Ends.pure .waits
  refine Ends.bind (pppdRounds_seesTo rounds false) fun next made sees => ?_
  cases next with
  | inl =>
      refine Ends.pure ?_
      rw [List.append_nil]
      exact sees
  | inr =>
      have close : Touches (streamClose .pppd) [] := ask_plain rfl
      have after : ∀ more, Only (within []) more → ConfiguresOnce (copyStr (pppdLocalAddress vpn))
          (endpointEvents (made ++ more)) := by
        intro more only
        rw [endpointEvents_append, endpointEvents_eq_nil only (by simp), List.append_nil]
        exact sees
      exact Ends.mono close (fun _ => after) after

end Claims

/-- The devices of a host on which another connection has the default address. -/
def sharedTable : NetTable where
  procNetDev := some "Inter-|   Receive\n face |bytes\n  lo: 0 0\n  ppp0: 0 0\n".toList
  interfaceIP := fun name => if name = "ppp0".toList then "172.16.0.2".toList else []

/-- Another connection is up on this host, and pppd sends two bytes. -/
def sharedHost : Environment Answer
  | _, .streamSelect => some .pppd
  | _, .streamReadBytes _ => ([1, 2] : List UInt8)
  | history, .flagExit => (delivered .remotePeer history ≠ [] : Bool)
  | _, .netLoadDevices => sharedTable
  | history, call => obligingHost history call

theorem pppdProcess_runs_shared :
    ∃ made, pppdProcess plainSettings 2 {} sharedHost [] = some (.returned (), made) ∧
      delivered .remotePeer made = [1, 2] ∧ ups made = ["ppp0".toList] := by
  have run : (pppdProcess plainSettings 2 {} sharedHost []).map
      (fun ended => (ended.1, delivered .remotePeer ended.2, ups ended.2)) =
      some (.returned (), [1, 2], ["ppp0".toList]) := by decide +kernel
  obtain ⟨⟨ending, made⟩, ended, read⟩ := Option.map_eq_some_iff.mp run
  obtain ⟨rfl, readings⟩ := Prod.mk.inj read
  exact ⟨made, ended, Prod.mk.inj readings⟩

end VpnMgr.Client
