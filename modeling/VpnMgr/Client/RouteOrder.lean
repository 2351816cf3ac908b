import VpnMgr.Client.AllowedIps
import VpnMgr.Client.Footprint
import VpnMgr.Machine.Contract

/-!
# The order of the routes

`RouteSetupVpnServer` adds a route to the server over the default gateway
before any link goes up; the routes of `RouteSetup` lead into the link that
went up last.
-/

namespace VpnMgr.Client

open Machine Text CString LibUseful Command Process

/-! ## The monitor -/

/-- The command of `RouteSetupVpnServer`. -/
def serverCommand (address : CPtr) (gateway : CString) : CString :=
  mCopyStr [some "route add -host ".toList, address, some " gw ".toList, some gateway]

structure RouteState where
  /-- `/proc/net/route`, as it was read last -/
  table : CString := []
  /-- the route to the server was asked for -/
  asked : Bool := false
  /-- the link that went up last -/
  dev : Option CString := none

open Classical in
/-- Before the first link goes up there is one route at most, to the server over
the default gateway; afterwards the routes are those of `AllowedIPs`.  With a
`server` no link goes up before its route was asked for. -/
noncomputable def routeStep (server : Option CPtr) (allowed : CPtr) (state : RouteState) :
    Sigma Answer → Option RouteState
  | ⟨.readFile path, (text : CString)⟩ =>
      some (if path = procNetRoute then { state with table := text } else state)
  | ⟨.vpnUp dev, _⟩ =>
      if server.isSome && !state.asked then none else some { state with dev := some dev }
  | ⟨.runCommand text _, _⟩ =>
      if commandFeature text ≠ .addRoute then some state
      else match state.dev with
        | none =>
            if state.asked = false ∧ ∃ address, (∀ host, server = some host → address = host) ∧
                text = serverCommand address (routeGetDefault state.table) then
              some { state with asked := true }
            else none
        | some dev => if text ∈ routeCommands allowed dev then some state else none
  | _ => some state

/-- The server of a URL whose route comes before each link; the SSH clients add
one only for a server of `~/.ssh/config`, openvpn sees to it itself. -/
def routedServer (settings : Settings) (vpn : TVpn) : Protocol → Option CPtr
  | .wireguard =>
      if vpn.action = .connect && !strValid vpn.confFile then
        some (settings.unpackURL vpn.server).host
      else none
  | .pppTls => some (settings.unpackURL vpn.server).host
  | _ => none

section Drivers

variable {server : Option CPtr} {allowed : CPtr} {settings : Settings} {fuel : Nat} {vpn : TVpn}

def Down (state : RouteState) : Prop := state.dev = none ∧ state.asked = false

def Ready (server : Option CPtr) (state : RouteState) : Prop :=
  server.isSome = true → state.asked = true

def IgnoresTable (held : RouteState → Prop) : Prop :=
  ∀ state text, held state → held { state with table := text }

theorem ignoresTable_down : IgnoresTable Down := fun _ _ => id

theorem ignoresTable_ready : IgnoresTable (Ready server) := fun _ _ => id

/-- Parts of a driver that add no route and bring no link up. -/
theorem Touches.follows {α : Type} {process : Driver α} {features : List Feature}
    {held : RouteState → Prop} (touches : Touches process features)
    (noRoute : Feature.addRoute ∉ features) (noLink : Feature.bracket ∉ features)
    (ignores : IgnoresTable held) :
    process.Follows (routeStep server allowed) held fun _ => held := by
  refine Follows.of_uses touches fun state interaction inside isHeld => ?_
  have feature : featureOf interaction.1 ≠ .addRoute ∧ featureOf interaction.1 ≠ .bracket := by
    constructor
    all_goals
      intro is
      simp [within, is, noRoute, noLink] at inside
  obtain ⟨call, answer⟩ := interaction
  cases call with
  | readFile path =>
      by_cases isTable : path = procNetRoute
      · exact ⟨_, congrArg some (if_pos isTable), ignores state answer isHeld⟩
      · exact ⟨_, congrArg some (if_neg isTable), isHeld⟩
  | runCommand text flags => exact ⟨state, if_pos feature.1, isHeld⟩
  | vpnUp dev => exact absurd rfl feature.2
  | _ => exact ⟨state, rfl, isHeld⟩

theorem runCommand_follows {text : CString} {flags : FlagWord} {held later : RouteState → Prop}
    (accepted : ∀ state answer, held state →
      ∃ next, routeStep server allowed state ⟨.runCommand text flags, answer⟩ = some next ∧
        later next) :
    (runCommand text flags).Follows (routeStep server allowed) held fun _ => later := by
  refine Follows.bind (Follows.ask accepted) fun answer => ?_
  cases answer with
  | some status => exact .pure fun _ => id
  | none => exact .exit

theorem command_follows {text : CString} {held later : RouteState → Prop}
    (accepted : ∀ state answer, held state →
      ∃ next, routeStep server allowed state ⟨.runCommand text cmdAsRoot, answer⟩ = some next ∧
        later next) :
    (command text).Follows (routeStep server allowed) held fun _ => later :=
  (runCommand_follows accepted).bind fun _ => .pure fun _ => id

theorem routeStep_server {text : CString} {flags : FlagWord} {answer : Option RunCmd}
    {address : CPtr} {state : RouteState} (isRoute : commandFeature text = .addRoute)
    (down : Down state) (isServer : ∀ host, server = some host → address = host)
    (same : text = serverCommand address (routeGetDefault state.table)) :
    routeStep server allowed state ⟨.runCommand text flags, answer⟩ =
      some { state with asked := true } := by
  refine (if_neg (not_not.mpr isRoute)).trans ?_
  rw [down.1]
  exact if_pos ⟨down.2, address, isServer, same⟩

theorem routeStep_allowed {text dev : CString} {flags : FlagWord} {answer : Option RunCmd}
    {state : RouteState} (isRoute : commandFeature text = .addRoute) (up : state.dev = some dev)
    (member : text ∈ routeCommands allowed dev) :
    routeStep server allowed state ⟨.runCommand text flags, answer⟩ = some state := by
  refine (if_neg (not_not.mpr isRoute)).trans ?_
  rw [up]
  exact if_pos member

theorem routeSetupVpnServer_follows {destAddress : CPtr}
    (isServer : ∀ host, server = some host → destAddress = host) :
    (routeSetupVpnServer destAddress).Follows (routeStep server allowed) Down
      fun _ => Ready server := by
  have reads : (readFile procNetRoute).Follows (routeStep server allowed) Down
      fun text state => Down state ∧ state.table = text :=
    Follows.ask fun state text down => ⟨_, congrArg some (if_pos rfl), down, rfl⟩
  refine reads.bind fun text => command_follows ?_
  rintro state answer ⟨down, rfl⟩
  exact ⟨_, routeStep_server rfl down isServer rfl, fun _ => rfl⟩

def Up (server : Option CPtr) (dev : CString) (state : RouteState) : Prop :=
  Ready server state ∧ state.dev = some dev

theorem ignoresTable_up (dev : CString) : IgnoresTable (Up server dev) := fun _ _ => id

theorem routeSetup_follows (dev : CString) :
    (routeSetup allowed dev).Follows (routeStep server allowed) (Up server dev)
      fun _ => Up server dev := by
  rw [routeSetup_eq]
  refine Follows.each fun text member => command_follows ?_
  rintro state answer ⟨ready, up⟩
  have feature : commandFeature text = .addRoute := by
    obtain ⟨address, -, rfl⟩ := List.mem_map.mp member
    exact routeCommand_feature _ _
  exact ⟨state, routeStep_allowed feature up member, ready, up⟩

theorem netSetup_follows (listed : vpn.allowedIPs = allowed) (dev : CString) :
    (netSetup settings vpn dev).Follows (routeStep server allowed) (Up server dev)
      fun _ => Up server dev := by
  have ifconfig : Touches (command (ifconfigCommand vpn dev)) [] := by
    apply command_plain
    unfold ifconfigCommand
    split <;> rfl
  refine Follows.bind (Follows.when fun _ => ?_) fun _ => ?_
  · exact ifconfig.follows (by decide) (by decide) (ignoresTable_up dev)
  refine Follows.bind (Follows.when fun _ => ?_) fun _ => Follows.when fun _ => ?_
  · rw [listed]
    exact routeSetup_follows dev
  · exact (resolvChange_touches _ _).follows (by decide) (by decide) (ignoresTable_up dev)

theorem vpnUp_follows (listed : vpn.allowedIPs = allowed) (dev : CString) :
    (vpnUp settings vpn dev).Follows (routeStep server allowed) (Ready server)
      fun _ => Ready server := by
  have enters : (ask (.vpnUp dev) : Driver Unit).Follows (routeStep server allowed) (Ready server)
      fun _ => Up server dev := by
    refine Follows.ask fun state _ ready => ⟨{ state with dev := some dev }, if_neg ?_, ready, rfl⟩
    rw [Bool.and_eq_true, Bool.not_eq_true']
    rintro ⟨isSome, notAsked⟩
    rw [ready isSome] at notAsked
    cases notAsked
  refine enters.bind fun _ => Follows.bind (netSetup_follows listed dev) fun _ => ?_
  have scripts : Touches (Process.when (strValid vpn.upFile)
      (upDownRunFiles vpn vpn.upFile dev)) [.script] := Uses.when (upDownRunFiles_touches _ _)
  refine (scripts.follows (by decide) (by decide) (ignoresTable_up dev)).mono (fun _ => id) ?_
  exact fun _ state up => up.1

theorem vpnDown_follows (dev : CString) :
    (vpnDown vpn dev).Follows (routeStep server allowed) (Ready server)
      fun _ => Ready server := by
  refine Follows.bind (Follows.ask fun state _ ready => ⟨state, rfl, ready⟩) fun _ => ?_
  exact (vpnDownBody_touches dev).follows (by decide) (by decide) ignoresTable_ready

theorem wireguardFormatCommand_follows (dev : CString)
    (isServer : server = routedServer settings vpn .wireguard) :
    (wireguardFormatCommand settings vpn dev).Follows (routeStep server allowed) Down
      fun _ => Ready server := by
  have unneeded : server = none → ∀ state : RouteState, Ready server state := by
    rintro rfl state isSome
    cases isSome
  unfold wireguardFormatCommand
  split
  case isTrue file =>
      have none : server = none := by simpa [routedServer, file] using isServer
      exact .pure fun state _ => unneeded none state
  case isFalse noFile =>
      have file := @readNamedFile_touches [] vpn.verifyCert
      refine Follows.bind (file.follows (by decide) (by decide) ignoresTable_down) fun _ => ?_
      refine Follows.bind ?_ fun _ => .pure fun _ => id
      unfold Process.when
      split
      case isTrue connects =>
          refine routeSetupVpnServer_follows fun host isHost => ?_
          rw [isServer] at isHost
          simpa [routedServer, noFile, of_decide_eq_true connects] using isHost
      case isFalse serves =>
          have none : server = none := by
            simpa [routedServer, of_decide_eq_false (eq_false_of_ne_true serves)] using isServer
          exact .pure fun state _ => unneeded none state

theorem wireguardUp_follows (listed : vpn.allowedIPs = allowed)
    (isServer : server = routedServer settings vpn .wireguard) :
    (wireguardUp settings fuel vpn).Follows (routeStep server allowed) Down fun _ _ => True := by
  refine Follows.bind (wireguardDevice_touches.follows (by decide) (by decide) ignoresTable_down)
    fun dev => .ite (fun _ => ?_) fun _ => .pure fun _ _ => trivial
  refine Follows.bind ((tunSetup_touches _ _ _).follows (by decide) (by decide) ignoresTable_down)
    fun status => ?_
  refine Follows.bind (Follows.when fun _ => (wireguardUserspace_touches dev).follows (by decide)
    (by decide) ignoresTable_down) fun _ => ?_
  refine (wireguardFormatCommand_follows dev isServer).bind_yields (wireguardFormatCommand_wg dev)
    fun text isWg => ?_
  have sets : Touches (runCommand text cmdAsRoot) [.wg] :=
    runCommand_touches .wg isWg (by decide)
  refine Follows.bind (sets.follows (by decide) (by decide) ignoresTable_ready) fun status => ?_
  refine .ite (fun _ => ?_) fun _ => .pure fun _ _ => trivial
  refine (vpnUp_follows listed dev).bind fun _ => ?_
  have waits : Touches (drainLines fuel .terminal) [] := drainLines_touches (by decide)
  refine Follows.bind (waits.follows (by decide) (by decide) ignoresTable_ready) fun _ => ?_
  refine ((tunShutdown_touches dev).follows (by decide) (by decide) ignoresTable_ready).mono
    (fun _ => id) fun _ _ _ => trivial

theorem openVpnUp_follows (listed : vpn.allowedIPs = allowed) :
    (openVpnUp settings fuel vpn).Follows (routeStep none allowed) Down fun _ _ => True := by
  have ready : ∀ state : RouteState, Ready none state := fun _ isSome => by cases isSome
  refine Follows.bind ((@tunAvailable_touches []).follows (by decide) (by decide) ignoresTable_down)
    fun available => .ite (fun _ => ?_) fun _ => .pure fun _ _ => trivial
  refine Follows.bind ((@defaultDevGetMTU_touches []).follows (by decide) (by decide)
    ignoresTable_down) fun _ => ?_
  refine Follows.bind (Follows.when fun _ => openVpnGenPasswordFile_touches.follows (by decide)
    (by decide) ignoresTable_down) fun _ => ?_
  have launches := @runCommandOpen_touches [.launch] (openVpnCommand settings vpn)
    (cmdAsRoot ||| cmdKill) (by decide)
  refine Follows.bind (launches.follows (by decide) (by decide) ignoresTable_down) fun opened => ?_
  refine .ite (fun _ => ?_) fun _ => .pure fun _ _ => trivial
  have processes : (openVpnProcess settings fuel vpn).Follows (routeStep none allowed) (Ready none)
      fun _ => Ready none := by
    refine @Follows.loop _ _ _ _ _ _ _ _ (fun _ => Ready none) (fun dev => ?_) fuel _
    have reads : Touches (streamReadLine .openvpn) [.log] :=
      Uses.ask (within_of_mem .log rfl (by decide))
    refine Follows.bind (reads.follows (by decide) (by decide) ignoresTable_ready) fun line => ?_
    cases line with
    | none => exact .pure fun _ => id
    | some line =>
        refine Follows.bind ((@ask_plain [] .flagExit rfl : Touches exiting []).follows (by decide)
          (by decide) ignoresTable_ready) fun _ => .ite (fun _ => .pure fun _ => id) fun _ => ?_
        exact Follows.bind (Follows.when fun _ => vpnUp_follows listed _) fun _ =>
          .pure fun _ => id
  refine Follows.bind (processes.mono (fun state _ => ready state) fun _ _ => id) fun dev => ?_
  exact ((openVpnShutDown_touches dev).follows (by decide) (by decide) ignoresTable_ready).mono
    (fun _ => id) fun _ _ _ => trivial

theorem ready_none (state : RouteState) : Ready none state := fun isSome => by cases isSome

theorem sshVpnConnect_follows (command : CString) :
    (sshVpnConnect settings fuel vpn command).Follows (routeStep none allowed) Down
      fun _ => Ready none := by
  refine Follows.bind ((@sshHostLookupIP_touches [] settings fuel _).follows (by decide)
    (by decide) ignoresTable_down) fun ip => ?_
  have route : (Process.when (strValid (some ip)) (routeSetupVpnServer (some ip))).Follows
      (routeStep none allowed) Down fun _ => Ready none := by
    unfold Process.when
    split
    · exact routeSetupVpnServer_follows fun host isHost => by cases isHost
    · exact .pure fun state _ => ready_none state
  refine route.bind fun _ => ?_
  have launches := @runCommandOpen_touches [.launch] (sshCommand settings vpn command) 0 (by decide)
  refine Follows.bind (launches.follows (by decide) (by decide) ignoresTable_ready) fun opened => ?_
  have greets : Touches (do
      streamWriteLine .ssh
        "export LC_ALL=C; export LANG=C; export PS1=\"\"; export PS2=\"\"\n".toList
      sshVpnSync fuel
      pure true) [] :=
    Uses.bind (ask_plain rfl) fun _ => Uses.bind sshVpnSync_touches fun _ => .pure _
  exact .ite (fun _ => greets.follows (by decide) (by decide) ignoresTable_ready) fun _ =>
    .pure fun _ => id

/-- `SSHSetup` sets the local address and nothing else. -/
theorem sshSetup_address : (sshSetup settings fuel vpn).Yields fun outcome _ =>
    ∃ address, outcome.2 = { vpn with localAddress := address } := by
  have address : (sshLocalAddress vpn).Yields fun later _ =>
      ∃ address, later = { vpn with localAddress := address } := by
    unfold sshLocalAddress
    split
    · exact Ends.pure ⟨vpn.localAddress, rfl⟩
    · exact Ends.bind (Uses.yields (@netGetDefaultIP_touches [])) fun ip _ _ =>
        Ends.pure ⟨some ip, rfl⟩
  have route (dev : CString) : (sshSetupRoute settings fuel vpn dev).Yields fun later _ =>
      ∃ address, later = { vpn with localAddress := address } := by
    refine address.bind fun later _ same => ?_
    refine Ends.bind (@Uses.yields _ _ _ _ (within [.question]) (Uses.when ?_))
      fun _ _ _ => Ends.pure same
    exact Uses.bind (sshVpnRunCommand_touches _ _) fun _ => .pure ()
  refine Ends.bind (Uses.yields (@ask_plain [] _ rfl)) fun _ _ _ => ?_
  refine Ends.bind (Uses.yields (@sshVpnSync_touches [] fuel)) fun _ _ _ => ?_
  refine Ends.bind (Uses.yields sshGetRemoteDev_touches) fun dev _ _ => ?_
  split
  · exact (route dev).bind fun _ _ same => Ends.pure same
  · exact Ends.pure ⟨vpn.localAddress, rfl⟩

theorem sshVpnSession_follows (listed : vpn.allowedIPs = allowed) (dev : CString) :
    (sshVpnSession settings fuel vpn dev).Follows (routeStep none allowed) (Ready none)
      fun _ => Ready none := by
  have setup : (sshSetup settings fuel vpn).Follows (routeStep none allowed) (Ready none)
      fun _ => Ready none :=
    sshSetup_touches.follows (by decide) (by decide) ignoresTable_ready
  refine setup.bind_yields sshSetup_address fun outcome same => ?_
  obtain ⟨ready, later⟩ := outcome
  obtain ⟨address, rfl⟩ := same
  refine Follows.bind (Follows.when fun _ => ?_) fun _ => ?_
  · refine (vpnUp_follows (by exact listed) dev).bind fun _ => ?_
    exact (@sshProcess_touches [] fuel).follows (by decide) (by decide) ignoresTable_ready
  refine Follows.bind ((@ask_plain [] (.runCommandCleanUp cmdKill) rfl).follows (by decide)
    (by decide) ignoresTable_ready) fun _ => ?_
  refine Follows.bind ((@ask_plain [] (.streamClose .ssh) rfl).follows (by decide) (by decide)
    ignoresTable_ready) fun _ => vpnDown_follows dev

theorem sshVpnUp_follows (listed : vpn.allowedIPs = allowed) :
    (sshVpnUp settings fuel vpn).Follows (routeStep none allowed) Down fun _ _ => True := by
  refine Follows.bind ((@sshVpnValidate_touches [] settings fuel vpn).follows (by decide)
    (by decide) ignoresTable_down) fun valid => .ite (fun _ => ?_) fun _ => .pure fun _ _ => trivial
  refine Follows.bind (sshDevice_touches.follows (by decide) (by decide) ignoresTable_down)
    fun dev => .ite (fun _ => ?_) fun _ => .pure fun _ _ => trivial
  refine Follows.bind ((tunSetup_touches _ _ _).follows (by decide) (by decide) ignoresTable_down)
    fun _ => ?_
  refine (sshVpnConnect_follows _).bind fun connected => .ite (fun _ => ?_) fun _ =>
    .pure fun _ _ => trivial
  exact (sshVpnSession_follows listed dev).mono (fun _ => id) fun _ _ _ => trivial

theorem pppdProcess_follows (listed : vpn.allowedIPs = allowed) :
    (pppdProcess settings fuel vpn).Follows (routeStep server allowed) (Ready server)
      fun _ _ => True := by
  have launch : (pppdLaunch vpn).Follows (routeStep server allowed) (Ready server)
      fun _ => Ready server :=
    pppdLaunch_touches.follows (by decide) (by decide) ignoresTable_ready
  have keeps : (pppdLaunch vpn).Yields fun outcome _ =>
      outcome.2 = { vpn with localAddress := pppdLocalAddress vpn } :=
    Ends.mono pppdLaunch_yields (fun _ _ => And.left) fun _ => id
  refine launch.bind_yields keeps fun outcome same => ?_
  obtain ⟨launched, later⟩ := outcome
  obtain rfl := same
  refine .ite (fun _ => ?_) fun _ => .pure fun _ _ => trivial
  refine Follows.bind (@Follows.loop _ _ _ _ _ _ (fun _ => Ready server) _ (fun _ => Ready server)
    (fun configured => ?_) fuel false) fun _ => ?_
  · refine Follows.bind ((@ask_plain [] .streamSelect rfl).follows (by decide) (by decide)
      ignoresTable_ready) fun selected => ?_
    refine Follows.bind ((@ask_plain [] .flagExit rfl : Touches exiting []).follows (by decide)
      (by decide) ignoresTable_ready) fun _ => .ite (fun _ => .pure fun _ => id) fun _ => ?_
    refine Follows.bind ((@pppdReady_touches [] selected).follows (by decide) (by decide)
      ignoresTable_ready) fun _ => .ite (fun _ => ?_) fun _ => .pure fun _ => id
    refine .ite (fun _ => .pure fun _ => id) fun _ => ?_
    refine Follows.bind ?_ fun _ => .pure fun _ => id
    have looks : Touches devices [.devices] := devices_touches (by decide)
    refine Follows.bind (looks.follows (by decide) (by decide) ignoresTable_ready) fun _ => ?_
    refine .ite (fun _ => ?_) fun _ => .pure fun _ => id
    exact (vpnUp_follows (by exact listed) _).bind fun _ => .pure fun _ => id
  · exact ((@ask_plain [] (.streamClose .pppd) rfl).follows (by decide) (by decide)
      ignoresTable_ready).mono (fun _ => id) fun _ _ _ => trivial

theorem pppSshVpnUp_follows (listed : vpn.allowedIPs = allowed) :
    (pppSshVpnUp settings fuel vpn).Follows (routeStep none allowed) Down fun _ _ => True := by
  refine Follows.bind ((@sshVpnValidate_touches [] settings fuel vpn).follows (by decide)
    (by decide) ignoresTable_down) fun valid => .ite (fun _ => ?_) fun _ => .pure fun _ _ => trivial
  refine (sshVpnConnect_follows _).bind fun connected => .ite (fun _ => ?_) fun _ =>
    .pure fun _ _ => trivial
  refine Follows.bind ((@sshHostFindCommand_touches [] _ _).follows (by decide) (by decide)
    ignoresTable_ready) fun found => ?_
  refine Follows.bind ((sshVpnRunCommand_touches _ _).follows (by decide) (by decide)
    ignoresTable_ready) fun _ => ?_
  apply pppdProcess_follows
  split
  · exact listed
  · exact listed

theorem pppSslClientVpnUp_follows (listed : vpn.allowedIPs = allowed)
    (isServer : server = routedServer settings vpn .pppTls) :
    (pppSslClientVpnUp settings fuel vpn).Follows (routeStep server allowed) Down
      fun _ _ => True := by
  refine Follows.bind (routeSetupVpnServer_follows fun host isHost => ?_) fun _ => ?_
  · obtain rfl := isServer
    exact Option.some.inj isHost
  have connects : Touches (streamOpen .remotePeer (mCopyStr [some "tls:".toList,
      (settings.unpackURL vpn.server).host, some ":".toList, (settings.unpackURL vpn.server).port])
      (tlsConfig vpn)) [.rewrite] := by
    apply Uses.ask
    by_cases writes : tlsConfig vpn = "w".toList
    · exact within_of_mem .rewrite (if_pos writes) (by decide)
    · apply within_plain
      show (if tlsConfig vpn = "w".toList then Feature.rewrite else .plain) = .plain
      exact if_neg writes
  refine Follows.bind (connects.follows (by decide) (by decide) ignoresTable_ready) fun opened => ?_
  refine .ite (fun _ => ?_) fun _ => .pure fun _ _ => trivial
  refine Follows.bind ((@ask_plain [] (.streamGetValue .remotePeer "SSL:CertificateVerify".toList)
    rfl).follows (by decide) (by decide) ignoresTable_ready) fun verified => ?_
  apply pppdProcess_follows
  split
  · exact listed
  · exact listed

theorem protocolUp_follows (protocol : Protocol) :
    (protocolUp settings fuel vpn protocol).Follows
      (routeStep (routedServer settings vpn protocol) vpn.allowedIPs) Down fun _ _ => True := by
  cases protocol with
  | wireguard => exact wireguardUp_follows rfl rfl
  | ssh => exact sshVpnUp_follows rfl
  | openVpn => exact openVpnUp_follows rfl
  | pppSsh => exact pppSshVpnUp_follows rfl
  | pppTls => exact pppSslClientVpnUp_follows rfl rfl

inductive RouteMove (server : Option CPtr) (allowed : CPtr) (state : RouteState) :
    Sigma Answer → RouteState → Prop
  | reads (text : CString) :
      RouteMove server allowed state ⟨.readFile procNetRoute, text⟩ { state with table := text }
  | linkUp (dev : CString) (ready : Ready server state) :
      RouteMove server allowed state ⟨.vpnUp dev, ()⟩ { state with dev := some dev }
  | serverRoute (address : CPtr) (flags : FlagWord) (answer : Option RunCmd) (down : Down state)
      (isServer : ∀ host, server = some host → address = host) :
      RouteMove server allowed state
        ⟨.runCommand (serverCommand address (routeGetDefault state.table)) flags, answer⟩
        { state with asked := true }
  | linkRoute (dev text : CString) (flags : FlagWord) (answer : Option RunCmd)
      (isRoute : commandFeature text = .addRoute) (up : state.dev = some dev)
      (listed : text ∈ routeCommands allowed dev) :
      RouteMove server allowed state ⟨.runCommand text flags, answer⟩ state
  | other (interaction : Sigma Answer) (noTable : interaction.1 ≠ .readFile procNetRoute)
      (noLink : ∀ dev, interaction.1 ≠ .vpnUp dev)
      (noRoute : ∀ text flags, interaction.1 = .runCommand text flags →
        commandFeature text ≠ .addRoute) :
      RouteMove server allowed state interaction state

theorem routeMove_of_command {state next : RouteState} {text : CString} {flags : FlagWord}
    {answer : Option RunCmd}
    (stepped : routeStep server allowed state ⟨.runCommand text flags, answer⟩ = some next) :
    RouteMove server allowed state ⟨.runCommand text flags, answer⟩ next := by
  by_cases isRoute : commandFeature text = .addRoute
  · replace stepped := (if_neg (not_not.mpr isRoute)).symm.trans stepped
    split at stepped
    next noLink =>
      split at stepped
      next allowedNow =>
        obtain ⟨notAsked, address, isServer, rfl⟩ := allowedNow
        obtain rfl := Option.some.inj stepped
        exact .serverRoute address flags answer ⟨noLink, notAsked⟩ isServer
      next => cases stepped
    next dev up =>
      split at stepped
      next listed =>
        obtain rfl := Option.some.inj stepped
        exact .linkRoute dev text flags answer isRoute up listed
      next => cases stepped
  · obtain rfl := Option.some.inj ((if_pos isRoute).symm.trans stepped)
    refine .other _ (by simp) (by simp) fun other flags same => ?_
    obtain ⟨rfl, -⟩ := Call.runCommand.inj same
    exact isRoute

theorem routeMove_of_step {state next : RouteState} {interaction : Sigma Answer}
    (stepped : routeStep server allowed state interaction = some next) :
    RouteMove server allowed state interaction next := by
  obtain ⟨call, answer⟩ := interaction
  cases call with
  | readFile path =>
      obtain rfl := Option.some.inj stepped
      split
      case isTrue isTable =>
          obtain rfl := isTable
          exact .reads answer
      case isFalse other => exact .other _ (by simpa using other) (by simp) (by simp)
  | vpnUp dev =>
      by_cases early : (server.isSome && !state.asked) = true
      · cases (if_pos early).symm.trans stepped
      · obtain rfl := Option.some.inj ((if_neg early).symm.trans stepped)
        exact .linkUp dev (by simpa [Ready] using early)
  | runCommand text flags => exact routeMove_of_command stepped
  | _ =>
      obtain rfl := Option.some.inj stepped
      exact .other _ (by simp) (by simp) (by simp)

def tableRead : Sigma Answer → Option CString
  | ⟨.readFile path, (text : CString)⟩ => if path = procNetRoute then some text else none
  | _ => none

/-- `/proc/net/route`, as it was read last. -/
def lastRead (made : History Answer) : CString := (made.filterMap tableRead).getLast?.getD []

theorem lastRead_append (made : History Answer) (interaction : Sigma Answer) :
    lastRead (made ++ [interaction]) = (tableRead interaction).getD (lastRead made) := by
  unfold lastRead
  rw [List.filterMap_append]
  cases read : tableRead interaction with
  | none => rw [List.filterMap_cons_none read, List.filterMap_nil, List.append_nil]; rfl
  | some text => rw [List.filterMap_cons_some read, List.filterMap_nil, List.getLast?_concat]; rfl

theorem tableRead_other {interaction : Sigma Answer}
    (noTable : interaction.1 ≠ .readFile procNetRoute) : tableRead interaction = none := by
  obtain ⟨call, answer⟩ := interaction
  cases call with
  | readFile path => exact if_neg fun isTable => noTable (congrArg Call.readFile isTable)
  | _ => rfl

def LinkUp (made : History Answer) (dev : CString) : Prop := ⟨.vpnUp dev, ()⟩ ∈ made

/-- The route to the server was asked for, by way of the gateway of the table
that was read last, and before any link was up. -/
def AskedFor (server : Option CPtr) (made : History Answer) : Prop :=
  ∃ earlier later address flags answer,
    made = earlier ++ ⟨.runCommand (serverCommand address (routeGetDefault (lastRead earlier)))
      flags, answer⟩ :: later ∧
    (∀ host, server = some host → address = host) ∧ ∀ dev, ¬ LinkUp earlier dev

def NoRoute (made : History Answer) : Prop :=
  ∀ interaction ∈ made, ∀ text flags, interaction.1 = .runCommand text flags →
    commandFeature text ≠ .addRoute

structure Tells (server : Option CPtr) (made : History Answer) (state : RouteState) : Prop where
  table : state.table = lastRead made
  noLink : state.dev = none → ∀ dev, ¬ LinkUp made dev
  link : ∀ dev, state.dev = some dev → LinkUp made dev
  asked : state.asked = true → AskedFor server made
  noRoute : Down state → NoRoute made

theorem NoRoute.append {made : History Answer} {interaction : Sigma Answer} (noRoute : NoRoute made)
    (other : ∀ text flags, interaction.1 = .runCommand text flags →
      commandFeature text ≠ .addRoute) : NoRoute (made ++ [interaction]) := by
  intro call member
  rcases List.mem_append.mp member with before | last
  · exact noRoute call before
  · obtain rfl := List.mem_singleton.mp last
    exact other

theorem AskedFor.append {made : History Answer} (asked : AskedFor server made)
    (more : History Answer) : AskedFor server (made ++ more) := by
  obtain ⟨earlier, later, address, flags, answer, rfl, isServer, noLink⟩ := asked
  exact ⟨earlier, later ++ more, address, flags, answer, by simp, isServer, noLink⟩

theorem linkUp_append {made : History Answer} {interaction : Sigma Answer} {dev : CString} :
    LinkUp (made ++ [interaction]) dev ↔ LinkUp made dev ∨ interaction = ⟨.vpnUp dev, ()⟩ := by
  simp [LinkUp, eq_comm]

theorem Tells.keep {made : History Answer} {state next : RouteState} {interaction : Sigma Answer}
    (tells : Tells server made state) (sameTable : next.table = state.table)
    (sameDev : next.dev = state.dev) (noTable : interaction.1 ≠ .readFile procNetRoute)
    (noLink : ∀ dev, interaction.1 ≠ .vpnUp dev)
    (asked : next.asked = true → AskedFor server (made ++ [interaction]))
    (noRoute : Down next → NoRoute (made ++ [interaction])) :
    Tells server (made ++ [interaction]) next where
  table := by rw [lastRead_append, tableRead_other noTable, sameTable, tells.table]; rfl
  noLink down dev up := by
    rcases linkUp_append.mp up with before | rfl
    · exact tells.noLink (sameDev ▸ down) dev before
    · exact noLink dev rfl
  link dev up := linkUp_append.mpr (.inl (tells.link dev (sameDev ▸ up)))
  asked := asked
  noRoute := noRoute

theorem Tells.step {made : History Answer} {state next : RouteState} {interaction : Sigma Answer}
    (tells : Tells server made state) (move : RouteMove server allowed state interaction next) :
    Tells server (made ++ [interaction]) next := by
  cases move with
  | reads text =>
      refine ⟨?_, fun down dev up => ?_, fun dev up => ?_, fun asked => ?_, fun down => ?_⟩
      · rw [lastRead_append]
        rfl
      · refine tells.noLink down dev ((linkUp_append.mp up).resolve_right fun same => ?_)
        cases congrArg Sigma.fst same
      · exact linkUp_append.mpr (.inl (tells.link dev up))
      · exact (tells.asked asked).append _
      · exact (tells.noRoute down).append (by simp)
  | linkUp dev ready =>
      refine ⟨?_, fun down => ?_, fun other up => ?_, fun asked => (tells.asked asked).append _,
        fun down => ?_⟩
      · rw [lastRead_append]
        exact tells.table
      · cases down
      · obtain rfl := Option.some.inj up
        exact linkUp_append.mpr (.inr rfl)
      · cases down.1
  | serverRoute address flags answer down isServer =>
      refine tells.keep rfl rfl (by simp) (by simp) (fun _ => ?_) fun down => by cases down.2
      refine ⟨made, [], address, flags, answer, ?_, isServer, tells.noLink down.1⟩
      rw [← tells.table]
  | linkRoute dev text flags answer isRoute up listed =>
      refine tells.keep rfl rfl (by simp) (by simp) (fun asked => (tells.asked asked).append _) ?_
      intro down
      rw [down.1] at up
      cases up
  | other _ noTable noLink noRoute =>
      exact tells.keep rfl rfl noTable noLink (fun asked => (tells.asked asked).append _)
        fun down => (tells.noRoute down).append noRoute

theorem tells_run {made : History Answer} {state : RouteState}
    (taken : run (routeStep server allowed) {} made = some state) : Tells server made state := by
  have initial : Tells server [] {} :=
    ⟨rfl, fun _ dev => List.not_mem_nil, fun dev up => absurd up (by simp),
      fun asked => absurd asked (by simp), fun _ _ member => absurd member List.not_mem_nil⟩
  exact run_history initial (fun _ _ _ _ stepped tells => tells.step (routeMove_of_step stepped))
    made taken

/-- Each call of a run is a step of the monitor, from a state that tells of the
calls before it. -/
theorem protocolUp_move {protocol : Protocol} {env : Environment Answer} {ending : Ending Unit}
    {front behind : History Answer} {interaction : Sigma Answer}
    (ran : protocolUp settings fuel vpn protocol env [] =
      some (ending, front ++ interaction :: behind)) :
    ∃ here next, Tells (routedServer settings vpn protocol) front here ∧
      RouteMove (routedServer settings vpn protocol) vpn.allowedIPs here interaction next := by
  obtain ⟨final, taken, -⟩ := (protocolUp_follows protocol).ended ran {} ⟨rfl, rfl⟩
  obtain ⟨here, next, reached, stepped, -⟩ := run_split taken
  exact ⟨here, next, tells_run reached, routeMove_of_step stepped⟩

end Drivers

/-- A host whose default route leads to 192.168.0.1. -/
def routedHost : Environment Answer := fun before call =>
  match call with
  | .readFile _ => "Iface\tDestination\tGateway\neth0\t00000000\t0100A8C0\n".toList
  | call => obligingHost before call

def routedSettings : Settings :=
  { plainSettings with unpackURL := fun _ => ⟨some "10.1.1.1".toList, none, none⟩ }

/-- The server's own address is to be reached through the tunnel. -/
def loopVpn : TVpn := { dev := some "wg0".toList, allowedIPs := some "10.1.1.1".toList }

def loopFront : History Answer :=
  [⟨.runCommand "modprobe wireguard".toList cmdAsRoot, some .okay⟩,
    ⟨.netLoadDevices, ⟨none, fun _ => []⟩⟩,
    ⟨.access tunPath .exists, true⟩,
    ⟨.runCommand "chmod a+rw /dev/net/tun".toList cmdAsRoot, some .okay⟩,
    ⟨.access tunPath .exists, true⟩,
    ⟨.access tunPath .writable, true⟩,
    ⟨.access tunPath .readable, true⟩,
    ⟨.runCommand "ip link add dev wg0 type wireguard".toList cmdAsRoot, some .okay⟩,
    ⟨.runCommand "ip link set up dev wg0".toList cmdAsRoot, some .okay⟩,
    ⟨.netLoadDevices, ⟨none, fun _ => []⟩⟩,
    ⟨.readFile procNetRoute,
      "Iface\tDestination\tGateway\neth0\t00000000\t0100A8C0\n".toList⟩]

def loopServerCall : Sigma Answer :=
  ⟨.runCommand (serverCommand (some "10.1.1.1".toList) "192.168.0.1".toList) cmdAsRoot, some .okay⟩

def loopSetCall : Sigma Answer :=
  ⟨.runCommand (wgSetCommand loopVpn "wg0".toList [] (some "10.1.1.1".toList)
    (some "51820".toList)) cmdAsRoot, some .okay⟩

def loopLater : History Answer :=
  [loopSetCall,
    ⟨.vpnUp "wg0".toList, ()⟩,
    ⟨.runCommand "route add -host 10.1.1.1 wg0".toList cmdAsRoot, some .okay⟩]

def loopRest : History Answer :=
  [⟨.streamReadLine .terminal, none⟩,
    ⟨.tunShutdown "wg0".toList, ()⟩,
    ⟨.runCommand "ip link set dev wg0 down ".toList cmdAsRoot, some .okay⟩,
    ⟨.runCommand "ip link delete dev wg0".toList cmdAsRoot, some .okay⟩]

theorem loop_runs : protocolUp routedSettings 1 loopVpn .wireguard routedHost [] =
    some (.returned (), loopFront ++ loopServerCall :: (loopLater ++ loopRest)) := rfl

/-- Where a driver routes the server of its URL, each link goes up after that,
and the gateway is that of the table as it was before the first link. -/
theorem link_after_serverRoute {settings : Settings} {fuel : Nat} {vpn : TVpn}
    {protocol : Protocol} {env : Environment Answer} {ending : Ending Unit}
    {front behind : History Answer} {dev : CString}
    (routed : (routedServer settings vpn protocol).isSome = true)
    (ran : protocolUp settings fuel vpn protocol env [] =
      some (ending, front ++ ⟨.vpnUp dev, ()⟩ :: behind)) :
    AskedFor (routedServer settings vpn protocol) front := by
  obtain ⟨here, next, tells, move⟩ := protocolUp_move ran
  cases move with
  | linkUp _ ready => exact tells.asked (ready routed)
  | other _ noTable noLink => exact absurd rfl (noLink dev)

theorem link_after_serverRoute_loop :
    AskedFor (some (some "10.1.1.1".toList)) (loopFront ++ [loopServerCall, loopSetCall]) := by
  have ran : protocolUp routedSettings 1 loopVpn .wireguard routedHost [] =
      some (.returned (), (loopFront ++ [loopServerCall, loopSetCall]) ++
        ⟨.vpnUp "wg0".toList, ()⟩ :: (loopLater.drop 2 ++ loopRest)) := loop_runs
  exact link_after_serverRoute (by decide) ran

end VpnMgr.Client
