import VpnMgr.Client.DefaultRoute
import VpnMgr.Client.Footprint
import VpnMgr.Client.GeneratedCommands
import VpnMgr.Client.Watch

/-!
# The drivers under the monitor

Every part of a driver with the streams it leaves open, and what its commands
rest on.
-/

namespace VpnMgr.Client

open Machine Text CString LibUseful Command Process Shell

/-! ## Tame connections -/

def harmlessUrl (url : Url) : Bool :=
  harmless (copyStr url.host) && harmless (copyStr url.port) && harmless (copyStr url.user)

/-- The fields that a driver writes into commands. -/
def commandFields (vpn : TVpn) : List CPtr :=
  [vpn.name, vpn.dev, vpn.remoteDev, vpn.server, vpn.confFile, vpn.localAddress, vpn.remoteAddress,
    vpn.allowedIPs, vpn.clientCert, vpn.clientKey, vpn.verifyCert, vpn.preSharedKey, vpn.ciphers,
    vpn.pppAuth]

def isScriptName (token : CString) : Bool :=
  isPlainWord token && namesProgram [token] && hasPrefix "/".toList token

/-- No text of the connection and of its user has a meaning to the shell. -/
structure TameContext (settings : Settings) (vpn : TVpn) : Prop where
  homeDir : harmless settings.homeDir = true
  parsed : harmlessUrl (settings.parseURL vpn.server) = true
  unpacked : harmlessUrl (settings.unpackURL vpn.server) = true
  fields : ∀ field ∈ commandFields vpn, harmless (copyStr field) = true
  /-- the routing table is no key file -/
  keyFile : copyStr vpn.verifyCert ≠ procNetRoute
  /-- `VpnCtxCreate` sets these -/
  set : vpn.name.isSome && vpn.server.isSome && vpn.localAddress.isSome && vpn.remoteAddress.isSome
  upScripts : ∀ token ∈ getTokens vpn.upFile ":".toList noFlags, isScriptName token = true
  downScripts : ∀ token ∈ getTokens vpn.downFile ":".toList noFlags, isScriptName token = true

section Drivers

variable {protocol : Protocol} {opened : List StreamId} {given : Prop} {settings : Settings}
  {fuel : Nat} {vpn : TVpn}

theorem TameContext.field (tame : TameContext settings vpn) {field : CPtr}
    (member : field ∈ commandFields vpn) : harmless (copyStr field) = true :=
  tame.fields field member

theorem shared_mem (protocol : Protocol) :
    "route".toList ∈ programsOf protocol ∧ "ifconfig".toList ∈ programsOf protocol ∧
      "mv".toList ∈ programsOf protocol := by
  cases protocol <;> decide

theorem harmless_routeParseHexAddress (address : CString) :
    harmless (routeParseHexAddress address) = true := by
  refine harmless_intercalate (by decide) fun part member => ?_
  obtain ⟨pair, -, rfl⟩ := List.mem_map.mp member
  exact harmless_formatInt _

theorem harmless_routeGetDefault (text : CString) : harmless (routeGetDefault text) = true := by
  unfold routeGetDefault
  refine List.foldlRecOn _ _ (motive := fun found => harmless found = true) rfl
    fun found isHarmless entry _ => ?_
  split
  · exact harmless_routeParseHexAddress _
  · exact isHarmless

theorem routeSetupVpnServer_keeps (destAddress : CPtr) :
    Keeps protocol opened (harmless (copyStr destAddress) = true)
      (routeSetupVpnServer destAddress) := by
  refine Monitored.bind (readFile_monitored _) fun table => ?_
  refine command_harmless "route" rfl (shared_mem protocol).1 fun tame => ?_
  exact harmless_cons (by decide) (harmless_cons tame.1 (harmless_cons (by decide)
    (harmless_cons (harmless_routeGetDefault table) rfl)))

theorem routeSetup_keeps (destAddressList : CPtr) (dev : CString) :
    Keeps protocol opened (harmless (copyStr destAddressList) = true ∧ harmless dev = true)
      (routeSetup destAddressList dev) := by
  refine Keeps.each fun address member => command_harmless "route" ?_ (shared_mem protocol).1 ?_
  · unfold routeCommand
    repeat' split
    all_goals rfl
  · rintro ⟨listTame, devTame⟩
    have entry := harmless_stripTrailing
      (harmless_stripLeading (harmless_getTokens listTame _ rfl member))
    have tail : harmless (mCopyStr [some dev]) = true := harmless_cons devTame rfl
    unfold routeCommand
    split
    · exact harmless_cons (by decide) tail
    · split
      · exact harmless_cons (by decide) (harmless_cons entry (harmless_cons (by decide) tail))
      · exact harmless_cons (by decide) (harmless_cons entry (harmless_cons (by decide) tail))

theorem defaultDevGetMTU_keeps : Keeps protocol opened given defaultDevGetMTU :=
  Monitored.bind (readFile_monitored _) fun _ =>
    (readFile_monitored _).mono (fun _ => trivial) fun _ _ _ => trivial

theorem netGetDefaultIP_monitored :
    Monitored protocol opened given netGetDefaultIP (fun _ => opened) fun ip =>
      harmless ip = true :=
  Monitored.bind (readFile_monitored _) fun table =>
    ask_monitored (.getInterfaceIP (routeGetDefaultDev table)) rfl rfl rfl rfl rfl
      fun _ _ tame => tame

def NoFiles (opened : List StreamId) : Prop := ∀ path, isOpen opened (.file path) = false

theorem resolvChange_keeps (noFiles : NoFiles opened) (pid : Nat) (nameservers : CPtr) :
    Keeps protocol opened given (resolvChange pid nameservers) := by
  refine Monitored.bind (fileOpen_monitored _ _ (noFiles _)) fun success => ?_
  refine Monitored.bind (when_opened success ?_) fun _ => ?_
  · refine Monitored.bind (Keeps.each fun token _ => streamWriteLine_keeps isOpen_head _) fun _ => ?_
    exact streamClose_monitored
  refine Monitored.bind (command_harmless "mv" rfl (shared_mem protocol).2.2 fun _ => by decide) fun _ => ?_
  refine command_harmless "mv" rfl (shared_mem protocol).2.2 fun _ => ?_
  have temp : harmless (resolvTemp pid) = true :=
    harmless_append (harmless_append (by decide) (harmless_decimal pid)) (by decide)
  exact harmless_cons (by decide) (harmless_cons temp (harmless_cons (by decide) rfl))

theorem harmless_ifconfigCommand (tame : TameContext settings vpn) {dev : CString}
    (devTame : harmless dev = true) : harmless (ifconfigCommand vpn dev) = true := by
  have start : harmless (mCopyStr [some "ifconfig ".toList, some dev, some " ".toList,
      vpn.localAddress]) = true :=
    harmless_cons (by decide) (harmless_cons devTame (harmless_cons (by decide)
      (harmless_cons (tame.field (by simp [commandFields])) rfl)))
  unfold ifconfigCommand
  split
  · have peer : harmless (mCopyStr [some " pointopoint ".toList, vpn.remoteAddress]) = true :=
      harmless_cons (by decide) (harmless_cons (tame.field (by simp [commandFields])) rfl)
    exact harmless_append start peer
  · exact start

theorem netSetup_keeps (noFiles : NoFiles opened) (dev : CString) :
    Keeps protocol opened (TameContext settings vpn ∧ harmless dev = true)
      (netSetup settings vpn dev) := by
  have starts : hasPrefix ("ifconfig".toList ++ [' ']) (ifconfigCommand vpn dev) = true := by
    unfold ifconfigCommand
    split <;> rfl
  refine Monitored.bind (Keeps.when fun _ => command_harmless "ifconfig" starts
    (shared_mem protocol).2.1 fun held => harmless_ifconfigCommand held.1 held.2) fun _ => ?_
  refine Monitored.bind (Keeps.when fun _ => (routeSetup_keeps _ _).mono fun held =>
    ⟨held.1.1.field (by simp [commandFields]), held.1.2⟩) fun _ => ?_
  exact Keeps.when fun _ => resolvChange_keeps noFiles _ _

theorem netShutdown_keeps (bringsLinks : "ip".toList ∈ programsOf protocol) (dev : CString) :
    Keeps protocol opened (harmless dev = true) (netShutdown dev) := by
  refine Monitored.bind (command_harmless "ifconfig" rfl (shared_mem protocol).2.1 fun tame => ?_)
    fun _ => ?_
  · exact harmless_cons (by decide) (harmless_cons tame (harmless_cons (by decide) rfl))
  · refine command_harmless "ip" rfl bringsLinks fun tame => ?_
    exact harmless_cons (by decide) (harmless_cons tame.1 rfl)

theorem exists_unquoted {p : CPtr} (isSet : p.isSome = true) (tame : harmless (copyStr p) = true) :
    ∃ text, p = some text ∧ '\'' ∉ text := by
  obtain ⟨text, rfl⟩ := Option.isSome_iff_exists.mp isSet
  exact ⟨text, rfl, not_quote_of_harmless tame⟩

/-- A script gets its five words. -/
theorem isScriptCommand_upDownCommand (tame : TameContext settings vpn) {token dev : CString}
    (scriptName : isScriptName token = true) (devTame : harmless dev = true) :
    isScriptCommand (upDownCommand vpn token (some dev)) = true := by
  simp only [isScriptName, Bool.and_eq_true] at scriptName
  obtain ⟨⟨plain, named⟩, full⟩ := scriptName
  have sets := tame.set
  simp only [Bool.and_eq_true] at sets
  obtain ⟨name, isName, nameTame⟩ := exists_unquoted sets.1.1.1 (tame.field (by simp [commandFields]))
  obtain ⟨server, isServer, serverTame⟩ :=
    exists_unquoted sets.1.1.2 (tame.field (by simp [commandFields]))
  obtain ⟨localAddress, isLocal, localTame⟩ :=
    exists_unquoted sets.1.2 (tame.field (by simp [commandFields]))
  obtain ⟨remoteAddress, isRemote, remoteTame⟩ :=
    exists_unquoted sets.2 (tame.field (by simp [commandFields]))
  have noQuote : ∀ field ∈ [dev, server, localAddress, remoteAddress, name], '\'' ∉ field := by
    simp [not_quote_of_harmless devTame, nameTame, serverTame, localTame, remoteTame]
  have argv := bareArgv_upDownCommand plain named isServer isLocal isRemote isName noQuote
  rw [isScriptCommand, argv]
  exact full

theorem upDownRunFiles_keeps {files : CPtr} {dev : CString}
    (scripts : given → ∀ token ∈ getTokens files ":".toList noFlags, isScriptName token = true)
    (context : given → TameContext settings vpn ∧ harmless dev = true) :
    Keeps protocol opened given (upDownRunFiles vpn files dev) := by
  refine Keeps.each fun token member => ?_
  refine Monitored.bind (access_keeps _ _) fun _ => Keeps.when fun _ => ?_
  have asked : Keeps protocol opened (given ∧ True)
      (ask (.runScript (upDownCommand vpn token (some dev)))) := by
    refine Monitored.ask rfl (fun held => ?_) (streamStep_use rfl rfl rfl) fun _ _ _ => trivial
    exact isScriptCommand_upDownCommand (context held.1).1 (scripts held.1 token member)
      (context held.1).2
  refine Monitored.bind asked fun answer => ?_
  cases answer with
  | some _ => exact .pure rfl fun _ => trivial
  | none => exact .exit

theorem vpnUp_keeps (noFiles : NoFiles opened) (dev : CString) :
    Keeps protocol opened (TameContext settings vpn ∧ harmless dev = true)
      (vpnUp settings vpn dev) := by
  refine Monitored.bind (ask_monitored (.vpnUp dev) rfl rfl rfl rfl rfl fun _ _ _ => trivial)
    fun _ => ?_
  refine Monitored.bind ((netSetup_keeps noFiles dev).mono And.left) fun _ => Keeps.when fun _ => ?_
  exact upDownRunFiles_keeps (fun held => held.1.1.1.upScripts) fun held => held.1.1

theorem vpnDown_keeps (bringsLinks : "ip".toList ∈ programsOf protocol) (dev : CString) :
    Keeps protocol opened (TameContext settings vpn ∧ harmless dev = true) (vpnDown vpn dev) := by
  refine Monitored.bind (ask_monitored (.vpnDown dev) rfl rfl rfl rfl rfl fun _ _ _ => trivial)
    fun _ => ?_
  refine Monitored.bind ((netShutdown_keeps bringsLinks dev).mono fun held => held.1.2) fun _ =>
    Keeps.when fun _ => ?_
  exact upDownRunFiles_keeps (fun held => held.1.1.1.downScripts) fun held => held.1.1

def HasTunnel (protocol : Protocol) : Prop :=
  ∀ program ∈ ["ip".toList, "modprobe".toList, "chmod".toList], program ∈ programsOf protocol

theorem tunAvailable_keeps (tunnel : HasTunnel protocol) :
    Keeps protocol opened given tunAvailable := by
  have chmod {given : Prop} : Keeps protocol opened given (command "chmod a+rw /dev/net/tun".toList) :=
    command_harmless "chmod" rfl (tunnel _ (by simp)) fun _ => by decide
  refine Monitored.bind (access_keeps _ _) fun _ => ?_
  refine Monitored.bind (Keeps.when fun _ => ?_) fun _ => ?_
  · refine Monitored.bind (command_harmless "modprobe" rfl (tunnel _ (by simp)) fun _ => by decide) fun _ => ?_
    exact chmod
  refine Monitored.bind chmod fun _ => Monitored.bind (access_keeps _ _) fun _ => .ite (fun _ => ?_) fun _ => ?_
  · exact .pure rfl fun _ => trivial
  refine Monitored.bind (access_keeps _ _) fun _ => .ite (fun _ => ?_) fun _ => access_keeps _ _
  exact .pure rfl fun _ => trivial

theorem tunCreate_keeps (tunnel : HasTunnel protocol) {type name : CString} :
    Keeps protocol opened (harmless type = true ∧ harmless name = true) (tunCreate type name) := by
  have starts : hasPrefix ("ip".toList ++ [' ']) (tunAddCommand type name) = true := by
    unfold tunAddCommand
    split <;> rfl
  refine Monitored.bind devices_monitored fun table => .ite (fun _ => ?_) fun _ => ?_
  · exact .pure rfl fun _ => trivial
  refine Monitored.bind (tunAvailable_keeps tunnel) fun _ => ?_
  refine runCommand_harmless "ip" starts (tunnel _ (by simp)) fun held => ?_
  obtain ⟨⟨⟨typeTame, nameTame⟩, -⟩, -⟩ := held
  unfold tunAddCommand
  split
  · exact harmless_cons (by decide) (harmless_cons nameTame (harmless_cons (by decide) rfl))
  · exact harmless_cons (by decide) (harmless_cons nameTame (harmless_cons (by decide)
      (harmless_cons typeTame rfl)))

theorem tunSetup_keeps (tunnel : HasTunnel protocol) {type name : CString} {address : CPtr} :
    Keeps protocol opened
      ((harmless type = true ∧ harmless name = true) ∧ harmless (copyStr address) = true)
      (tunSetup type name address) := by
  refine Monitored.bind ((tunCreate_keeps tunnel).mono And.left) fun status => .ite (fun _ => ?_) fun _ => ?_
  · refine Monitored.bind (Keeps.when fun _ => ?_) fun _ => ?_
    · refine command_harmless "ip" rfl (tunnel _ (by simp)) fun held => ?_
      exact harmless_cons (by decide) (harmless_cons held.1.1.2 (harmless_cons (by decide)
        (harmless_cons held.1.2 rfl)))
    refine Monitored.bind (command_harmless "ip" rfl (tunnel _ (by simp)) fun held => ?_) fun _ => ?_
    · exact harmless_cons (by decide) (harmless_cons held.1.1.1.2 rfl)
    refine Monitored.bind devices_monitored fun table => .ite (fun _ => ?_) fun _ => ?_
    · exact .pure rfl fun _ => trivial
    · exact .pure rfl fun _ => trivial
  · exact .pure rfl fun _ => trivial

theorem tunShutdown_keeps (tunnel : HasTunnel protocol) (dev : CString) :
    Keeps protocol opened (harmless dev = true) (tunShutdown dev) := by
  refine Monitored.bind (ask_monitored (.tunShutdown dev) rfl rfl rfl rfl rfl fun _ _ _ => trivial)
    fun _ => ?_
  refine Monitored.bind (command_harmless "ip" rfl (tunnel _ (by simp)) fun held => ?_) fun _ => ?_
  · exact harmless_cons (by decide) (harmless_cons held.1 (harmless_cons (by decide) rfl))
  refine command_harmless "ip" rfl (tunnel _ (by simp)) fun held => ?_
  exact harmless_cons (by decide) (harmless_cons held.1.1 rfl)

theorem netDevFindNextLive_monitored {stem : CString} (tame : harmless stem = true) :
    Monitored protocol opened given (netDevFindNextLive stem) (fun _ => opened)
      fun dev => harmless dev = true := by
  have search (candidates : List Nat) : Monitored protocol opened given
      (findFreeName stem candidates) (fun _ => opened) fun dev => harmless dev = true := by
    induction candidates generalizing given with
    | nil => exact .pure rfl fun _ => rfl
    | cons i rest inductionHypothesis =>
        refine Monitored.bind devices_monitored fun table => .ite (fun _ => inductionHypothesis)
          fun _ => .pure rfl fun _ => ?_
        exact harmless_append tame (harmless_decimal _)
  exact search _

theorem wireguardLaunchUserspace_keeps (userspaceApp : CString) (program : String)
    (known : program.toList ∈ programsOf .wireguard) (appTame : harmless userspaceApp = true)
    {dev : CString}
    (starts : hasPrefix (program.toList ++ [' ']) (mCopyStr [some userspaceApp, some " ".toList,
      some dev]) = true) :
    Keeps .wireguard opened (TameContext settings vpn ∧ harmless dev = true)
      (wireguardLaunchUserspace settings vpn dev userspaceApp) := by
  have tunnel : HasTunnel .wireguard := by unfold HasTunnel; decide
  refine Monitored.ite (fun _ => ?_) fun _ => .pure rfl fun _ => trivial
  refine Monitored.bind (command_harmless program starts known fun held => ?_) fun _ => ?_
  · exact harmless_cons appTame (harmless_cons (by decide) (harmless_cons held.2 rfl))
  refine Monitored.bind ((tunSetup_keeps tunnel).mono fun held => ?_) fun _ => .ite (fun _ => ?_)
    fun _ => .pure rfl fun _ => trivial
  · exact ⟨⟨by decide, held.1.2⟩, held.1.1.field (by simp [commandFields])⟩
  refine Monitored.bind devices_monitored fun table => .ite (fun _ => ?_) fun _ => ?_
  · exact .pure rfl fun _ => trivial
  · exact .pure rfl fun _ => trivial

theorem wireguardUserspace_keeps (dev : CString) :
    Keeps .wireguard opened (TameContext settings vpn ∧ harmless dev = true)
      (wireguardUserspace settings vpn dev) := by
  refine Monitored.bind (wireguardLaunchUserspace_keeps _ "wireguard-go" (by decide) (by decide) rfl)
    fun _ => .ite (fun _ => .pure rfl fun _ => trivial) fun _ => ?_
  refine Monitored.bind ((wireguardLaunchUserspace_keeps _ "boringtun-cli" (by decide) (by decide)
    rfl).mono And.left) fun _ => .ite (fun _ => .pure rfl fun _ => trivial) fun _ => ?_
  refine Monitored.bind ((wireguardLaunchUserspace_keeps _ "boringtun-cli" (by decide) (by decide)
    rfl).mono fun held => held.1.1) fun _ => .pure rfl fun _ => trivial

theorem readNamedFile_monitored {path : CPtr} (other : given → copyStr path ≠ procNetRoute) :
    Monitored protocol opened given (readNamedFile path) (fun _ => opened) fun text =>
      harmless (stripTrailingWhitespace text) = true := by
  refine Monitored.ite (fun _ => ?_) fun _ => .pure rfl fun _ => rfl
  exact (readFile_monitored _).mono id fun text held read => read.resolve_left (other held)

theorem harmless_wgSetCommand (tame : TameContext settings vpn) {dev peer : CString}
    {host port : CPtr} (devTame : harmless dev = true) (peerTame : harmless peer = true)
    (hostTame : harmless (copyStr host) = true) (portTame : harmless (copyStr port) = true) :
    harmless (wgSetCommand vpn dev peer host port) = true := by
  have listen : harmless (if vpn.action = .server then mCopyStr [some " listen-port ".toList, port]
      else []) = true := by
    split
    · exact harmless_cons (by decide) (harmless_cons portTame rfl)
    · rfl
  have endpoint : harmless (if vpn.action = .connect then
      mCopyStr [some " endpoint ".toList, host, some ":".toList, port] else []) = true := by
    split
    · exact harmless_cons (by decide) (harmless_cons hostTame (harmless_cons (by decide)
        (harmless_cons portTame rfl)))
    · rfl
  have allowed : harmless (if strValid vpn.allowedIPs then
      (if sameNoCase (copyStr vpn.allowedIPs) "all".toList then " allowed-ips 0.0.0.0/0".toList
      else mCopyStr [some " allowed-ips ".toList, vpn.allowedIPs]) else []) = true := by
    split
    · split
      · decide
      · exact harmless_cons (by decide) (harmless_cons (tame.field (by simp [commandFields])) rfl)
    · rfl
  have start : harmless (mCopyStr [some "wg set ".toList, some dev, some " private-key ".toList,
      vpn.clientCert]) = true :=
    harmless_cons (by decide) (harmless_cons devTame (harmless_cons (by decide)
      (harmless_cons (tame.field (by simp [commandFields])) rfl)))
  have peers : harmless (mCopyStr [some " peer ".toList, some peer]) = true :=
    harmless_cons (by decide) (harmless_cons peerTame rfl)
  exact harmless_append (harmless_append (harmless_append (harmless_append start listen) peers)
    endpoint) allowed

theorem TameContext.unpackedParts (tame : TameContext settings vpn) :
    (harmless (copyStr (settings.unpackURL vpn.server).host) = true ∧
      harmless (copyStr (settings.unpackURL vpn.server).port) = true) ∧
      harmless (copyStr (settings.unpackURL vpn.server).user) = true := by
  simpa only [harmlessUrl, Bool.and_eq_true] using tame.unpacked

theorem wireguardFormatCommand_monitored (dev : CString) :
    Monitored .wireguard opened (TameContext settings vpn ∧ harmless dev = true)
      (wireguardFormatCommand settings vpn dev) (fun _ => opened) fun text =>
        harmless text = true := by
  refine Monitored.ite (fun _ => ?_) fun _ => ?_
  · refine .pure rfl fun held => ?_
    exact harmless_cons (by decide) (harmless_cons held.2 (harmless_cons (by decide)
      (harmless_cons (held.1.field (by simp [commandFields])) rfl)))
  refine Monitored.bind (readNamedFile_monitored fun held => held.1.keyFile) fun cert => ?_
  refine Monitored.bind (Keeps.when fun _ => (routeSetupVpnServer_keeps _).mono fun held =>
    held.1.1.unpackedParts.1.1) fun _ => .pure rfl fun held => ?_
  obtain ⟨⟨⟨tame, devTame⟩, certTame⟩, -⟩ := held
  refine harmless_wgSetCommand tame devTame (harmless_stripTrailing certTame)
    tame.unpackedParts.1.1 ?_
  split
  · exact tame.unpackedParts.1.2
  · decide

theorem wireguardDevice_monitored :
    Monitored .wireguard opened (TameContext settings vpn) (wireguardDevice vpn) (fun _ => opened)
      fun dev => harmless dev = true := by
  refine Monitored.bind (command_harmless "modprobe" rfl (by decide) fun _ => by decide) fun _ =>
    .ite (fun _ => ?_) fun _ => ?_
  · exact .pure rfl fun held => held.1.field (by simp [commandFields])
  · exact netDevFindNextLive_monitored (by decide)

theorem hasPrefix_of_wg {text : CString} (isWg : commandFeature text = .wg) :
    hasPrefix ("wg".toList ++ [' ']) text = true := by
  by_contra other
  have noWg : hasPrefix "wg ".toList text = false := by simpa using other
  simp only [commandFeature, noWg, Bool.false_eq_true, if_false] at isWg
  repeat' split at isWg
  all_goals cases isWg

theorem wireguardUp_keeps (opensTerminal : isOpen opened .terminal = true)
    (noFiles : NoFiles opened) :
    Keeps .wireguard opened (TameContext settings vpn) (wireguardUp settings fuel vpn) := by
  have tunnel : HasTunnel .wireguard := by unfold HasTunnel; decide
  refine Monitored.bind wireguardDevice_monitored fun dev => .ite (fun _ => ?_) fun _ =>
    .pure rfl fun _ => trivial
  refine Monitored.bind ((tunSetup_keeps tunnel).mono fun held => ?_) fun status => ?_
  · exact ⟨⟨by decide, held.2⟩, held.1.field (by simp [commandFields])⟩
  refine Monitored.bind (Keeps.when fun _ => (wireguardUserspace_keeps dev).mono And.left) fun _ => ?_
  refine Monitored.bind_yields ((wireguardFormatCommand_monitored dev).mono
    (fun held => held.1.1) fun _ _ => id) ((wireguardFormatCommand_wg dev).mono
      fun text _ => hasPrefix_of_wg) fun text isWg => ?_
  refine Monitored.bind (runCommand_harmless "wg" isWg (by decide) fun held => held.2) fun _ =>
    .ite (fun _ => ?_) fun _ => .pure rfl fun _ => trivial
  refine Monitored.bind ((vpnUp_keeps noFiles dev).mono fun held => held.1.1.1.1) fun _ => ?_
  refine Monitored.bind (drainLines_keeps opensTerminal fuel) fun _ => ?_
  exact (tunShutdown_keeps tunnel dev).mono fun held => held.1.1.1.1.1.1.2

theorem openVpnGenPasswordFile_keeps (noFiles : NoFiles opened) :
    Keeps protocol opened given (openVpnGenPasswordFile settings vpn) := by
  refine Monitored.bind (fileOpen_monitored _ _ (noFiles _)) fun success => ?_
  cases success with
  | false => exact .pure rfl fun _ => trivial
  | true => exact Monitored.bind (streamWriteLine_keeps isOpen_head _) fun _ => streamClose_monitored

theorem harmless_openVpnPath (tame : TameContext settings vpn) {extension : CString}
    (extensionTame : harmless extension = true) :
    harmless (openVpnPath settings vpn extension) = true := by
  have name : harmless (copyStr vpn.name) = true := tame.field (by simp [commandFields])
  unfold openVpnPath
  exact harmless_cons tame.homeDir (harmless_cons (by decide) (harmless_cons name
    (harmless_cons (by decide) (harmless_cons name (harmless_cons extensionTame rfl)))))

theorem pidPath_ne_procNetRoute (isSet : vpn.name.isSome = true) :
    openVpnPath settings vpn ".pid".toList ≠ procNetRoute := by
  obtain ⟨name, named⟩ := Option.isSome_iff_exists.mp isSet
  intro same
  have ending : (openVpnPath settings vpn ".pid".toList).getLast? = some 'd' := by
    rw [openVpnPath_eq named]
    simp only [← List.append_assoc]
    rw [List.getLast?_append_of_ne_nil _ (by decide)]
    rfl
  rw [same] at ending
  exact absurd ending (by decide)

theorem openVpnShutDown_keeps (dev : CString) :
    Keeps .openVpn opened (TameContext settings vpn ∧ harmless dev = true)
      (openVpnShutDown settings vpn dev) := by
  have tunnel : HasTunnel .openVpn := by unfold HasTunnel; decide
  refine Monitored.bind (readFile_monitored _) fun text => ?_
  refine Monitored.bind (Keeps.when fun _ => ?_) fun _ =>
    (tunShutdown_keeps tunnel dev).mono fun held => held.1.1.2
  refine command_harmless "kill" rfl (by decide) fun held => ?_
  have sets := held.1.1.set
  simp only [Bool.and_eq_true] at sets
  have pid := held.2.resolve_left (pidPath_ne_procNetRoute sets.1.1.1)
  exact harmless_cons (by decide) (harmless_cons (harmless_stripTrailing pid) rfl)

theorem harmless_nextWord {p : CPtr} (tame : harmless (copyStr p) = true) :
    harmless (nextWord p).text = true ∧ harmless (copyStr (nextWord p).ptr) = true :=
  harmless_getToken tame _

/-- The device of a harmless line of openvpn's log. -/
theorem harmless_openVpnLine {dev line : CString} (devTame : harmless dev = true)
    (lineTame : harmless line = true) : harmless (openVpnLine dev line).1 = true := by
  have next {p : CPtr} (tame : harmless (copyStr p) = true) :
      harmless (copyStr (nextWord p).ptr) = true := (harmless_nextWord tame).2
  have behind : harmless (copyStr (openVpnReadLineSkipDateTime line)) = true := by
    unfold openVpnReadLineSkipDateTime
    dsimp only
    split
    · exact next (next (next (next (next lineTame))))
    · exact next (next (next lineTame))
  unfold openVpnLine
  dsimp only
  repeat' split
  · exact (harmless_nextWord (next (next behind))).1
  · exact (harmless_nextWord (next (next behind))).1
  · exact devTame
  · exact devTame
  · exact devTame

theorem openVpnProcess_monitored (opensLog : isOpen opened .openvpn = true) (noFiles : NoFiles opened) :
    Monitored protocol opened (TameContext settings vpn) (openVpnProcess settings fuel vpn)
      (fun _ => opened) fun dev => harmless dev = true := by
  refine Monitored.loop (fun dev => harmless dev = true) _ (fun dev => ?_) fuel fun _ => by decide
  refine Monitored.bind (streamReadLine_monitored opensLog) fun line => ?_
  cases line with
  | none => exact .pure rfl fun held => held.1.2
  | some line =>
      refine Monitored.bind exiting_keeps fun _ => .ite (fun _ => .pure rfl fun held => held.1.1.2) fun _ => ?_
      have devTame (held : (((TameContext settings vpn ∧ harmless dev = true) ∧
          (StreamId.openvpn = .openvpn → harmless (stripTrailingWhitespace line) = true)) ∧ True)) :
          harmless (openVpnLine dev (stripTrailingWhitespace line)).1 = true :=
        harmless_openVpnLine held.1.1.2 (held.1.2 rfl)
      refine Monitored.bind (Keeps.when fun _ => (vpnUp_keeps noFiles _).mono fun held =>
        ⟨held.1.1.1, devTame held⟩) fun _ => ?_
      exact .pure rfl fun held => devTame held.1

theorem arguments_quotedOption {name value after : CString} (nameTame : harmless name = true)
    (valueTame : harmless value = true) (afterTame : harmless after = true) :
    Arguments (withoutPatterns (name ++ '\'' :: value ++ '\'' :: after)) := by
  have split : name ++ '\'' :: value ++ '\'' :: after =
      name ++ (('\'' :: value ++ ['\'']) ++ after) := by simp
  rw [split, withoutPatterns, List.map_append, List.map_append]
  exact (arguments_of_harmless nameTame).append
    ((arguments_quoted valueTame).append (arguments_of_harmless afterTame))

theorem arguments_ciphers (tame : TameContext settings vpn) (set : strValid vpn.ciphers = true)
    {name : CString} (nameTame : harmless name = true) :
    Arguments (withoutPatterns (mCopyStr [some (name ++ ['\'']), vpn.ciphers, some "' ".toList])) := by
  obtain ⟨ciphers, isSet, -⟩ := (strValid_iff _).mp set
  have value : harmless (copyStr vpn.ciphers) = true := tame.field (by simp [commandFields])
  rw [isSet] at value ⊢
  have quoted := arguments_quotedOption nameTame value (by decide : harmless [' '] = true)
  simpa using quoted

theorem isCommandText_openVpnOptions (tame : TameContext settings vpn) :
    IsCommandText "openvpn".toList (openVpnOptions settings vpn) := by
  have url : harmless (copyStr (settings.parseURL vpn.server).host) = true ∧
      harmless (copyStr (settings.parseURL vpn.server).port) = true := by
    have parts := tame.parsed
    simp only [harmlessUrl, Bool.and_eq_true] at parts
    exact parts.1
  have name : harmless (copyStr vpn.name) = true := tame.field (by simp [commandFields])
  have option {text : String} (textTame : harmless text.toList = true) {p : CPtr}
      (valueTame : harmless (copyStr p) = true) :
      Arguments (withoutPatterns (mCopyStr [some text.toList, p])) :=
    arguments_of_harmless (harmless_cons textTame (harmless_cons valueTame rfl))
  unfold openVpnOptions
  refine .append (.append (.append (.append (.append (.append (.start rfl ?_) ?_) ?_) ?_) ?_) ?_) ?_
  · exact harmless_cons (by decide) (harmless_cons url.1 (harmless_cons (by decide)
      (harmless_cons url.2 rfl)))
  · split
    · exact arguments_of_harmless (by decide)
    · exact arguments_of_harmless (by decide)
  · split
    · exact option (by decide) (tame.field (by simp [commandFields]))
    · exact .nil
  · split
    case isTrue set => exact arguments_ciphers tame set (by decide : harmless " --cipher ".toList = true)
    case isFalse => exact .nil
  · split
    · exact arguments_of_harmless (harmless_cons (by decide) (harmless_cons tame.homeDir
        (harmless_cons (by decide) (harmless_cons name (harmless_cons (by decide)
          (harmless_cons name (harmless_cons (by decide) rfl)))))))
    · exact .nil
  · split
    · rw [withoutPatterns, List.map_append]
      exact (option (by decide) (tame.field (by simp [commandFields]))).append
        (option (by decide) (tame.field (by simp [commandFields])))
    · exact .nil
  · split
    · exact option (by decide) (tame.field (by simp [commandFields]))
    · exact .nil

theorem isCommandText_openVpnCommand (tame : TameContext settings vpn) :
    IsCommandText "openvpn".toList (openVpnCommand settings vpn) := by
  have sets := tame.set
  simp only [Bool.and_eq_true] at sets
  obtain ⟨name, named⟩ := Option.isSome_iff_exists.mp sets.1.1.1
  have options : IsCommandText "openvpn".toList (if strValid vpn.confFile then
      mCopyStr [some "openvpn --conf ".toList, vpn.confFile] else openVpnOptions settings vpn) := by
    split
    · exact .start rfl (harmless_cons (by decide)
        (harmless_cons (tame.field (by simp [commandFields])) rfl))
    · exact isCommandText_openVpnOptions tame
  have mtu : harmless (if vpn.mtu ≠ 0 then
      " --tun-mtu ".toList ++ formatInt vpn.mtu.toInt ++ " ".toList else []) = true := by
    split
    · exact harmless_append (harmless_append (by decide) (harmless_formatInt _)) (by decide)
    · rfl
  have path := harmless_openVpnPath tame (by decide : harmless ".pid".toList = true)
  have writePid := arguments_quotedOption (by decide : harmless " --writepid ".toList = true) path
    (by decide : harmless [' '] = true)
  refine (options.append (arguments_of_harmless mtu)).append ?_
  rw [openVpnPath_eq named] at writePid
  simpa [named] using writePid

theorem hasPrefix_openVpnCommand :
    hasPrefix ("openvpn".toList ++ [' ']) (openVpnCommand settings vpn) = true := by
  unfold openVpnCommand openVpnOptions
  dsimp only
  split <;> rfl

/-- The stream of openvpn stays open. -/
theorem openVpnUp_leaves (noFiles : NoFiles opened) (closed : isOpen opened .openvpn = false) :
    Leaves .openVpn opened (TameContext settings vpn) (openVpnUp settings fuel vpn)
      (.openvpn :: opened) := by
  have tunnel : HasTunnel .openVpn := by unfold HasTunnel; decide
  have nothing {given : Prop} : Leaves .openVpn opened given (pure () : Driver Unit)
      (.openvpn :: opened) := by
    have kept : Keeps .openVpn opened given (pure () : Driver Unit) := .pure rfl fun _ => trivial
    exact Monitored.leaves kept fun _ _ => List.mem_cons_of_mem _
  refine Monitored.bind_leaves (tunAvailable_keeps tunnel) fun _ => Follows.ite (fun _ => ?_) fun _ => nothing
  refine Monitored.bind_leaves defaultDevGetMTU_keeps fun _ => ?_
  refine Monitored.bind_leaves (Keeps.when fun _ => openVpnGenPasswordFile_keeps noFiles) fun _ => ?_
  refine Monitored.bind_leaves (runCommandOpen_monitored "openvpn" hasPrefix_openVpnCommand (by decide)
    (launched_openvpn hasPrefix_openVpnCommand) closed fun held =>
      isCommandText_openVpnCommand held.1.1.1) fun started => ?_
  cases started with
  | false => exact nothing
  | true =>
      have noFilesLater : NoFiles (.openvpn :: opened) := fun path => by
        simpa [isOpen] using noFiles path
      refine Monitored.bind_leaves ((openVpnProcess_monitored isOpen_head noFilesLater).mono
        (fun held => held.1.1.1.1) fun _ _ => id) fun dev => ?_
      refine Monitored.leaves ((openVpnShutDown_keeps dev).mono fun held =>
        ⟨held.1.1.1.1.1, held.2⟩) fun _ _ => id

theorem sshVpnValidate_keeps (member : "ssh".toList ∈ programsOf protocol)
    (closed : isOpen opened .sshConfig = false) :
    Keeps protocol opened (TameContext settings vpn) (sshVpnValidate settings fuel vpn) := by
  have own : ownProgram protocol (.streamOpen .sshConfig
      (mCopyStr [some "cmd:ssh -T -G ".toList, (settings.parseURL vpn.server).host]) []) = true := by
    have program : programOf ("ssh".toList ++ ' ' :: ("-T -G ".toList ++
        mCopyStr [(settings.parseURL vpn.server).host])) = "ssh".toList :=
      programOf_shape (by decide)
    have asked : (programsOf protocol).contains (programOf ("ssh".toList ++ ' ' :: ("-T -G ".toList ++
        mCopyStr [(settings.parseURL vpn.server).host]))) = true := by
      rw [program]
      exact List.contains_iff_mem.mpr member
    exact asked
  have one (tame : TameContext settings vpn) : oneCommand protocol (.streamOpen .sshConfig
      (mCopyStr [some "cmd:ssh -T -G ".toList, (settings.parseURL vpn.server).host]) []) = true := by
    have parts := tame.parsed
    simp only [harmlessUrl, Bool.and_eq_true] at parts
    have arguments : Arguments (withoutPatterns ("-T -G ".toList ++
        mCopyStr [(settings.parseURL vpn.server).host])) :=
      arguments_of_harmless (harmless_append (by decide) (harmless_cons parts.1.1 rfl))
    have isSsh : isCommandOf ["ssh".toList] ("ssh".toList ++ ' ' :: ("-T -G ".toList ++
        mCopyStr [(settings.parseURL vpn.server).host])) = true :=
      isCommandOf_shape List.mem_cons_self (by decide) arguments
    exact isSsh
  refine Monitored.bind (streamOpen_monitored closed own one) fun success => ?_
  cases success with
  | false => exact .pure rfl fun _ => trivial
  | true =>
      refine Monitored.bind (Monitored.loop (fun _ => True) (fun _ => True) (fun result => ?_) fuel
        fun _ => trivial) fun result => ?_
      · refine Monitored.bind (streamReadLine_monitored isOpen_head) fun line => ?_
        cases line with
        | none => exact .pure rfl fun _ => trivial
        | some line => exact .pure rfl fun _ => trivial
      · exact Monitored.bind streamClose_monitored fun _ => .pure rfl fun _ => trivial

theorem sshHostLookupIP_monitored (noFiles : NoFiles opened) (host : CPtr) :
    Monitored protocol opened given (sshHostLookupIP settings fuel host) (fun _ => opened)
      fun ip => harmless ip = true := by
  refine Monitored.bind (fileOpen_monitored _ _ (noFiles _)) fun success => ?_
  cases success with
  | false => exact .pure rfl fun _ => rfl
  | true =>
      refine Monitored.bind (Monitored.loop (fun state => harmless state.2 = true)
        (fun ip => harmless ip = true) (fun state => ?_) fuel fun _ => rfl) fun ip => ?_
      · refine Monitored.bind (streamReadLine_monitored isOpen_head) fun line => ?_
        cases line with
        | none => exact .pure rfl fun held => held.1.2
        | some line =>
            refine .ite (fun _ => .pure rfl fun held => held.1.2) fun _ => .ite (fun _ => ?_)
              fun _ => .pure rfl fun held => held.1.2
            refine Monitored.bind (ask_monitored (.lookupHostIP _) rfl rfl rfl rfl rfl
              fun _ _ tame => tame) fun found => .pure rfl fun held => held.2
      · exact Monitored.bind streamClose_monitored fun _ => .pure rfl fun held => held.1.2

theorem sshVpnSendSync_keeps (opensSsh : isOpen opened .ssh = true) :
    Keeps protocol opened given sshVpnSendSync := by
  refine Monitored.bind (ask_monitored .randomKey rfl rfl rfl rfl rfl fun _ _ _ => trivial) fun key => ?_
  exact Monitored.bind (streamWriteLine_keeps opensSsh _) fun _ => .pure rfl fun _ => trivial

theorem sshVpnSync_keeps (opensSsh : isOpen opened .ssh = true) :
    Keeps protocol opened given (sshVpnSync fuel) := by
  refine Monitored.bind (sshVpnSendSync_keeps opensSsh) fun key => ?_
  refine Monitored.bind (Monitored.loop (fun _ => True) (fun _ => True) (fun key => ?_) fuel
    fun _ => trivial) fun _ => ?_
  · refine Monitored.bind (streamReadToMultiTerminator_keeps opensSsh) fun text => ?_
    rcases text with _ | _ | ⟨head, rest⟩
    · exact .pure rfl fun _ => trivial
    · exact Monitored.bind (sshVpnSendSync_keeps opensSsh) fun _ => .pure rfl fun _ => trivial
    · refine .ite (fun _ => .pure rfl fun _ => trivial) fun _ => ?_
      exact Monitored.bind exiting_keeps fun _ => .ite (fun _ => .pure rfl fun _ => trivial)
        fun _ => .pure rfl fun _ => trivial
  · exact Monitored.bind (streamReadBytes_keeps opensSsh) fun _ => .pure rfl fun _ => trivial

theorem sshVpnSendCommand_keeps (opensSsh : isOpen opened .ssh = true) (cmd : CString)
    (flags : FlagWord) : Keeps protocol opened given (sshVpnSendCommand settings cmd flags) := by
  refine Monitored.ite (fun _ => ?_) fun _ => .pure rfl fun _ => trivial
  refine Monitored.bind (streamWriteLine_keeps opensSsh _) fun _ => ?_
  refine Monitored.bind (streamWriteLine_keeps opensSsh _) fun _ => .ite (fun _ => ?_)
    fun _ => .pure rfl fun _ => trivial
  exact ask_monitored .runCommandReadLoop rfl rfl rfl rfl (all_singleton opensSsh) fun _ _ _ => trivial

theorem sshVpnRunCommandTry_keeps (opensSsh : isOpen opened .ssh = true) (cmd : CString)
    (flags : FlagWord) :
    Keeps protocol opened given (sshVpnRunCommandTry settings fuel cmd flags) := by
  refine Monitored.bind (sshVpnSync_keeps opensSsh) fun _ => ?_
  refine Monitored.bind (sshVpnSendCommand_keeps opensSsh cmd flags) fun _ => ?_
  exact Monitored.bind (Keeps.when fun _ => sshVpnSync_keeps opensSsh) fun _ =>
    .pure rfl fun _ => trivial

theorem sshVpnRunCommand_keeps (opensSsh : isOpen opened .ssh = true) (cmd : CString)
    (flags : FlagWord) : Keeps protocol opened given (sshVpnRunCommand settings fuel cmd flags) :=
  Monitored.bind (sshVpnRunCommandTry_keeps opensSsh _ _) fun _ =>
    .ite (fun _ => .pure rfl fun _ => trivial) fun _ => sshVpnRunCommandTry_keeps opensSsh _ _

theorem hasPrefix_sshCommand (command : CString) :
    hasPrefix ("ssh".toList ++ [' ']) (sshCommand settings vpn command) = true := by
  unfold sshCommand
  dsimp only
  split <;> rfl

theorem isCommandText_sshCommand (tame : TameContext settings vpn) {command : CString}
    (commandTame : harmless command = true) :
    IsCommandText "ssh".toList (sshCommand settings vpn command) := by
  obtain ⟨⟨host, port⟩, user⟩ := tame.unpackedParts
  unfold sshCommand
  refine .append (.append (.append (.start ?_ ?_) ?_) ?_) ?_
  · split <;> rfl
  · split
    · exact harmless_cons (by decide) (harmless_cons user (harmless_cons (by decide)
        (harmless_cons host rfl)))
    · exact harmless_cons (by decide) (harmless_cons host rfl)
  · split
    · exact arguments_of_harmless (harmless_cons (by decide) (harmless_cons port rfl))
    · exact .nil
  · split
    case isTrue set => exact arguments_ciphers tame set (by decide : harmless " -c ".toList = true)
    case isFalse => exact .nil
  · split
    · exact arguments_of_harmless (harmless_cons (by decide) (harmless_cons commandTame rfl))
    · exact .nil

theorem sshVpnConnect_monitored (known : "ssh".toList ∈ programsOf protocol) (noFiles : NoFiles opened)
    (closed : isOpen opened .ssh = false) {command : CString} :
    Monitored protocol opened (TameContext settings vpn ∧ harmless command = true)
      (sshVpnConnect settings fuel vpn command)
      (fun connected => if connected then .ssh :: opened else opened) fun _ => True := by
  refine Monitored.bind (sshHostLookupIP_monitored noFiles _) fun ip => ?_
  refine Monitored.bind (Keeps.when fun _ => (routeSetupVpnServer_keeps _).mono And.right) fun _ => ?_
  refine Monitored.bind (runCommandOpen_monitored "ssh" (hasPrefix_sshCommand _) known
    (launched_ssh (hasPrefix_sshCommand _)) closed fun held =>
      isCommandText_sshCommand held.1.1.1 held.1.1.2) fun started => ?_
  cases started with
  | false => exact .pure rfl fun _ => trivial
  | true =>
      refine Monitored.bind (streamWriteLine_keeps isOpen_head _) fun _ => ?_
      exact Monitored.bind (sshVpnSync_keeps isOpen_head) fun _ => .pure rfl fun _ => trivial

theorem sshReadRemoteDev_keeps (opensSsh : isOpen opened .ssh = true) (rounds : Nat) (dev : CString) :
    Keeps protocol opened given (sshReadRemoteDev rounds dev) := by
  induction rounds generalizing given dev with
  | zero => exact .pure rfl fun _ => trivial
  | succ rounds inductionHypothesis =>
      refine Monitored.bind (streamReadToMultiTerminator_keeps opensSsh) fun line => ?_
      exact .ite (fun _ => .pure rfl fun _ => trivial) fun _ => inductionHypothesis _

theorem TameContext.withLocalAddress (tame : TameContext settings vpn) {ip : CString}
    (ipTame : harmless ip = true) : TameContext settings { vpn with localAddress := some ip } := by
  have sets := tame.set
  have fields := tame.fields
  simp only [commandFields, List.mem_cons, forall_eq_or_imp] at fields
  refine ⟨tame.homeDir, tame.parsed, tame.unpacked, ?_, tame.keyFile, ?_, tame.upScripts,
    tame.downScripts⟩
  · simp only [commandFields, List.mem_cons, forall_eq_or_imp]
    tauto
  · simp_all

theorem sshSetup_monitored (opensSsh : isOpen opened .ssh = true) :
    Monitored protocol opened (TameContext settings vpn) (sshSetup settings fuel vpn)
      (fun _ => opened) fun result => TameContext settings result.2 := by
  have address : Monitored protocol opened (TameContext settings vpn) (sshLocalAddress vpn)
      (fun _ => opened) fun later => TameContext settings later := by
    refine Monitored.ite (fun _ => .pure rfl id) fun _ => ?_
    exact Monitored.bind netGetDefaultIP_monitored fun ip =>
      .pure rfl fun held => held.1.withLocalAddress held.2
  have route (dev : CString) : Monitored protocol opened (TameContext settings vpn)
      (sshSetupRoute settings fuel vpn dev) (fun _ => opened) fun later =>
        TameContext settings later := by
    refine Monitored.bind address fun later => ?_
    refine Monitored.bind (Keeps.when fun _ => ?_) fun _ => .pure rfl fun held => held.1.2
    exact Monitored.bind (sshVpnRunCommand_keeps opensSsh _ _) fun _ => .pure rfl fun _ => trivial
  refine Monitored.bind (streamWriteLine_keeps opensSsh _) fun _ => ?_
  refine Monitored.bind (sshVpnSync_keeps opensSsh) fun _ => ?_
  refine Monitored.bind (Monitored.bind (streamWriteLine_keeps opensSsh _) fun _ =>
    sshReadRemoteDev_keeps opensSsh _ _) fun dev => ?_
  refine .ite (fun _ => ?_) fun _ => .pure rfl fun held => held.1.1.1
  refine Monitored.bind ((route dev).mono (fun held => held.1.1.1) fun _ _ => id) fun later => ?_
  exact .pure rfl And.right

theorem harmless_sshRemoteDevArgument (tame : TameContext settings vpn) :
    harmless (sshRemoteDevArgument vpn) = true := by
  have remote : harmless (copyStr vpn.remoteDev) = true := tame.field (by simp [commandFields])
  unfold sshRemoteDevArgument
  split
  · split
    · exact harmless_of_chars remote fun _ inside => List.mem_of_mem_drop inside
    · exact remote
  · decide

theorem sshDevice_monitored :
    Monitored protocol opened (TameContext settings vpn) (sshDevice vpn) (fun _ => opened)
      fun dev => harmless dev = true := by
  refine Monitored.ite (fun _ => .pure rfl fun tame => tame.field (by simp [commandFields])) fun _ => ?_
  exact netDevFindNextLive_monitored (by decide)

theorem NoFiles.cons (noFiles : NoFiles opened) {stream : StreamId}
    (other : ∀ path, stream ≠ .file path) : NoFiles (stream :: opened) := by
  intro path
  have before := noFiles path
  simp only [isOpen, List.contains_cons, Bool.or_eq_false_iff, beq_eq_false_iff_ne] at before ⊢
  exact ⟨fun same => other path same.symm, before⟩

theorem sshVpnSession_closes (noFiles : NoFiles opened) (dev : CString) :
    Monitored .ssh (.ssh :: opened) (TameContext settings vpn ∧ harmless dev = true)
      (sshVpnSession settings fuel vpn dev) (fun _ => opened) fun _ => True := by
  refine Monitored.bind ((sshSetup_monitored isOpen_head).mono And.left fun _ _ => id) fun result => ?_
  refine Monitored.bind (Keeps.when fun _ => ?_) fun _ => ?_
  · refine Monitored.bind ((vpnUp_keeps (noFiles.cons (by simp)) dev).mono fun held =>
      ⟨held.2, held.1.2⟩) fun _ => ?_
    exact Monitored.bind exiting_keeps fun _ => .ite (fun _ => .pure rfl fun _ => trivial) fun _ =>
      drainLines_keeps isOpen_head fuel
  refine Monitored.bind (ask_monitored (.runCommandCleanUp cmdKill) rfl rfl rfl rfl
    (all_singleton isOpen_head) fun _ _ _ => trivial) fun _ => ?_
  refine Monitored.bind streamClose_monitored fun _ => ?_
  exact (vpnDown_keeps (by decide) dev).mono fun held => ⟨held.1.1.1.2, held.1.1.1.1.2⟩

theorem sshVpnUp_keeps (noFiles : NoFiles opened) (noConfig : isOpen opened .sshConfig = false)
    (closed : isOpen opened .ssh = false) :
    Keeps .ssh opened (TameContext settings vpn) (sshVpnUp settings fuel vpn) := by
  have tunnel : HasTunnel .ssh := by unfold HasTunnel; decide
  refine Monitored.bind (sshVpnValidate_keeps (by decide) noConfig) fun _ => .ite (fun _ => ?_) fun _ =>
    .pure rfl fun _ => trivial
  refine Monitored.bind (sshDevice_monitored.mono And.left fun _ _ => id) fun dev => .ite (fun _ => ?_)
    fun _ => .pure rfl fun _ => trivial
  refine Monitored.bind ((tunSetup_keeps tunnel).mono fun held => ?_) fun _ => ?_
  · exact ⟨⟨by decide, held.2⟩, held.1.1.field (by simp [commandFields])⟩
  refine Monitored.bind ((sshVpnConnect_monitored (by decide) noFiles closed).mono (fun held => ?_)
    fun _ _ => id) fun connected => ?_
  · have number : harmless (dev.drop 3) = true :=
      harmless_of_chars held.1.2 fun _ inside => List.mem_of_mem_drop inside
    exact ⟨held.1.1.1, harmless_cons (by decide) (harmless_cons number (harmless_cons (by decide)
      (harmless_cons (harmless_sshRemoteDevArgument held.1.1.1) rfl)))⟩
  cases connected with
  | false => exact .pure rfl fun _ => trivial
  | true => exact (sshVpnSession_closes noFiles dev).mono (fun held =>
      ⟨held.1.1.1.1, held.1.1.2⟩) fun _ _ => id

theorem harmless_pppdCommand (tame : TameContext settings vpn) :
    harmless (pppdCommand vpn) = true := by
  have address : harmless (copyStr (pppdLocalAddress vpn)) = true := by
    unfold pppdLocalAddress
    split
    · exact tame.field (by simp [commandFields])
    · decide
  have option {p : CPtr} (text : String) (textTame : harmless text.toList = true)
      (valueTame : harmless (copyStr p) = true) :
      harmless (mCopyStr [some text.toList, p]) = true :=
    harmless_cons textTame (harmless_cons valueTame rfl)
  have either {condition : Prop} [Decidable condition] {yes no : CString}
      (yesTame : harmless yes = true) (noTame : harmless no = true) :
      harmless (if condition then yes else no) = true := by
    split
    · exact yesTame
    · exact noTame
  unfold pppdCommand
  refine harmless_append (harmless_append (harmless_append (harmless_append (harmless_append
    (harmless_append (harmless_append (harmless_append ?_ ?_) ?_) ?_) ?_) ?_) ?_) ?_) ?_
  · exact harmless_append (harmless_append (harmless_append (harmless_append (by decide)
      (harmless_formatInt _)) (by decide)) (by decide)) (by decide)
  · exact either rfl (by decide)
  · exact either rfl (by decide)
  · exact harmless_cons (by decide) (harmless_cons address (harmless_cons (by decide)
      (harmless_cons (tame.field (by simp [commandFields])) (harmless_cons (by decide) rfl))))
  · exact either (option _ (by decide) (tame.field (by simp [commandFields]))) rfl
  · exact either (by decide) (by decide)
  · exact either (by decide) rfl
  · exact either (option _ (by decide) (tame.field (by simp [commandFields]))) rfl
  · exact either (harmless_append (harmless_append (by decide) (harmless_formatInt _)) (by decide)) rfl

theorem pppdLaunch_monitored (known : "pppd".toList ∈ programsOf protocol)
    (closed : isOpen opened .pppd = false) :
    Monitored protocol opened (TameContext settings vpn) (pppdLaunch vpn)
      (fun result => if result.1 then .pppd :: opened else opened) fun result =>
        TameContext settings result.2 := by
  have starts : hasPrefix ("pppd".toList ++ [' ']) (pppdCommand vpn) = true := by
    have same : "pppd".toList ++ [' '] = "pppd ".toList := by decide
    rw [same]
    unfold pppdCommand
    simp only [List.append_assoc]
    exact hasPrefix_append _ _
  refine Monitored.bind (runCommandOpen_monitored "pppd" starts known (launched_pppd starts) closed
    fun tame => .start starts (harmless_pppdCommand tame)) fun launched => .pure rfl fun held => ?_
  unfold pppdLocalAddress
  split
  · exact held.1
  · exact held.1.withLocalAddress (by decide)

theorem pppdTryConfigureEndpoint_keeps (noFiles : NoFiles opened) :
    Keeps protocol opened (TameContext settings vpn) (pppdTryConfigureEndpoint settings vpn) := by
  refine Monitored.bind devices_monitored fun table => .ite (fun _ => ?_) fun _ =>
    .pure rfl fun _ => trivial
  refine Monitored.bind ((vpnUp_keeps noFiles _).mono fun held => ⟨held.1, ?_⟩) fun _ =>
    .pure rfl fun _ => trivial
  unfold netDevFindForIP
  split
  next dev found => exact held.2 dev (List.mem_of_find?_eq_some found)
  next => rfl

def Relaying (opened : List StreamId) : Prop :=
  isOpen opened .pppd = true ∧ isOpen opened .remotePeer = true

theorem pppdRelay_keeps (relaying : Relaying opened) {source target : StreamId}
    (reads : isOpen opened source = true) (writes : isOpen opened target = true) :
    Keeps protocol opened given (pppdRelay source target) := by
  refine Monitored.bind (streamReadBytes_keeps reads) fun bytes => .ite (fun _ => ?_) fun _ => ?_
  · refine Monitored.bind (Keeps.when fun _ => ?_) fun _ => .pure rfl fun _ => trivial
    exact ask_monitored (.runCommandCleanUp 0) rfl rfl rfl rfl (all_singleton relaying.1)
      fun _ _ _ => trivial
  · exact Monitored.bind (streamWriteBytes_keeps writes _) fun _ => .pure rfl fun _ => trivial

theorem pppdReady_keeps (relaying : Relaying opened) (selected : Option StreamId) :
    Keeps protocol opened given (pppdReady selected) :=
  .ite (fun _ => pppdRelay_keeps relaying relaying.1 relaying.2) fun _ =>
    .ite (fun _ => pppdRelay_keeps relaying relaying.2 relaying.1) fun _ =>
      .pure rfl fun _ => trivial

theorem pppdRound_keeps (relaying : Relaying opened) (noFiles : NoFiles opened) (configured : Bool) :
    Keeps protocol opened (TameContext settings vpn) (pppdRound settings vpn configured) := by
  have both : [StreamId.pppd, .remotePeer].all (isOpen opened) = true := by
    simp [relaying.1, relaying.2]
  refine Monitored.bind (ask_monitored .streamSelect rfl rfl rfl rfl both fun _ _ _ => trivial)
    fun selected => ?_
  refine Monitored.bind exiting_keeps fun _ => .ite (fun _ => .pure rfl fun _ => trivial) fun _ => ?_
  refine Monitored.bind (pppdReady_keeps relaying selected) fun _ => .ite (fun _ => ?_) fun _ =>
    .pure rfl fun _ => trivial
  refine .ite (fun _ => .pure rfl fun _ => trivial) fun _ => ?_
  exact Monitored.bind ((pppdTryConfigureEndpoint_keeps noFiles).mono fun held => held.1.1.1)
    fun _ => .pure rfl fun _ => trivial

theorem pppdProcess_keeps (known : "pppd".toList ∈ programsOf protocol) (noFiles : NoFiles opened)
    (closed : isOpen opened .pppd = false) (peer : isOpen opened .remotePeer = true) :
    Keeps protocol opened (TameContext settings vpn) (pppdProcess settings fuel vpn) := by
  have relaying : Relaying (.pppd :: opened) := by
    refine ⟨isOpen_head, ?_⟩
    simp only [isOpen, Bool.or_eq_true, List.contains_cons] at peer ⊢
    tauto
  refine Monitored.bind (pppdLaunch_monitored known closed) fun result => ?_
  obtain ⟨launched, later⟩ := result
  cases launched with
  | false => exact .pure rfl fun _ => trivial
  | true =>
      refine Monitored.bind (Monitored.loop (fun _ => True) (fun _ => True) (fun configured => ?_)
        fuel fun _ => trivial) fun _ => streamClose_monitored
      refine Monitored.mono (pppdRound_keeps relaying (noFiles.cons (by simp)) configured)
        (fun held => held.1.2) fun next _ _ => ?_
      cases next <;> trivial

theorem sshHostFindCommand_keeps (opensSsh : isOpen opened .ssh = true) (cmd : CString)
    (dirs : List CString) : Keeps protocol opened given (sshHostFindCommand cmd dirs) := by
  induction dirs generalizing given with
  | nil => exact .pure rfl fun _ => trivial
  | cons dir rest inductionHypothesis =>
      refine Monitored.bind (streamWriteLine_keeps opensSsh _) fun _ => ?_
      refine Monitored.bind (streamReadLine_monitored opensSsh) fun line => ?_
      exact .ite (fun _ => .pure rfl fun _ => trivial) fun _ => inductionHypothesis

theorem TameContext.withRemoteAddress (tame : TameContext settings vpn) {ip : CString}
    (ipTame : harmless ip = true) : TameContext settings { vpn with remoteAddress := some ip } := by
  have sets := tame.set
  have fields := tame.fields
  simp only [commandFields, List.mem_cons, forall_eq_or_imp] at fields
  refine ⟨tame.homeDir, tame.parsed, tame.unpacked, ?_, tame.keyFile, ?_, tame.upScripts,
    tame.downScripts⟩
  · simp only [commandFields, List.mem_cons, forall_eq_or_imp]
    tauto
  · simp_all

/-- The SSH stream stays open. -/
theorem pppSshVpnUp_leaves (noFiles : NoFiles opened) (noConfig : isOpen opened .sshConfig = false)
    (closed : isOpen opened .ssh = false) (noPppd : isOpen opened .pppd = false) :
    Leaves .pppSsh opened (TameContext settings vpn) (pppSshVpnUp settings fuel vpn)
      (.ssh :: opened) := by
  have nothing {given : Prop} : Leaves .pppSsh opened given (pure () : Driver Unit)
      (.ssh :: opened) := by
    have kept : Keeps .pppSsh opened given (pure () : Driver Unit) := .pure rfl fun _ => trivial
    exact Monitored.leaves kept fun _ _ => List.mem_cons_of_mem _
  refine Monitored.bind_leaves (sshVpnValidate_keeps (by decide) noConfig) fun _ => Follows.ite (fun _ => ?_)
    fun _ => nothing
  refine Monitored.bind_leaves ((sshVpnConnect_monitored (by decide) noFiles closed).mono
    (fun held => ⟨held.1, rfl⟩) fun _ _ => id) fun connected => ?_
  cases connected with
  | false => exact nothing
  | true =>
      refine Monitored.bind_leaves (sshHostFindCommand_keeps isOpen_head _ _) fun found => ?_
      refine Monitored.bind_leaves (sshVpnRunCommand_keeps isOpen_head _ _) fun _ => ?_
      have noPppdLater : isOpen (.ssh :: opened) .pppd = false := by
        simpa [isOpen] using noPppd
      have peer : isOpen (.ssh :: opened) .remotePeer = true := by simp [isOpen]
      refine Monitored.leaves ((pppdProcess_keeps (by decide) (noFiles.cons (by simp)) noPppdLater
        peer).mono fun held => ?_) fun _ _ => id
      split
      · exact held.1.1.1.1
      · exact held.1.1.1.1.withRemoteAddress (by decide)

/-- The TLS stream stays open. -/
theorem pppSslClientVpnUp_leaves (noFiles : NoFiles opened)
    (closed : isOpen opened .remotePeer = false) (noPppd : isOpen opened .pppd = false) :
    Leaves .pppTls opened (TameContext settings vpn) (pppSslClientVpnUp settings fuel vpn)
      (.remotePeer :: opened) := by
  refine Monitored.bind_leaves ((routeSetupVpnServer_keeps _).mono fun tame =>
    tame.unpackedParts.1.1) fun _ => ?_
  refine Monitored.bind_leaves (streamOpen_monitored closed rfl fun _ => rfl) fun success => ?_
  cases success with
  | false =>
      have kept : Keeps .pppTls opened ((TameContext settings vpn ∧ True) ∧ True)
        (pure () : Driver Unit) := .pure rfl fun _ => trivial
      exact Monitored.leaves kept fun _ _ => List.mem_cons_of_mem _
  | true =>
      have noPppdLater : isOpen (.remotePeer :: opened) .pppd = false := by
        simpa [isOpen] using noPppd
      have verifies (name : CString) : Keeps .pppTls (.remotePeer :: opened)
          ((TameContext settings vpn ∧ True) ∧ True) (streamGetValue .remotePeer name) :=
        ask_monitored (.streamGetValue .remotePeer name) rfl rfl rfl rfl (all_singleton isOpen_head)
          fun _ _ _ => trivial
      refine Monitored.bind_leaves (verifies _) fun verified => ?_
      refine Monitored.leaves ((pppdProcess_keeps (by decide) (noFiles.cons (by simp)) noPppdLater
        isOpen_head).mono fun held => ?_) fun _ _ => id
      have tame := held.1.1.1
      split
      · exact ⟨tame.homeDir, tame.parsed, tame.unpacked, tame.fields, tame.keyFile, tame.set,
          tame.upScripts, tame.downScripts⟩
      · exact tame

end Drivers

end VpnMgr.Client
