import VpnMgr.Client.Connect

/-!
# What the parts of the drivers touch

A call has at most one feature that a result of this development is about.
Each part of a driver is listed with the features its calls may have.
-/

namespace VpnMgr.Client

open Machine Text CString LibUseful Command Process

inductive Feature where
  | plain
  /-- the program's `mv` -/
  | move
  /-- `wg`, which sets a WireGuard device up -/
  | wg
  | addDevice
  | addAddress
  | addRoute
  | deleteDevice
  | script
  /-- `VpnUp` or `VpnDown` is entered -/
  | bracket
  /-- `TunShutdown` is entered -/
  | shutdown
  | devices
  /-- openvpn's log is read -/
  | log
  /-- a file is written -/
  | rewrite
  /-- a `RunCommandOpen` -/
  | launch
  /-- the SSH server is asked for its tunnel -/
  | question
  deriving DecidableEq

/-- The feature of a command, by its first words. -/
def commandFeature (text : CString) : Feature :=
  if hasPrefix "mv ".toList text then .move
  else if hasPrefix "wg ".toList text then .wg
  else if hasPrefix "ip tuntap add dev ".toList text then .addDevice
  else if hasPrefix "ip link add dev ".toList text then .addDevice
  else if hasPrefix "wireguard-go ".toList text then .addDevice
  else if hasPrefix "boringtun-cli ".toList text then .addDevice
  else if hasPrefix "ip address add dev ".toList text then .addAddress
  else if hasPrefix "route add ".toList text then .addRoute
  else if hasPrefix "ip link delete dev ".toList text then .deleteDevice
  else .plain

def featureOf : Call → Feature
  | .runCommand text _ => commandFeature text
  | .runScript _ => .script
  | .runCommandOpen _ _ => .launch
  | .vpnUp _ => .bracket
  | .vpnDown _ => .bracket
  | .tunShutdown _ => .shutdown
  | .netLoadDevices => .devices
  | .streamReadLine stream => if stream = .openvpn then .log else .plain
  | .streamOpen _ _ config => if config = "w".toList then .rewrite else .plain
  | .streamWriteLine (.file _) _ => .rewrite
  | .streamWriteLine _ text => if text = sshTunnelQuestion then .question else .plain
  | _ => .plain

def within (features : List Feature) (call : Call) : Bool :=
  featureOf call = .plain || features.contains (featureOf call)

def Touches {α : Type} (process : Driver α) (features : List Feature) : Prop :=
  process.Uses (within features)

theorem within_of_mem {features : List Feature} {call : Call} (feature : Feature)
    (is : featureOf call = feature) (member : feature ∈ features) :
    within features call = true := by
  simp [within, is, member]

theorem within_plain {features : List Feature} {call : Call} (is : featureOf call = .plain) :
    within features call = true := by
  simp [within, is]

theorem within_mono {features wider : List Feature} (subset : features ⊆ wider) (call : Call)
    (inside : within features call = true) : within wider call = true := by
  simp only [within, Bool.or_eq_true, decide_eq_true_eq, List.contains_iff_mem] at inside ⊢
  exact inside.imp_right fun member => subset member

section Footprint

variable {features wider : List Feature} {settings : Settings} {fuel : Nat} {vpn : TVpn}

theorem Touches.mono {α : Type} {process : Driver α} (touches : Touches process features)
    (subset : features ⊆ wider) : Touches process wider :=
  Uses.mono touches (within_mono subset)

theorem runCommand_touches {text : CString} {flags : FlagWord} (feature : Feature)
    (is : commandFeature text = feature) (member : feature ∈ features) :
    Touches (runCommand text flags) features := by
  have inside : within features (.runCommand text flags) = true := within_of_mem feature is member
  refine (Uses.ask inside).bind fun status => ?_
  cases status with
  | some status => exact .pure status
  | none => exact .exit

theorem runCommand_plain {text : CString} {flags : FlagWord}
    (is : commandFeature text = .plain) : Touches (runCommand text flags) features := by
  have inside : within features (.runCommand text flags) = true := within_plain is
  refine (Uses.ask inside).bind fun status => ?_
  cases status with
  | some status => exact .pure status
  | none => exact .exit

theorem command_touches {text : CString} (feature : Feature)
    (is : commandFeature text = feature) (member : feature ∈ features) :
    Touches (command text) features :=
  Uses.bind (runCommand_touches feature is member) fun _ => .pure ()

theorem command_plain {text : CString} (is : commandFeature text = .plain) :
    Touches (command text) features :=
  Uses.bind (runCommand_plain is) fun _ => .pure ()

theorem runCommandOpen_touches (text : CString) (flags : FlagWord) (member : .launch ∈ features) :
    Touches (runCommandOpen text flags) features := by
  refine (Uses.ask (within_of_mem .launch rfl member)).bind fun opened => ?_
  cases opened with
  | some opened => exact .pure opened
  | none => exact .exit

theorem runCommand_yields (text : CString) (flags : FlagWord) :
    (runCommand text flags).Yields fun status made =>
      made = [⟨.runCommand text flags, some status⟩] := by
  refine (Ends.asked _).bind fun answer made isMade => ?_
  obtain rfl := isMade
  cases answer with
  | none => exact Ends.exit trivial
  | some status => exact Ends.pure rfl

theorem runCommandOpen_yields (text : CString) (flags : FlagWord) :
    (runCommandOpen text flags).Yields fun opened made =>
      made = [⟨.runCommandOpen text flags, some opened⟩] := by
  refine (Ends.asked _).bind fun answer made isMade => ?_
  obtain rfl := isMade
  cases answer with
  | none => exact Ends.exit trivial
  | some opened => exact Ends.pure rfl

theorem ask_plain {call : Call} (is : featureOf call = .plain) :
    Touches (ask call) features := Uses.ask (within_plain is)

theorem routeSetupVpnServer_touches (destAddress : CPtr) :
    Touches (routeSetupVpnServer destAddress) [.addRoute] :=
  Uses.bind (ask_plain rfl) fun _ => command_touches .addRoute rfl (by simp)

theorem routeCommand_feature (address dev : CString) :
    commandFeature (routeCommand address dev) = .addRoute := by
  unfold routeCommand
  repeat' split
  all_goals rfl

theorem routeSetup_touches (destAddressList : CPtr) (dev : CString) :
    Touches (routeSetup destAddressList dev) [.addRoute] :=
  Uses.each fun _ => command_touches .addRoute (routeCommand_feature _ _) (by simp)

theorem defaultDevGetMTU_touches : Touches defaultDevGetMTU features :=
  Uses.bind (ask_plain rfl) fun _ => ask_plain rfl

theorem netGetDefaultIP_touches : Touches netGetDefaultIP features :=
  Uses.bind (ask_plain rfl) fun _ => ask_plain rfl

theorem resolvChange_touches (pid : Nat) (nameservers : CPtr) :
    Touches (resolvChange pid nameservers) [.rewrite, .move] := by
  refine Uses.bind (Uses.ask (within_of_mem .rewrite rfl (by simp))) fun opened => ?_
  refine Uses.bind (Uses.when ?_) fun _ => ?_
  · refine Uses.bind (Uses.each fun token => ?_) fun _ => ask_plain rfl
    exact Uses.ask (within_of_mem .rewrite rfl (by simp))
  · exact Uses.bind (command_touches .move rfl (by simp)) fun _ =>
      command_touches .move rfl (by simp)

theorem netSetup_touches (dev : CString) :
    Touches (netSetup settings vpn dev) [.addRoute, .rewrite, .move] := by
  refine Uses.bind (Uses.when (command_plain ?_)) fun _ => ?_
  · unfold ifconfigCommand
    split <;> rfl
  refine Uses.bind (Uses.when ((routeSetup_touches _ _).mono (by simp))) fun _ => ?_
  exact Uses.when ((resolvChange_touches _ _).mono (by simp))

theorem netShutdown_touches (dev : CString) : Touches (netShutdown dev) [.deleteDevice] :=
  Uses.bind (command_plain rfl) fun _ => command_touches .deleteDevice rfl (by simp)

theorem upDownRunFiles_touches (files : CPtr) (dev : CString) :
    Touches (upDownRunFiles vpn files dev) [.script] := by
  refine Uses.each fun token => Uses.bind (ask_plain rfl) fun _ => Uses.when ?_
  refine (Uses.ask (within_of_mem .script rfl (by simp))).bind fun status => ?_
  cases status with
  | some _ => exact .pure ()
  | none => exact .exit

theorem vpnUpBody_touches (dev : CString) :
    Touches (do
      netSetup settings vpn dev
      Process.when (strValid vpn.upFile) (upDownRunFiles vpn vpn.upFile dev))
      [.addRoute, .rewrite, .move, .script] :=
  Uses.bind ((netSetup_touches dev).mono (by simp)) fun _ =>
    Uses.when ((upDownRunFiles_touches _ _).mono (by simp))

theorem vpnDownBody_touches (dev : CString) :
    Touches (do
      netShutdown dev
      Process.when (strValid vpn.downFile) (upDownRunFiles vpn vpn.downFile dev))
      [.deleteDevice, .script] :=
  Uses.bind ((netShutdown_touches dev).mono (by simp)) fun _ =>
    Uses.when ((upDownRunFiles_touches _ _).mono (by simp))

theorem tunAvailable_touches : Touches tunAvailable features := by
  have modprobe : Touches tunModprobe features :=
    Uses.bind (command_plain rfl) fun _ => command_plain rfl
  refine Uses.bind (ask_plain rfl) fun _ => Uses.bind (Uses.when modprobe) fun _ => ?_
  refine Uses.bind (command_plain rfl) fun _ => Uses.bind (ask_plain rfl) fun _ => ?_
  refine .ite (.pure _) (Uses.bind (ask_plain rfl) fun _ => .ite (.pure _) (ask_plain rfl))

theorem tunAddCommand_feature (type name : CString) :
    commandFeature (tunAddCommand type name) = .addDevice := by
  unfold tunAddCommand
  split <;> rfl

theorem devices_touches (member : .devices ∈ features) : Touches devices features :=
  Uses.ask (within_of_mem .devices rfl member)

theorem netDevFindNextLive_touches (stem : CString) : Touches (netDevFindNextLive stem) [.devices] := by
  unfold netDevFindNextLive
  induction List.range 999 with
  | nil => exact .pure _
  | cons i rest inductionHypothesis =>
      exact Uses.bind (devices_touches (by simp)) fun _ => .ite inductionHypothesis (.pure _)

theorem tunCreate_touches (type name : CString) :
    Touches (tunCreate type name) [.devices, .addDevice] := by
  refine Uses.bind (devices_touches (by simp)) fun _ => .ite (.pure _) ?_
  refine Uses.bind tunAvailable_touches fun _ => ?_
  exact runCommand_touches .addDevice (tunAddCommand_feature type name) (by simp)

theorem tunSetup_touches (type name : CString) (address : CPtr) :
    Touches (tunSetup type name address) [.devices, .addDevice, .addAddress] := by
  refine Uses.bind ((tunCreate_touches type name).mono (by simp)) fun _ => .ite ?_ (.pure _)
  refine Uses.bind (Uses.when (command_touches .addAddress rfl (by simp))) fun _ => ?_
  refine Uses.bind (command_plain rfl) fun _ => ?_
  exact Uses.bind (devices_touches (by simp)) fun _ => .ite (.pure _) (.pure _)

theorem tunShutdown_touches (dev : CString) :
    Touches (tunShutdown dev) [.deleteDevice, .shutdown] := by
  refine Uses.bind (Uses.ask (within_of_mem .shutdown rfl (by simp))) fun _ => ?_
  exact Uses.bind (command_plain rfl) fun _ => command_touches .deleteDevice rfl (by simp)

theorem drainLines_touches {stream : StreamId} (other : stream ≠ .openvpn) :
    Touches (drainLines fuel stream) features := by
  refine Uses.loop (fun _ => Uses.bind (ask_plain (by simp [featureOf, other])) fun line => ?_) fuel ()
  cases line with
  | none => exact .pure _
  | some line => exact Uses.bind (ask_plain rfl) fun _ => .ite (.pure _) (.pure _)

theorem wireguardLaunchUserspace_touches (dev : CString) {userspaceApp : CString}
    (program : commandFeature (mCopyStr [some userspaceApp, some " ".toList, some dev]) =
      .addDevice) :
    Touches (wireguardLaunchUserspace settings vpn dev userspaceApp)
      [.devices, .addDevice, .addAddress] := by
  refine Uses.ite (Uses.bind (command_touches .addDevice program (by simp)) fun _ => ?_) (.pure _)
  refine Uses.bind (tunSetup_touches _ _ _) fun _ => .ite ?_ (.pure _)
  exact Uses.bind (devices_touches (by simp)) fun _ => .ite (.pure _) (.pure _)

theorem wireguardUserspace_touches (dev : CString) :
    Touches (wireguardUserspace settings vpn dev) [.devices, .addDevice, .addAddress] := by
  refine Uses.bind (wireguardLaunchUserspace_touches dev rfl) fun _ => .ite (.pure ()) ?_
  refine Uses.bind (wireguardLaunchUserspace_touches dev rfl) fun _ => .ite (.pure ()) ?_
  exact Uses.bind (wireguardLaunchUserspace_touches dev rfl) fun _ => .pure ()

theorem wireguardDevice_touches : Touches (wireguardDevice vpn) [.devices] := by
  exact Uses.bind (command_plain rfl) fun _ => .ite (.pure _) (netDevFindNextLive_touches _)

theorem readNamedFile_touches (path : CPtr) : Touches (readNamedFile path) features :=
  .ite (ask_plain rfl) (.pure _)

theorem wireguardFormatCommand_touches (dev : CString) :
    Touches (wireguardFormatCommand settings vpn dev) [.addRoute] := by
  refine Uses.ite (.pure _) (Uses.bind (readNamedFile_touches _) fun _ => ?_)
  exact Uses.bind (Uses.when (routeSetupVpnServer_touches _)) fun _ => .pure _

theorem wireguardFormatCommand_wg (dev : CString) :
    (wireguardFormatCommand settings vpn dev).Yields fun text _ => commandFeature text = .wg := by
  unfold wireguardFormatCommand
  split
  · exact Ends.pure rfl
  · refine Ends.bind (Uses.yields (@readNamedFile_touches [] _)) fun _ _ _ => ?_
    refine Ends.bind (Uses.yields (Uses.when (routeSetupVpnServer_touches _))) fun _ _ _ => ?_
    exact Ends.pure rfl

theorem openVpnGenPasswordFile_touches :
    Touches (openVpnGenPasswordFile settings vpn) [.rewrite] := by
  refine Uses.bind (Uses.ask (within_of_mem .rewrite rfl (by simp))) fun _ => .ite ?_ (.pure ())
  refine Uses.bind (Uses.ask (within_of_mem .rewrite rfl (by simp))) fun _ => ask_plain rfl

theorem openVpnShutDown_touches (dev : CString) :
    Touches (openVpnShutDown settings vpn dev) [.deleteDevice, .shutdown] := by
  refine Uses.bind (ask_plain rfl) fun _ => Uses.bind (Uses.when (command_plain rfl)) fun _ => ?_
  exact tunShutdown_touches dev

theorem sshVpnValidate_touches : Touches (sshVpnValidate settings fuel vpn) features := by
  refine Uses.bind (ask_plain rfl) fun _ => .ite (Uses.bind (Uses.loop (fun _ => ?_) _ _) fun _ => ?_)
    (.pure _)
  · refine Uses.bind (ask_plain rfl) fun line => ?_
    cases line <;> exact .pure _
  · exact Uses.bind (ask_plain rfl) fun _ => .pure _

theorem sshHostLookupIP_touches (host : CPtr) :
    Touches (sshHostLookupIP settings fuel host) features := by
  refine Uses.bind (ask_plain rfl) fun _ => .ite (Uses.bind (Uses.loop (fun _ => ?_) _ _) fun _ => ?_)
    (.pure _)
  · refine Uses.bind (ask_plain rfl) fun line => ?_
    cases line with
    | none => exact .pure _
    | some line =>
        refine .ite (.pure _) (.ite ?_ (.pure _))
        exact Uses.bind (ask_plain rfl) fun _ => .pure _
  · exact Uses.bind (ask_plain rfl) fun _ => .pure _

theorem sshVpnSendSync_touches : Touches sshVpnSendSync features :=
  Uses.bind (ask_plain rfl) fun _ => Uses.bind (ask_plain rfl) fun _ => .pure _

theorem sshVpnSync_touches : Touches (sshVpnSync fuel) features := by
  refine Uses.bind sshVpnSendSync_touches fun _ => Uses.bind (Uses.loop (fun _ => ?_) _ _) fun _ => ?_
  · refine Uses.bind (ask_plain rfl) fun text => ?_
    rcases text with _ | _ | ⟨head, rest⟩
    · exact .pure _
    · exact Uses.bind sshVpnSendSync_touches fun _ => .pure _
    · exact .ite (.pure _) (Uses.bind (ask_plain rfl) fun _ => .ite (.pure _) (.pure _))
  · exact Uses.bind (ask_plain rfl) fun _ => .pure _

theorem streamWriteLine_touches {stream : StreamId} (text : CString)
    (member : .question ∈ features) (noFile : ∀ path, stream ≠ .file path) :
    Touches (streamWriteLine stream text) features := by
  refine Uses.ask ?_
  by_cases asked : text = sshTunnelQuestion
  · refine within_of_mem .question ?_ member
    cases stream <;> simp_all [featureOf]
  · refine within_plain ?_
    cases stream <;> simp_all [featureOf]

theorem sshVpnSendCommand_touches (cmd : CString) (flags : FlagWord) :
    Touches (sshVpnSendCommand settings cmd flags) [.question] := by
  refine .ite (Uses.bind (streamWriteLine_touches _ (by simp) (by simp)) fun _ => ?_) (.pure _)
  refine Uses.bind (ask_plain rfl) fun _ => .ite (ask_plain rfl) (.pure _)

theorem sshVpnRunCommandTry_touches (cmd : CString) (flags : FlagWord) :
    Touches (sshVpnRunCommandTry settings fuel cmd flags) [.question] := by
  refine Uses.bind sshVpnSync_touches fun _ => ?_
  refine Uses.bind (sshVpnSendCommand_touches cmd flags) fun _ => ?_
  exact Uses.bind (Uses.when sshVpnSync_touches) fun _ => .pure _

theorem sshVpnRunCommand_touches (cmd : CString) (flags : FlagWord) :
    Touches (sshVpnRunCommand settings fuel cmd flags) [.question] :=
  Uses.bind (sshVpnRunCommandTry_touches _ _) fun _ =>
    .ite (.pure _) (sshVpnRunCommandTry_touches _ _)

theorem sshVpnConnect_touches (command : CString) :
    Touches (sshVpnConnect settings fuel vpn command) [.addRoute, .launch] := by
  refine Uses.bind (sshHostLookupIP_touches _) fun _ => ?_
  refine Uses.bind (Uses.when ((routeSetupVpnServer_touches _).mono (by simp))) fun _ => ?_
  refine Uses.bind (runCommandOpen_touches _ _ (by simp)) fun _ => .ite ?_ (.pure _)
  exact Uses.bind (ask_plain rfl) fun _ => Uses.bind sshVpnSync_touches fun _ => .pure _

theorem sshReadRemoteDev_touches (rounds : Nat) (dev : CString) :
    Touches (sshReadRemoteDev rounds dev) features := by
  induction rounds generalizing dev with
  | zero => exact .pure _
  | succ rounds inductionHypothesis =>
      exact Uses.bind (ask_plain rfl) fun _ => .ite (.pure _) (inductionHypothesis _)

theorem sshGetRemoteDev_touches : Touches sshGetRemoteDev [.question] :=
  Uses.bind (Uses.ask (within_of_mem .question rfl (by simp))) fun _ => sshReadRemoteDev_touches _ _

theorem sshSetupRoute_touches (dev : CString) :
    Touches (sshSetupRoute settings fuel vpn dev) [.question] := by
  have address : Touches (sshLocalAddress vpn) [.question] :=
    .ite (.pure _) (Uses.bind netGetDefaultIP_touches fun _ => .pure _)
  refine Uses.bind address fun vpn => Uses.bind (Uses.when ?_) fun _ => .pure _
  exact Uses.bind (sshVpnRunCommand_touches _ _) fun _ => .pure _

theorem sshSetup_touches : Touches (sshSetup settings fuel vpn) [.question] := by
  refine Uses.bind (ask_plain rfl) fun _ => Uses.bind sshVpnSync_touches fun _ => ?_
  refine Uses.bind sshGetRemoteDev_touches fun _ => .ite ?_ (.pure _)
  exact Uses.bind (sshSetupRoute_touches _) fun _ => .pure _

theorem sshProcess_touches : Touches (sshProcess fuel) features :=
  Uses.bind (ask_plain rfl) fun _ => .ite (.pure _) (drainLines_touches (by simp))

theorem sshDevice_touches : Touches (sshDevice vpn) [.devices] :=
  .ite (.pure _) (netDevFindNextLive_touches _)

theorem pppdLaunch_touches : Touches (pppdLaunch vpn) [.launch] :=
  Uses.bind (runCommandOpen_touches _ _ (by simp)) fun _ => .pure _

theorem pppdLaunch_yields :
    (pppdLaunch vpn).Yields fun launched made =>
      launched.2 = { vpn with localAddress := pppdLocalAddress vpn } ∧
        Only (within [.launch]) made := by
  have launch : Touches (runCommandOpen (pppdCommand vpn) (cmdSudo ||| cmdSu ||| cmdNoStderr))
      [.launch] := runCommandOpen_touches _ _ (by simp)
  refine (Uses.yields launch).bind fun launched made only => ?_
  exact Ends.pure ⟨rfl, by simpa using only⟩

theorem pppdRelay_touches (source target : StreamId) :
    Touches (pppdRelay source target) features := by
  refine Uses.bind (ask_plain rfl) fun _ => .ite ?_ ?_
  · exact Uses.bind (Uses.when (ask_plain rfl)) fun _ => .pure _
  · exact Uses.bind (ask_plain rfl) fun _ => .pure _

theorem pppdReady_touches (selected : Option StreamId) :
    Touches (pppdReady selected) features :=
  .ite (pppdRelay_touches _ _) (.ite (pppdRelay_touches _ _) (.pure _))

theorem sshHostFindCommand_touches (cmd : CString) (dirs : List CString) :
    Touches (sshHostFindCommand cmd dirs) features := by
  induction dirs with
  | nil => exact .pure _
  | cons dir rest inductionHypothesis =>
      refine Uses.bind (ask_plain rfl) fun _ => Uses.bind (ask_plain rfl) fun _ => ?_
      exact .ite (.pure _) inductionHypothesis

end Footprint

end VpnMgr.Client
