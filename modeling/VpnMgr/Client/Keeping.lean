import VpnMgr.Client.OpenVpnLog

/-!
# What every driver keeps

A composable property that the harmless parts of a driver have, and its calls
to `VpnUp` and `VpnDown`, is one of the driver's runs.
-/

namespace VpnMgr.Client

open Machine Text CString LibUseful Command Process

/-- Everything but `VpnUp`, `VpnDown` and openvpn's password file. -/
def harmlessFeatures : List Feature :=
  [.wg, .addDevice, .addAddress, .addRoute, .deleteDevice, .script, .shutdown, .devices, .log,
    .launch, .question]

structure Kept (features : List Feature) (property gone : History Answer → Prop) : Prop where
  composable : Composable property gone
  harmless : ∀ made, Only (within features) made → property made
  leaves : ∀ made, Only (within features) made → gone made

/-- `VpnUp` has the property, for connections with these nameservers. -/
def UpMakes (settings : Settings) (dns : CPtr) (property gone : History Answer → Prop) : Prop :=
  ∀ vpn dev, vpn.dns = dns → (vpnUp settings vpn dev).Makes property gone

section Drivers

variable {features : List Feature} {property gone : History Answer → Prop} {settings : Settings}
  {fuel : Nat} {vpn : TVpn}

/-- `SSHSetup` leaves the nameservers alone. -/
theorem sshSetup_dns : (sshSetup settings fuel vpn).Yields fun outcome _ =>
    outcome.2.dns = vpn.dns := by
  have address : (sshLocalAddress vpn).Yields fun vpn' _ => vpn'.dns = vpn.dns := by
    unfold sshLocalAddress
    split
    · exact Ends.pure rfl
    · exact Ends.bind (Uses.yields (@netGetDefaultIP_touches [])) fun _ _ _ => Ends.pure rfl
  have route : ∀ dev, (sshSetupRoute settings fuel vpn dev).Yields fun vpn' _ =>
      vpn'.dns = vpn.dns := by
    intro dev
    refine address.bind fun vpn' _ same => ?_
    refine Ends.bind (@Uses.yields _ _ _ _ (within [.question]) (Uses.when ?_))
      fun _ _ _ => Ends.pure same
    exact Uses.bind (sshVpnRunCommand_touches _ _) fun _ => .pure ()
  refine Ends.bind (Uses.yields (@ask_plain [] _ rfl)) fun _ _ _ => ?_
  refine Ends.bind (Uses.yields (@sshVpnSync_touches [] fuel)) fun _ _ _ => ?_
  refine Ends.bind (Uses.yields sshGetRemoteDev_touches) fun dev _ _ => ?_
  split
  · exact (route dev).bind fun _ _ same => Ends.pure same
  · exact Ends.pure rfl

theorem Kept.makes {α : Type} (kept : Kept features property gone) {used : List Feature}
    {process : Driver α} (touches : Touches process used) (subset : used ⊆ features) :
    process.Makes property gone :=
  Ends.mono (touches.mono subset) (fun _ => kept.harmless) kept.leaves

theorem Kept.plain (kept : Kept features property gone) {call : Call}
    (is : featureOf call = .plain) : (ask call).Makes property gone :=
  kept.makes (@ask_plain [] call is) (List.nil_subset _)

theorem Kept.bind {α β : Type} (kept : Kept features property gone) {used : List Feature}
    {process : Driver α} {next : α → Driver β} (touches : Touches process used)
    (subset : used ⊆ features) (rest : ∀ result, (next result).Makes property gone) :
    (process >>= next).Makes property gone :=
  (kept.makes touches subset).bind kept.composable rest

theorem wireguardUp_makes
    (kept : Kept [.devices, .addDevice, .addAddress, .addRoute, .wg] property gone)
    (session : ∀ dev, Makes (do
      vpnUp settings vpn dev
      drainLines fuel .terminal
      tunShutdown dev) property gone) : (wireguardUp settings fuel vpn).Makes property gone := by
  refine kept.bind wireguardDevice_touches (by decide) fun dev => ?_
  refine .ite ?_ (.pure kept.composable ())
  refine kept.bind (tunSetup_touches _ _ _) (by decide) fun status => ?_
  refine kept.bind (Uses.when (wireguardUserspace_touches dev)) (by decide) fun _ => ?_
  refine Makes.bind_yields kept.composable (kept.makes (wireguardFormatCommand_touches dev) (by decide))
    (@wireguardFormatCommand_wg settings vpn dev) fun text _ isWg => ?_
  refine kept.bind (runCommand_touches .wg isWg (List.mem_singleton_self _)) (by decide)
    fun status => ?_
  exact .ite (session dev) (.pure kept.composable ())

theorem pppdRound_makes (kept : Kept features property gone) (subset : [.devices] ⊆ features)
    (up : UpMakes settings vpn.dns property gone) (configured : Bool) :
    (pppdRound settings vpn configured).Makes property gone := by
  have endpoint : (pppdTryConfigureEndpoint settings vpn).Makes property gone := by
    refine kept.bind (devices_touches (List.mem_singleton_self _)) subset fun table => ?_
    refine .ite ?_ (.pure kept.composable false)
    exact (up vpn _ rfl).bind kept.composable fun _ => .pure kept.composable true
  refine (kept.plain rfl).bind kept.composable fun selected => ?_
  refine (kept.plain rfl).bind kept.composable fun _ => .ite (.pure kept.composable _) ?_
  refine kept.bind (@pppdReady_touches [] selected) (List.nil_subset _) fun _ => ?_
  refine .ite (.ite (.pure kept.composable _) ?_) (.pure kept.composable _)
  exact endpoint.bind kept.composable fun _ => .pure kept.composable _

theorem pppdProcess_makes (kept : Kept features property gone)
    (subset : [.launch, .devices] ⊆ features) (up : UpMakes settings vpn.dns property gone) :
    (pppdProcess settings fuel vpn).Makes property gone := by
  have launch : [Feature.launch] ⊆ features := List.Subset.trans (by decide) subset
  have devices : [Feature.devices] ⊆ features := List.Subset.trans (by decide) subset
  refine Makes.bind_yields kept.composable (kept.makes pppdLaunch_touches launch) pppdLaunch_yields
    fun launched _ held => ?_
  rcases launched with ⟨launched, vpn'⟩
  obtain ⟨rfl, -⟩ := held
  refine .ite ?_ (.pure kept.composable ())
  refine Makes.bind kept.composable ?_ fun _ => kept.plain rfl
  exact .loop kept.composable (fun configured => @pppdRound_makes features property gone settings
    { vpn with localAddress := pppdLocalAddress vpn } kept devices up configured) fuel false

theorem pppSshVpnUp_makes
    (kept : Kept [.addRoute, .launch, .question, .devices] property gone)
    (up : UpMakes settings vpn.dns property gone) :
    (pppSshVpnUp settings fuel vpn).Makes property gone := by
  refine kept.bind (@sshVpnValidate_touches [] settings fuel vpn) (by decide) fun _ => ?_
  refine .ite ?_ (.pure kept.composable ())
  refine kept.bind (sshVpnConnect_touches []) (by decide) fun _ => ?_
  refine .ite ?_ (.pure kept.composable ())
  refine kept.bind (@sshHostFindCommand_touches [] _ _) (by decide) fun found => ?_
  refine kept.bind (sshVpnRunCommand_touches _ _) (by decide) fun _ => ?_
  split
  · exact pppdProcess_makes kept (by decide) up
  · exact pppdProcess_makes kept (by decide) up

theorem pppSslClientVpnUp_makes (kept : Kept [.addRoute, .launch, .devices] property gone)
    (up : UpMakes settings vpn.dns property gone) :
    (pppSslClientVpnUp settings fuel vpn).Makes property gone := by
  refine kept.bind (routeSetupVpnServer_touches _) (by decide) fun _ => ?_
  refine (kept.plain rfl).bind kept.composable fun _ => .ite ?_ (.pure kept.composable ())
  refine (kept.plain rfl).bind kept.composable fun verified => ?_
  dsimp only
  split
  · exact pppdProcess_makes kept (by decide) up
  · exact pppdProcess_makes kept (by decide) up

theorem sshVpnSession_makes (kept : Kept features property gone) (subset : [.question] ⊆ features)
    (up : UpMakes settings vpn.dns property gone) (dev : CString)
    (down : ∀ vpn, (vpnDown vpn dev).Makes property gone) :
    (sshVpnSession settings fuel vpn dev).Makes property gone := by
  refine Makes.bind_yields kept.composable (kept.makes sshSetup_touches subset) sshSetup_dns
    fun outcome _ sameDns => ?_
  rcases outcome with ⟨ready, vpn'⟩
  refine Makes.bind kept.composable (.when kept.composable ?_) fun _ => ?_
  · refine (up vpn' dev sameDns).bind kept.composable fun _ => ?_
    exact kept.makes (@sshProcess_touches [] fuel) (List.nil_subset _)
  · refine (kept.plain rfl).bind kept.composable fun _ => ?_
    exact (kept.plain rfl).bind kept.composable fun _ => down vpn'

theorem sshVpnUp_makes
    (kept : Kept [.devices, .addDevice, .addAddress, .addRoute, .launch, .question] property gone)
    (up : UpMakes settings vpn.dns property gone)
    (down : ∀ vpn dev, (vpnDown vpn dev).Makes property gone) :
    (sshVpnUp settings fuel vpn).Makes property gone := by
  refine kept.bind (@sshVpnValidate_touches [] settings fuel vpn) (by decide) fun _ => ?_
  refine .ite ?_ (.pure kept.composable ())
  refine kept.bind sshDevice_touches (by decide) fun dev => .ite ?_ (.pure kept.composable ())
  refine kept.bind (tunSetup_touches _ _ _) (by decide) fun _ => ?_
  refine kept.bind (sshVpnConnect_touches _) (by decide) fun _ => ?_
  exact .ite (sshVpnSession_makes kept (by decide) up dev fun vpn => down vpn dev)
    (.pure kept.composable ())

theorem openVpnUp_makes (kept : Kept [.log, .launch, .deleteDevice, .shutdown] property gone)
    (up : UpMakes settings vpn.dns property gone)
    (password : (openVpnGenPasswordFile settings vpn).Makes property gone) :
    (openVpnUp settings fuel vpn).Makes property gone := by
  have session : (openVpnProcess settings fuel vpn).Makes property gone := by
    refine .loop kept.composable (fun dev => ?_) fuel _
    have line : Touches (streamReadLine .openvpn) [.log] :=
      Uses.ask (within_of_mem .log rfl (List.mem_singleton_self _))
    refine kept.bind line (by decide) fun read => ?_
    cases read with
    | none => exact .pure kept.composable _
    | some line =>
        refine (kept.plain rfl).bind kept.composable fun _ => .ite (.pure kept.composable _) ?_
        refine Makes.bind kept.composable ?_ fun _ => .pure kept.composable _
        exact .when kept.composable (up vpn _ rfl)
  refine kept.bind (@tunAvailable_touches []) (by decide) fun _ => ?_
  refine .ite ?_ (.pure kept.composable ())
  refine kept.bind (@defaultDevGetMTU_touches []) (by decide) fun _ => ?_
  refine (Makes.when kept.composable password).bind kept.composable fun _ => ?_
  refine kept.bind (runCommandOpen_touches _ _ (List.mem_singleton_self _)) (by decide) fun _ => ?_
  refine .ite ?_ (.pure kept.composable ())
  exact session.bind kept.composable fun dev => kept.makes (openVpnShutDown_touches dev) (by decide)

theorem Kept.mono {wider : List Feature} (kept : Kept wider property gone)
    (subset : features ⊆ wider) : Kept features property gone where
  composable := kept.composable
  harmless made only := kept.harmless made fun interaction member =>
    within_mono subset _ (only interaction member)
  leaves made only := kept.leaves made fun interaction member =>
    within_mono subset _ (only interaction member)

/-- A property that the harmless parts, `VpnUp`, `VpnDown` and the writing of the
password file have holds of the whole run of any driver. -/
theorem protocolUp_makes (kept : Kept harmlessFeatures property gone)
    (up : UpMakes settings vpn.dns property gone)
    (down : ∀ vpn dev, (vpnDown vpn dev).Makes property gone)
    (password : (openVpnGenPasswordFile settings vpn).Makes property gone)
    (protocol : Protocol) : (protocolUp settings fuel vpn protocol).Makes property gone := by
  cases protocol with
  | wireguard =>
      refine wireguardUp_makes (kept.mono (by decide)) fun dev => ?_
      refine (up vpn dev rfl).bind kept.composable fun _ => ?_
      refine kept.bind (@drainLines_touches [] fuel _ (by simp)) (by decide) fun _ => ?_
      exact kept.makes (tunShutdown_touches dev) (by decide)
  | ssh => exact sshVpnUp_makes (kept.mono (by decide)) up down
  | openVpn => exact openVpnUp_makes (kept.mono (by decide)) up password
  | pppSsh => exact pppSshVpnUp_makes (kept.mono (by decide)) up
  | pppTls => exact pppSslClientVpnUp_makes (kept.mono (by decide)) up

end Drivers

end VpnMgr.Client
