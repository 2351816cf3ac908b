import VpnMgr.Client.OpenVpnLog

/-!
# Up and down calls

Which calls to `VpnUp` and `VpnDown` the runs of each driver make.
-/

namespace VpnMgr.Client

open Machine Text CString LibUseful Command Process

/-- Each `VpnUp` is followed by the `VpnDown` of its device, and there is no other. -/
def Bracketed (calls : List Bracket) : Prop :=
  ∃ devs : List CString, calls = devs.flatMap fun dev => [.up dev, .down dev]

theorem bracketed_nil : Bracketed [] := ⟨[], rfl⟩

theorem bracketed_pair (dev : CString) : Bracketed [.up dev, .down dev] := ⟨[dev], rfl⟩

theorem bracketed_ups (devs : List CString) : Bracketed (devs.map .up) ↔ devs = [] := by
  constructor
  · rintro ⟨pairs, same⟩
    cases devs with
    | nil => rfl
    | cons dev rest =>
        cases pairs with
        | nil => simp at same
        | cons pair pairs => cases rest <;> simp at same
  · rintro rfl
    exact bracketed_nil

theorem not_bracketed_down (dev : CString) : ¬ Bracketed [.down dev] := by
  rintro ⟨pairs, same⟩
  cases pairs <;> simp at same

/-! ## What decides it -/

/-- A `wg` command ends well. -/
def wgSucceeds : Sigma Answer → Bool
  | ⟨.runCommand text _, some .okay⟩ => commandFeature text = .wg
  | _ => false

/-- The devices hold a `ppp` device with this address. -/
def findsEndpoint (address : CString) : Sigma Answer → Bool
  | ⟨.netLoadDevices, table⟩ => strValid (some (netDevFindForIP table "ppp".toList address))
  | _ => false

def isQuestion : Sigma Answer → Bool
  | ⟨.streamWriteLine .ssh text, _⟩ => text = sshTunnelQuestion
  | _ => false

/-- The device that the first answers name, with some rounds of reading to go. -/
def answeredDev : Nat → CString → History Answer → CString
  | rounds + 1, _, ⟨.streamReadToMultiTerminator .ssh, line⟩ :: rest =>
      let dev := stripTrailingWhitespace (copyStr line)
      if strValid (some dev) && hasPrefix "tun".toList dev then dev
      else answeredDev rounds dev rest
  | _, dev, _ => dev

/-- The SSH server was asked for its tunnel and named no device. -/
def unanswered (made : History Answer) : Bool :=
  match made.dropWhile fun interaction => !isQuestion interaction with
  | [] => false
  | _ :: replies => answeredDev 10 [] replies = []

/-- What keeps the calls of a run bracketed, by protocol. -/
def StaysBracketed (vpn : TVpn) (made : History Answer) : Protocol → Prop
  | .wireguard => made.any wgSucceeds = false
  | .ssh => unanswered made = false
  | .openVpn => (heededLines made).any reportsUp = false
  | .pppSsh | .pppTls => made.any (findsEndpoint (copyStr (pppdLocalAddress vpn))) = false

theorem wgSucceeds_eq_false {features : List Feature} {made : History Answer}
    (only : Only (within features) made) (lacks : .wg ∉ features) :
    made.any wgSucceeds = false := by
  refine any_eq_false_of_within (fun interaction read => ?_) lacks (by decide) only
  rcases interaction with ⟨call, answer⟩
  cases call with
  | runCommand text flags =>
      rcases answer with _ | _ | _ <;>
        first | exact of_decide_eq_true read | exact absurd read Bool.false_ne_true
  | _ => exact absurd read Bool.false_ne_true

theorem findsEndpoint_eq_false {features : List Feature} {made : History Answer}
    (address : CString) (only : Only (within features) made) (lacks : .devices ∉ features) :
    made.any (findsEndpoint address) = false := by
  refine any_eq_false_of_within (fun interaction read => ?_) lacks (by decide) only
  rcases interaction with ⟨call, answer⟩
  cases call <;> first | rfl | exact absurd read Bool.false_ne_true

section Runs

variable {settings : Settings} {fuel : Nat} {vpn : TVpn}

/-- One `VpnUp` without a `VpnDown` when the sign is there, no call when it is not. -/
def LoneUp (sign : Sigma Answer → Bool) (made : History Answer) : Prop :=
  (brackets made = [] ∧ made.any sign = false) ∨
    ∃ dev, brackets made = [.up dev] ∧ made.any sign = true

theorem LoneUp.after {sign : Sigma Answer → Bool} {before made : History Answer}
    (noBracket : brackets before = []) (noSign : before.any sign = false)
    (lone : LoneUp sign made) : LoneUp sign (before ++ made) := by
  simpa [LoneUp, noBracket, noSign] using lone

theorem LoneUp.bracketed_iff {sign : Sigma Answer → Bool} {made : History Answer}
    (lone : LoneUp sign made) : Bracketed (brackets made) ↔ made.any sign = false := by
  rcases lone with ⟨none, noSign⟩ | ⟨dev, up, isSign⟩
  · rw [none, noSign]
    exact iff_of_true bracketed_nil rfl
  · rw [up, isSign]
    exact iff_of_false (fun bracketed => by simpa using (bracketed_ups [dev]).mp bracketed) (by simp)

theorem vpnUp_alone {features : List Feature} {rest : Driver Unit} (dev : CString)
    (touches : Touches rest features) (lacks : .bracket ∉ features) :
    Yields (do vpnUp settings vpn dev; rest) fun _ made => brackets made = [.up dev] := by
  refine (vpnUp_ends dev).yields.bind fun _ made entered => ?_
  refine (Uses.yields touches).mono fun _ more only => ?_
  rw [brackets_append, brackets_vpnUp entered (by simp), brackets_eq_nil only lacks]
  rfl

/-- The last part of `WireguardUp`. -/
theorem wireguardSession_yields {text : CString} (dev : CString)
    (isWg : commandFeature text = .wg) :
    Yields (do
      if (← runCommand text cmdAsRoot) = .okay then
        vpnUp settings vpn dev
        drainLines fuel .terminal
        tunShutdown dev)
      fun _ made => LoneUp wgSucceeds made := by
  refine (runCommand_yields text cmdAsRoot).bind fun status made isMade => ?_
  obtain rfl := isMade
  by_cases okay : status = .okay
  · obtain rfl := okay
    have rest : Touches (do drainLines fuel .terminal; tunShutdown dev) [.deleteDevice, .shutdown] :=
      Uses.bind (drainLines_touches (by simp)) fun _ => tunShutdown_touches dev
    refine (vpnUp_alone dev rest (by simp)).mono fun _ more up => .inr ⟨dev, ?_, ?_⟩
    · rw [brackets_append, up]
      rfl
    · simp [wgSucceeds, isWg]
  · have failed : wgSucceeds ⟨.runCommand text cmdAsRoot, some status⟩ = false := by
      cases status <;> first | rfl | exact absurd rfl okay
    simp only [okay, if_false]
    exact Ends.pure (.inl ⟨rfl, by simp [failed]⟩)

theorem wireguardUp_yields :
    (wireguardUp settings fuel vpn).Yields fun _ made => LoneUp wgSucceeds made := by
  have absorbs : ∀ features, .bracket ∉ features → .wg ∉ features →
      ∀ (_ : Unit) before made, Only (within features) before → LoneUp wgSucceeds made →
        LoneUp wgSucceeds (before ++ made) :=
    fun features noBracket noWg _ before made only =>
      LoneUp.after (brackets_eq_nil only noBracket) (wgSucceeds_eq_false only noWg)
  refine Uses.before wireguardDevice_touches (absorbs _ (by simp) (by simp)) fun dev => ?_
  split
  case isFalse => exact Ends.pure (.inl ⟨rfl, rfl⟩)
  refine Uses.before (tunSetup_touches _ _ _) (absorbs _ (by simp) (by simp)) fun status => ?_
  refine Uses.before (Uses.when (wireguardUserspace_touches dev)) (absorbs _ (by simp) (by simp))
    fun _ => ?_
  have format := Ends.and (Uses.yields (wireguardFormatCommand_touches dev))
    (@wireguardFormatCommand_wg settings vpn dev)
  refine format.yields.bind fun text before held => ?_
  refine (wireguardSession_yields dev held.2).mono fun _ more lone => ?_
  exact absorbs _ (by simp) (by simp) () before more held.1 lone

/-- No call to `VpnUp` or `VpnDown`, and no sight of the endpoint. -/
def Unconfigured (address : CString) (made : History Answer) : Prop :=
  brackets made = [] ∧ made.any (findsEndpoint address) = false

theorem unconfigured_of_within {features : List Feature} {made : History Answer}
    (address : CString) (only : Only (within features) made)
    (lacks : .bracket ∉ features ∧ .devices ∉ features) : Unconfigured address made :=
  ⟨brackets_eq_nil only lacks.1, findsEndpoint_eq_false address only lacks.2⟩

theorem Unconfigured.append {address : CString} {before made : History Answer}
    (first : Unconfigured address before) (second : Unconfigured address made) :
    Unconfigured address (before ++ made) := by
  simp [Unconfigured, first.1, first.2, second.1, second.2]

/-- One `VpnUp`, on the sight of the endpoint. -/
def Configured (address : CString) (made : History Answer) : Prop :=
  ∃ dev, brackets made = [.up dev] ∧ made.any (findsEndpoint address) = true

theorem Configured.after {address : CString} {before made : History Answer}
    (quiet : Unconfigured address before) (configured : Configured address made) :
    Configured address (before ++ made) := by
  simpa [Configured, quiet.1, quiet.2] using configured

theorem Configured.append {address : CString} {made more : History Answer}
    (configured : Configured address made) (quiet : Unconfigured address more) :
    Configured address (made ++ more) := by
  simpa [Configured, quiet.1, quiet.2] using configured

theorem pppdTryConfigureEndpoint_yields :
    (pppdTryConfigureEndpoint settings vpn).Yields fun configured made =>
      if configured then Configured (copyStr vpn.localAddress) made
      else Unconfigured (copyStr vpn.localAddress) made := by
  refine (Ends.asked _).bind fun table made isMade => ?_
  obtain rfl := isMade
  dsimp only
  split
  case isTrue found =>
    refine (vpnUp_ends _).yields.bind fun _ made entered => Ends.pure ?_
    refine ⟨netDevFindForIP table "ppp".toList (copyStr vpn.localAddress), ?_, ?_⟩
    · rw [List.append_nil, brackets_append, brackets_vpnUp entered (by simp)]
      rfl
    · rw [List.append_nil, List.any_append, Bool.or_eq_true]
      exact .inl (by simpa [findsEndpoint] using found)
  case isFalse missing => exact Ends.pure ⟨rfl, by simpa [findsEndpoint] using missing⟩

/-- What a round of `PPPDProcess` does. -/
def RoundDone (address : CString) (configured : Bool) (made : History Answer) :
    Bool ⊕ Unit → Prop
  | .inr () => Unconfigured address made
  | .inl later => (later = configured ∧ Unconfigured address made) ∨
      (later = true ∧ configured = false ∧ Configured address made)

theorem pppdRound_yields (configured : Bool) :
    (pppdRound settings vpn configured).Yields fun next made =>
      RoundDone (copyStr vpn.localAddress) configured made next := by
  have absorbs : ∀ next before made, Only (within []) before →
      RoundDone (copyStr vpn.localAddress) configured made next →
        RoundDone (copyStr vpn.localAddress) configured (before ++ made) next := by
    intro next before made only done
    have quiet := unconfigured_of_within (copyStr vpn.localAddress) only (by simp)
    rcases next with later | _
    · rcases done with ⟨same, unconfigured⟩ | ⟨isTrue, isFalse, up⟩
      · exact .inl ⟨same, quiet.append unconfigured⟩
      · exact .inr ⟨isTrue, isFalse, up.after quiet⟩
    · exact quiet.append done
  refine Uses.before (ask_plain rfl) absorbs fun selected => ?_
  refine Uses.before (ask_plain rfl) absorbs fun exits => ?_
  split
  case isTrue => exact Ends.pure ⟨rfl, rfl⟩
  refine Uses.before (pppdReady_touches selected) absorbs fun ready => ?_
  split
  case isFalse => exact Ends.pure ⟨rfl, rfl⟩
  split
  case isTrue isConfigured => exact Ends.pure (.inl ⟨isConfigured.symm, rfl, rfl⟩)
  case isFalse notConfigured =>
    refine pppdTryConfigureEndpoint_yields.bind fun later made done => Ends.pure ?_
    rw [List.append_nil]
    cases later with
    | true => exact .inr ⟨rfl, by simpa using notConfigured, by simpa using done⟩
    | false => exact .inl ⟨by simpa using notConfigured, by simpa using done⟩

/-- What the loop of `PPPDProcess` does from a state on. -/
def Configures (address : CString) (configured : Bool) (made : History Answer) : Prop :=
  Unconfigured address made ∨ (configured = false ∧ Configured address made)

theorem pppdLoop_yields (configured : Bool) :
    (Process.loop (pppdRound settings vpn) fuel configured).Yields fun _ made =>
      Configures (copyStr vpn.localAddress) configured made := by
  refine @Ends.loop_from _ _ _ _ _ (fun configured _ made =>
    Configures (copyStr vpn.localAddress) configured made) (fun _ _ => True)
    (fun configured => ?_) fuel configured
  refine Ends.mono (pppdRound_yields configured) (fun next made done => ?_) fun _ _ => trivial
  rcases next with later | _
  · refine ⟨fun _ more rest => ?_, fun _ _ => trivial⟩
    rcases done with ⟨rfl, quiet⟩ | ⟨rfl, isFalse, up⟩
    · exact rest.imp quiet.append fun later => ⟨later.1, later.2.after quiet⟩
    · rcases rest with quiet | ⟨never, _⟩
      · exact .inr ⟨isFalse, up.append quiet⟩
      · cases never
  · exact .inl done

theorem LoneUp.absorb {address : CString} {features : List Feature} {before made : History Answer}
    (lacks : .bracket ∉ features ∧ .devices ∉ features) (only : Only (within features) before)
    (lone : LoneUp (findsEndpoint address) made) :
    LoneUp (findsEndpoint address) (before ++ made) :=
  lone.after (brackets_eq_nil only lacks.1) (findsEndpoint_eq_false address only lacks.2)

theorem pppdProcess_yields :
    (pppdProcess settings fuel vpn).Yields fun _ made =>
      LoneUp (findsEndpoint (copyStr (pppdLocalAddress vpn))) made := by
  refine pppdLaunch_yields.bind fun launched before held => ?_
  rcases launched with ⟨launched, vpn'⟩
  obtain ⟨rfl, only⟩ := held
  refine Yields.mono ?_ fun _ made => LoneUp.absorb (by simp) only
  dsimp only
  split
  case isFalse => exact Ends.pure (.inl ⟨rfl, rfl⟩)
  refine (pppdLoop_yields false).bind fun _ made done => ?_
  have close : Touches (streamClose .pppd) [] := ask_plain rfl
  refine (Uses.yields close).mono fun _ more only => ?_
  have after := unconfigured_of_within (copyStr (pppdLocalAddress vpn)) only (by simp)
  rcases done with unconfigured | ⟨_, up⟩
  · exact .inl (unconfigured.append after)
  · exact .inr (up.append after)

theorem pppSshVpnUp_yields :
    (pppSshVpnUp settings fuel vpn).Yields fun _ made =>
      LoneUp (findsEndpoint (copyStr (pppdLocalAddress vpn))) made := by
  refine Uses.before (@sshVpnValidate_touches [] settings fuel vpn)
    (fun _ _ _ => LoneUp.absorb (by simp)) fun valid => ?_
  split
  case isFalse => exact Ends.pure (.inl ⟨rfl, rfl⟩)
  refine Uses.before (sshVpnConnect_touches []) (fun _ _ _ => LoneUp.absorb (by simp))
    fun connected => ?_
  split
  case isFalse => exact Ends.pure (.inl ⟨rfl, rfl⟩)
  refine Uses.before (@sshHostFindCommand_touches [] _ _) (fun _ _ _ => LoneUp.absorb (by simp))
    fun found => ?_
  refine Uses.before (sshVpnRunCommand_touches _ _) (fun _ _ _ => LoneUp.absorb (by simp))
    fun _ => ?_
  split
  · exact pppdProcess_yields
  · exact pppdProcess_yields

theorem pppSslClientVpnUp_yields :
    (pppSslClientVpnUp settings fuel vpn).Yields fun _ made =>
      LoneUp (findsEndpoint (copyStr (pppdLocalAddress vpn))) made := by
  refine Uses.before (routeSetupVpnServer_touches _) (fun _ _ _ => LoneUp.absorb (by simp))
    fun _ => ?_
  refine Uses.before (@ask_plain [] (.streamOpen .remotePeer _ (tlsConfig vpn)) rfl)
    (fun _ _ _ => LoneUp.absorb (by simp)) fun connected => ?_
  split
  case isFalse => exact Ends.pure (.inl ⟨rfl, rfl⟩)
  refine Uses.before (@ask_plain [] _ rfl) (fun _ _ _ => LoneUp.absorb (by simp)) fun verified => ?_
  split
  · exact pppdProcess_yields
  · exact pppdProcess_yields

theorem unanswered_append {features : List Feature} {before : History Answer}
    (only : Only (within features) before) (lacks : .question ∉ features)
    (made : History Answer) : unanswered (before ++ made) = unanswered made := by
  have none : before.any isQuestion = false := by
    refine any_eq_false_of_within (fun interaction read => ?_) lacks (by decide) only
    rcases interaction with ⟨call, answer⟩
    cases call with
    | streamWriteLine stream text =>
        cases stream <;> first | exact absurd read Bool.false_ne_true | simp_all [isQuestion, featureOf]
    | _ => exact absurd read Bool.false_ne_true
  have skipped : ∀ interaction ∈ before, (!isQuestion interaction) = true := by
    simpa using List.any_eq_false.mp none
  rw [unanswered, unanswered, List.dropWhile_append_of_pos skipped]

theorem sshReadRemoteDev_yields (rounds : Nat) (dev : CString) :
    (sshReadRemoteDev rounds dev).Yields fun found made =>
      ∀ more, answeredDev rounds dev (made ++ more) = found := by
  induction rounds generalizing dev with
  | zero => exact Ends.pure fun more => by simp [answeredDev]
  | succ rounds inductionHypothesis =>
      refine (Ends.asked _).bind fun line made isMade => ?_
      obtain rfl := isMade
      dsimp only
      split
      case isTrue named => exact Ends.pure fun more => if_pos named
      case isFalse unnamed =>
        exact (inductionHypothesis _).mono fun found made held more =>
          (if_neg unnamed).trans (held more)

theorem sshGetRemoteDev_yields :
    sshGetRemoteDev.Yields fun found made =>
      ∀ more, unanswered (made ++ more) = decide (found = []) := by
  refine (Ends.asked _).bind fun _ made isMade => ?_
  obtain rfl := isMade
  refine (sshReadRemoteDev_yields 10 []).mono fun found made held more => ?_
  simp [unanswered, isQuestion, held]

theorem sshSetup_yields :
    (sshSetup settings fuel vpn).Yields fun ready made =>
      ∀ more, unanswered (made ++ more) = !ready.1 := by
  have absorbs : ∀ (ready : Bool × TVpn) before made, Only (within []) before →
      (∀ more, unanswered (made ++ more) = !ready.1) →
        ∀ more, unanswered (before ++ made ++ more) = !ready.1 := by
    intro ready before made only held more
    rw [List.append_assoc, unanswered_append only (by simp)]
    exact held more
  refine Uses.before (ask_plain rfl) absorbs fun _ => ?_
  refine Uses.before sshVpnSync_touches absorbs fun _ => ?_
  refine sshGetRemoteDev_yields.bind fun dev made held => ?_
  split
  case isTrue valid =>
    refine (Uses.yields (sshSetupRoute_touches dev)).bind fun _ route _ => Ends.pure fun more => ?_
    simpa [(strValid_some_iff dev).mp valid] using held (route ++ more)
  case isFalse blank =>
    have noDev : dev = [] := by simpa [strValid_some_iff] using blank
    exact Ends.pure fun more => by simpa [noDev] using held more

/-- The three courses of `SSHVpnUp`. -/
def SshCourse (made : History Answer) : Prop :=
  (brackets made = [] ∧ unanswered made = false) ∨
    (∃ dev, brackets made = [.up dev, .down dev] ∧ unanswered made = false) ∨
      ∃ dev, brackets made = [.down dev] ∧ unanswered made = true

theorem SshCourse.absorb {features : List Feature} {before made : History Answer}
    (lacks : .bracket ∉ features ∧ .question ∉ features) (only : Only (within features) before)
    (course : SshCourse made) : SshCourse (before ++ made) := by
  simpa [SshCourse, brackets_eq_nil only lacks.1, unanswered_append only lacks.2] using course

theorem SshCourse.bracketed_iff {made : History Answer} (course : SshCourse made) :
    Bracketed (brackets made) ↔ unanswered made = false := by
  rcases course with ⟨none, answered⟩ | ⟨dev, pair, answered⟩ | ⟨dev, down, silent⟩
  · rw [none, answered]
    exact iff_of_true bracketed_nil rfl
  · rw [pair, answered]
    exact iff_of_true (bracketed_pair dev) rfl
  · rw [down, silent]
    exact iff_of_false (not_bracketed_down dev) (by simp)

theorem sshClosing_yields (dev : CString) :
    Yields (do
      let _ ← ask (.runCommandCleanUp cmdKill)
      streamClose .ssh
      vpnDown vpn dev) fun _ made => brackets made = [.down dev] := by
  have absorbs : ∀ (_ : Unit) before made, Only (within []) before →
      brackets made = [.down dev] → brackets (before ++ made) = [.down dev] := by
    intro _ before made only held
    rw [brackets_append, brackets_eq_nil only (by simp), held]
    rfl
  refine Uses.before (ask_plain rfl) absorbs fun _ => ?_
  refine Uses.before (ask_plain rfl) absorbs fun _ => ?_
  refine (vpnDown_ends dev).yields.mono fun _ made entered => ?_
  obtain ⟨answer, rest, rfl, only⟩ := entered
  have silent := brackets_eq_nil only (by simp)
  rw [brackets, List.filterMap_cons]
  exact congrArg (Bracket.down dev :: ·) silent

theorem sshVpnSession_yields (dev : CString) :
    (sshVpnSession settings fuel vpn dev).Yields fun _ made => SshCourse made := by
  have setup := (@sshSetup_yields settings fuel vpn).and
    (Uses.yields sshSetup_touches)
  refine setup.yields.bind fun outcome before held => ?_
  obtain ⟨answered, only⟩ := held
  rcases outcome with ⟨ready, vpn'⟩
  have silent := brackets_eq_nil only (by simp)
  cases ready with
  | false =>
      refine (sshClosing_yields dev).mono fun _ made down => .inr (.inr ⟨dev, ?_, answered made⟩)
      rw [brackets_append, silent, down]
      rfl
  | true =>
      refine (vpnUp_alone dev (@sshProcess_touches [] fuel) (by simp)).bind fun _ session up => ?_
      refine (sshClosing_yields dev).mono fun _ made down => .inr (.inl ⟨dev, ?_, answered _⟩)
      rw [brackets_append, brackets_append, silent, up, down]
      rfl

theorem sshVpnUp_yields : (sshVpnUp settings fuel vpn).Yields fun _ made => SshCourse made := by
  refine Uses.before (@sshVpnValidate_touches [] settings fuel vpn)
    (fun _ _ _ => SshCourse.absorb (by simp)) fun valid => ?_
  split
  case isFalse => exact Ends.pure (.inl ⟨rfl, rfl⟩)
  refine Uses.before sshDevice_touches (fun _ _ _ => SshCourse.absorb (by simp)) fun dev => ?_
  split
  case isFalse => exact Ends.pure (.inl ⟨rfl, rfl⟩)
  refine Uses.before (tunSetup_touches _ _ _) (fun _ _ _ => SshCourse.absorb (by simp))
    fun _ => ?_
  refine Uses.before (sshVpnConnect_touches _) (fun _ _ _ => SshCourse.absorb (by simp))
    fun connected => ?_
  split
  case isFalse => exact Ends.pure (.inl ⟨rfl, rfl⟩)
  exact sshVpnSession_yields dev

theorem openVpnUp_bracketed_iff {made : History Answer} (driven : LogDriven made) :
    Bracketed (brackets made) ↔ (heededLines made).any reportsUp = false := by
  rw [driven.ups, bracketed_ups, openVpnUps_eq_nil_iff]

/-- The calls of a run that returns are bracketed exactly when the host's
answers keep it from the one `VpnUp`, or `VpnDown`, that has no partner. -/
theorem protocolUp_bracketed_iff (settings : Settings) (fuel : Nat) (vpn : TVpn)
    (protocol : Protocol) (env : Environment Answer) (made : History Answer)
    (returned : protocolUp settings fuel vpn protocol env [] = some (.returned (), made)) :
    Bracketed (brackets made) ↔ StaysBracketed vpn made protocol := by
  cases protocol with
  | wireguard => exact (wireguardUp_yields.returned returned).bracketed_iff
  | ssh => exact (sshVpnUp_yields.returned returned).bracketed_iff
  | openVpn => exact openVpnUp_bracketed_iff (openVpnUp_yields.returned returned)
  | pppSsh => exact (pppSshVpnUp_yields.returned returned).bracketed_iff
  | pppTls => exact (pppSslClientVpnUp_yields.returned returned).bracketed_iff

end Runs

theorem wireguardUp_runs :
    ∃ made, protocolUp plainSettings 1 { dev := some "wg0".toList } .wireguard obligingHost [] =
        some (.returned (), made) ∧ brackets made = [.up "wg0".toList] := by
  have run : (protocolUp plainSettings 1 { dev := some "wg0".toList } .wireguard obligingHost
      []).map (fun ended => (ended.1, brackets ended.2)) =
      some (.returned (), [.up "wg0".toList]) := by decide
  obtain ⟨⟨ending, made⟩, ended, read⟩ := Option.map_eq_some_iff.mp run
  obtain ⟨rfl, up⟩ := Prod.mk.inj read
  exact ⟨made, ended, up⟩

theorem protocolUp_bracketed_iff_wireguard :
    ∃ made, brackets made = [.up "wg0".toList] ∧
      (Bracketed (brackets made) ↔ StaysBracketed { dev := some "wg0".toList } made .wireguard) := by
  obtain ⟨made, ended, up⟩ := wireguardUp_runs
  exact ⟨made, up, protocolUp_bracketed_iff _ _ _ _ _ made ended⟩

theorem wireguardUp_never_down :
    ∃ made, protocolUp plainSettings 1 { dev := some "wg0".toList } .wireguard obligingHost [] =
        some (.returned (), made) ∧ ¬ Bracketed (brackets made) := by
  obtain ⟨made, ended, up⟩ := wireguardUp_runs
  refine ⟨made, ended, fun bracketed => ?_⟩
  rw [up] at bracketed
  simpa using (bracketed_ups ["wg0".toList]).mp bracketed

end VpnMgr.Client
