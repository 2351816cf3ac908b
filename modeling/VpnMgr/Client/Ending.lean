import VpnMgr.Client.Bracketing
import VpnMgr.Machine.Halting

/-!
# When the drivers end

The loops of the drivers go on while `FLAG_EXIT` is clear, while `ssh -G` or a
file has lines, and while the remote shell lets reads time out.
-/

namespace VpnMgr.Client

open Machine Text CString LibUseful Command Process

/-- The answers after which a loop of a driver may go on. -/
def keepsGoing : Sigma Answer → Bool
  | ⟨.flagExit, exit⟩ => !exit
  | ⟨.streamReadLine .sshConfig, line⟩ => Option.isSome line
  | ⟨.streamReadLine (.file _), line⟩ => Option.isSome line
  | ⟨.streamReadToMultiTerminator _, text⟩ => Option.elim text false List.isEmpty
  | _ => false

section Endings

variable {limit fuel : Nat} {settings : Settings} {vpn : TVpn}

theorem exiting_moves {α σ : Type} {yes no : Driver (σ ⊕ α)}
    (stopsYes : Halts keepsGoing limit yes (Moves keepsGoing))
    (stopsNo : Stops keepsGoing limit no) :
    Halts keepsGoing limit (do if ← exiting then yes else no) (Moves keepsGoing) := by
  refine Halts.bind (Halts.asked Call.flagExit) fun answer made isMade => ?_
  obtain rfl := isMade
  cases answer with
  | true => exact stopsYes.mono fun next more moves => moves.after _
  | false => exact stopsNo.moving rfl

theorem leaves_moves {α σ : Type} {result : α} :
    Halts keepsGoing limit (pure (.inr result) : Driver (σ ⊕ α)) (Moves keepsGoing) :=
  Halts.pure fun isLeft => absurd isLeft (by simp)

theorem ask_stops (call : Call) : Stops keepsGoing limit (ask call) := Stops.ask call

theorem runCommand_stops (text : CString) (flags : FlagWord) :
    Stops keepsGoing limit (runCommand text flags) := by
  refine (ask_stops _).andThen fun status => ?_
  cases status with
  | some status => exact .pure status
  | none => exact Halts.exit

theorem command_stops (text : CString) : Stops keepsGoing limit (command text) :=
  (runCommand_stops _ _).andThen fun _ => .pure ()

theorem script_stops (text : CString) : Stops keepsGoing limit (script text) := by
  refine (ask_stops _).andThen fun status => ?_
  cases status with
  | some status => exact .pure ()
  | none => exact Halts.exit

theorem runCommandOpen_stops (text : CString) (flags : FlagWord) :
    Stops keepsGoing limit (runCommandOpen text flags) := by
  refine (ask_stops _).andThen fun opened => ?_
  cases opened with
  | some opened => exact .pure opened
  | none => exact Halts.exit

theorem drainLines_stops (enough : limit < fuel) (stream : StreamId) :
    Stops keepsGoing limit (drainLines fuel stream) := by
  refine Halts.loop (fun _ => (ask_stops _).before fun line => ?_) enough ()
  cases line with
  | none => exact leaves_moves
  | some line => exact exiting_moves leaves_moves (.pure _)

theorem routeSetupVpnServer_stops (destAddress : CPtr) :
    Stops keepsGoing limit (routeSetupVpnServer destAddress) :=
  (ask_stops _).andThen fun _ => command_stops _

theorem netGetDefaultIP_stops : Stops keepsGoing limit netGetDefaultIP :=
  (ask_stops _).andThen fun _ => ask_stops _

theorem resolvChange_stops (pid : Nat) (nameservers : CPtr) :
    Stops keepsGoing limit (resolvChange pid nameservers) := by
  refine (ask_stops _).andThen fun opened => (Stops.when ?_).andThen fun _ => ?_
  · exact (Stops.each fun _ => ask_stops _).andThen fun _ => ask_stops _
  · exact (command_stops _).andThen fun _ => command_stops _

theorem upDownRunFiles_stops (files : CPtr) (dev : CString) :
    Stops keepsGoing limit (upDownRunFiles vpn files dev) :=
  Stops.each fun _ => (ask_stops _).andThen fun _ => Stops.when (script_stops _)

theorem vpnUp_stops (dev : CString) : Stops keepsGoing limit (vpnUp settings vpn dev) := by
  refine (ask_stops _).andThen fun _ => Stops.andThen ?_ fun _ => Stops.when (upDownRunFiles_stops _ _)
  refine (Stops.when (command_stops _)).andThen fun _ => Stops.andThen ?_ fun _ => ?_
  · exact Stops.when (Stops.each fun _ => command_stops _)
  · exact Stops.when (resolvChange_stops _ _)

theorem vpnDown_stops (dev : CString) : Stops keepsGoing limit (vpnDown vpn dev) := by
  refine (ask_stops _).andThen fun _ => Stops.andThen ?_ fun _ => Stops.when (upDownRunFiles_stops _ _)
  exact (command_stops _).andThen fun _ => command_stops _

theorem tunAvailable_stops : Stops keepsGoing limit tunAvailable := by
  refine (ask_stops _).andThen fun _ => Stops.andThen (Stops.when ?_) fun _ => ?_
  · exact (command_stops _).andThen fun _ => command_stops _
  refine (command_stops _).andThen fun _ => (ask_stops _).andThen fun _ => ?_
  refine Halts.ite (fun _ => Stops.pure _) fun _ => (ask_stops _).andThen fun _ => ?_
  exact Halts.ite (fun _ => Stops.pure _) fun _ => ask_stops _

theorem tunSetup_stops (type name : CString) (address : CPtr) :
    Stops keepsGoing limit (tunSetup type name address) := by
  have create : Stops keepsGoing limit (tunCreate type name) :=
    (ask_stops _).andThen fun _ => Halts.ite (fun _ => Stops.pure _) fun _ =>
      tunAvailable_stops.andThen fun _ => runCommand_stops _ _
  refine create.andThen fun _ => Halts.ite (fun _ => ?_) fun _ => Stops.pure _
  refine (Stops.when (command_stops _)).andThen fun _ => (command_stops _).andThen fun _ => ?_
  exact (ask_stops _).andThen fun _ => Halts.ite (fun _ => Stops.pure _) fun _ => Stops.pure _

theorem tunShutdown_stops (dev : CString) : Stops keepsGoing limit (tunShutdown dev) :=
  (ask_stops _).andThen fun _ => (command_stops _).andThen fun _ => command_stops _

theorem wireguardLaunchUserspace_stops (dev userspaceApp : CString) :
    Stops keepsGoing limit (wireguardLaunchUserspace settings vpn dev userspaceApp) := by
  refine Halts.ite (fun _ => ?_) fun _ => Stops.pure _
  refine (command_stops _).andThen fun _ => (tunSetup_stops _ _ _).andThen fun status => ?_
  refine Halts.ite (fun _ => ?_) fun _ => Stops.pure _
  exact (ask_stops _).andThen fun _ => Halts.ite (fun _ => Stops.pure _) fun _ => Stops.pure _

theorem wireguardUserspace_stops (dev : CString) :
    Stops keepsGoing limit (wireguardUserspace settings vpn dev) := by
  refine (wireguardLaunchUserspace_stops _ _).andThen fun _ => ?_
  refine Halts.ite (fun _ => Stops.pure _) fun _ => ?_
  refine (wireguardLaunchUserspace_stops _ _).andThen fun _ => ?_
  refine Halts.ite (fun _ => Stops.pure _) fun _ => ?_
  exact (wireguardLaunchUserspace_stops _ _).andThen fun _ => Stops.pure _

theorem readNamedFile_stops (path : CPtr) : Stops keepsGoing limit (readNamedFile path) :=
  Halts.ite (fun _ => ask_stops _) fun _ => Stops.pure _

theorem wireguardFormatCommand_stops (dev : CString) :
    Stops keepsGoing limit (wireguardFormatCommand settings vpn dev) := by
  refine Halts.ite (fun _ => Stops.pure _) fun _ => ?_
  refine (readNamedFile_stops _).andThen fun _ => Stops.andThen ?_ fun _ => Stops.pure _
  exact Stops.when (routeSetupVpnServer_stops _)

theorem netDevFindNextLive_stops (stem : CString) :
    Stops keepsGoing limit (netDevFindNextLive stem) := by
  unfold netDevFindNextLive
  induction List.range 999 with
  | nil => exact Stops.pure _
  | cons i rest inductionHypothesis =>
      refine (ask_stops _).andThen fun (table : NetTable) => ?_
      exact Halts.ite (fun _ => inductionHypothesis) fun _ => Stops.pure _

theorem wireguardDevice_stops : Stops keepsGoing limit (wireguardDevice vpn) := by
  refine (command_stops _).andThen fun _ => Halts.ite (fun _ => Stops.pure _) fun _ => ?_
  exact netDevFindNextLive_stops _

theorem wireguardUp_stops (enough : limit < fuel) :
    Stops keepsGoing limit (wireguardUp settings fuel vpn) := by
  refine wireguardDevice_stops.andThen fun dev => Halts.ite (fun _ => ?_) fun _ => Stops.pure _
  refine (tunSetup_stops _ _ _).andThen fun _ => Stops.andThen ?_ fun _ => ?_
  · exact Stops.when (wireguardUserspace_stops _)
  refine (wireguardFormatCommand_stops _).andThen fun _ => (runCommand_stops _ _).andThen fun _ => ?_
  refine Halts.ite (fun _ => ?_) fun _ => Stops.pure _
  refine (vpnUp_stops _).andThen fun _ => (drainLines_stops enough _).andThen fun _ => ?_
  exact tunShutdown_stops _

theorem openVpnGenPasswordFile_stops :
    Stops keepsGoing limit (openVpnGenPasswordFile settings vpn) := by
  refine (ask_stops _).andThen fun (opened : Bool) => ?_
  refine Halts.ite (fun _ => ?_) fun _ => Stops.pure _
  exact (ask_stops _).andThen fun _ => ask_stops _

theorem openVpnProcess_stops (enough : limit < fuel) :
    Stops keepsGoing limit (openVpnProcess settings fuel vpn) := by
  refine Halts.loop (fun dev => (ask_stops _).before fun line => ?_) enough _
  cases line with
  | none => exact leaves_moves
  | some line =>
      exact exiting_moves leaves_moves ((Stops.when (vpnUp_stops _)).andThen fun _ => Stops.pure _)

theorem openVpnShutDown_stops (dev : CString) :
    Stops keepsGoing limit (openVpnShutDown settings vpn dev) :=
  (ask_stops _).andThen fun _ => (Stops.when (command_stops _)).andThen fun _ => tunShutdown_stops _

theorem openVpnUp_stops (enough : limit < fuel) :
    Stops keepsGoing limit (openVpnUp settings fuel vpn) := by
  have mtu : Stops keepsGoing limit defaultDevGetMTU := (ask_stops _).andThen fun _ => ask_stops _
  refine tunAvailable_stops.andThen fun _ => Halts.ite (fun _ => ?_) fun _ => Stops.pure _
  refine mtu.andThen fun _ => (Stops.when openVpnGenPasswordFile_stops).andThen fun _ => ?_
  refine (runCommandOpen_stops _ _).andThen fun _ => Halts.ite (fun _ => ?_) fun _ => Stops.pure _
  exact (openVpnProcess_stops enough).andThen fun _ => openVpnShutDown_stops _

/-! ## SSH -/

theorem sshVpnValidate_stops (enough : limit < fuel) :
    Stops keepsGoing limit (sshVpnValidate settings fuel vpn) := by
  refine (ask_stops _).andThen fun (opened : Bool) => ?_
  refine Halts.ite (fun _ => ?_) fun _ => Stops.pure _
  refine Stops.andThen ?_ fun _ => (ask_stops _).andThen fun _ => Stops.pure _
  refine Halts.loop (fun result => Halts.bind (Halts.asked (Call.streamReadLine .sshConfig))
    fun line made isMade => ?_) enough _
  obtain rfl := isMade
  cases line with
  | none => exact leaves_moves.mono fun _ _ moves => moves.after _
  | some line => exact Stops.moving rfl (Stops.pure _)

theorem sshHostLookupIP_stops (enough : limit < fuel) (host : CPtr) :
    Stops keepsGoing limit (sshHostLookupIP settings fuel host) := by
  refine (ask_stops _).andThen fun (opened : Bool) => ?_
  refine Halts.ite (fun _ => ?_) fun _ => Stops.pure _
  refine Stops.andThen ?_ fun _ => (ask_stops _).andThen fun _ => Stops.pure _
  refine Halts.loop (fun state => Halts.bind (Halts.asked (Call.streamReadLine (.file _)))
    fun line made isMade => ?_) enough _
  obtain rfl := isMade
  cases line with
  | none => exact leaves_moves.mono fun _ _ moves => moves.after _
  | some line =>
      refine Stops.moving rfl (Halts.ite (fun _ => Stops.pure _) fun _ => Halts.ite (fun _ => ?_)
        fun _ => Stops.pure _)
      exact (ask_stops _).andThen fun _ => Stops.pure _

theorem sshVpnSendSync_stops : Stops keepsGoing limit sshVpnSendSync :=
  (ask_stops _).andThen fun _ => (ask_stops _).andThen fun _ => Stops.pure _

theorem sshVpnSync_stops (enough : limit < fuel) : Stops keepsGoing limit (sshVpnSync fuel) := by
  refine sshVpnSendSync_stops.andThen fun key => Stops.andThen ?_ fun _ =>
    (ask_stops _).andThen fun _ => Stops.pure _
  refine Halts.loop (fun key => Halts.bind (Halts.asked (Call.streamReadToMultiTerminator .ssh))
    fun text made isMade => ?_) enough key
  obtain rfl := isMade
  match text with
  | none => exact leaves_moves.mono fun _ _ moves => moves.after _
  | some [] => exact (sshVpnSendSync_stops.andThen fun _ => Stops.pure _).moving rfl
  | some (first :: others) =>
      have round : Halts keepsGoing limit (do
          if stripLeadingWhitespace (stripTrailingWhitespace (first :: others)) = key then
            pure (.inr ())
          else if ← exiting then pure (.inr ())
          else pure (.inl key) : Driver (CString ⊕ Unit)) (Moves keepsGoing) :=
        Halts.ite (fun _ => leaves_moves) fun _ => exiting_moves leaves_moves (Stops.pure _)
      exact round.mono fun _ _ moves => moves.after _

theorem sshVpnRunCommandTry_stops (enough : limit < fuel) (cmd : CString) (flags : FlagWord) :
    Stops keepsGoing limit (sshVpnRunCommandTry settings fuel cmd flags) := by
  refine (sshVpnSync_stops enough).andThen fun _ => Stops.andThen ?_ fun _ => ?_
  · refine Halts.ite (fun _ => ?_) fun _ => Stops.pure _
    refine (ask_stops _).andThen fun _ => (ask_stops _).andThen fun _ => ?_
    exact Halts.ite (fun _ => ask_stops _) fun _ => Stops.pure _
  · exact (Stops.when (sshVpnSync_stops enough)).andThen fun _ => Stops.pure _

theorem sshVpnRunCommand_stops (enough : limit < fuel) (cmd : CString) (flags : FlagWord) :
    Stops keepsGoing limit (sshVpnRunCommand settings fuel cmd flags) :=
  (sshVpnRunCommandTry_stops enough _ _).andThen fun _ =>
    Halts.ite (fun _ => Stops.pure _) fun _ => sshVpnRunCommandTry_stops enough _ _

theorem sshVpnConnect_stops (enough : limit < fuel) (command : CString) :
    Stops keepsGoing limit (sshVpnConnect settings fuel vpn command) := by
  refine (sshHostLookupIP_stops enough _).andThen fun _ => Stops.andThen ?_ fun _ => ?_
  · exact Stops.when (routeSetupVpnServer_stops _)
  refine (runCommandOpen_stops _ _).andThen fun _ => Halts.ite (fun _ => ?_) fun _ => Stops.pure _
  exact (ask_stops _).andThen fun _ => (sshVpnSync_stops enough).andThen fun _ => Stops.pure _

theorem sshReadRemoteDev_stops (rounds : Nat) (dev : CString) :
    Stops keepsGoing limit (sshReadRemoteDev rounds dev) := by
  induction rounds generalizing dev with
  | zero => exact Stops.pure _
  | succ rounds inductionHypothesis =>
      exact (ask_stops _).andThen fun _ => Halts.ite (fun _ => Stops.pure _) fun _ =>
        inductionHypothesis _

theorem sshSetup_stops (enough : limit < fuel) :
    Stops keepsGoing limit (sshSetup settings fuel vpn) := by
  have address : Stops keepsGoing limit (sshLocalAddress vpn) :=
    Halts.ite (fun _ => Stops.pure _) fun _ => netGetDefaultIP_stops.andThen fun _ => Stops.pure _
  have route : ∀ dev, Stops keepsGoing limit (sshSetupRoute settings fuel vpn dev) := fun dev => by
    refine address.andThen fun _ => Stops.andThen (Stops.when ?_) fun _ => Stops.pure _
    exact (sshVpnRunCommand_stops enough _ _).andThen fun _ => Stops.pure _
  refine (ask_stops _).andThen fun _ => (sshVpnSync_stops enough).andThen fun _ => ?_
  refine Stops.andThen ((ask_stops _).andThen fun _ => sshReadRemoteDev_stops _ _) fun dev => ?_
  exact Halts.ite (fun _ => (route dev).andThen fun _ => Stops.pure _) fun _ => Stops.pure _

theorem sshVpnUp_stops (enough : limit < fuel) :
    Stops keepsGoing limit (sshVpnUp settings fuel vpn) := by
  have device : Stops keepsGoing limit (sshDevice vpn) :=
    Halts.ite (fun _ => Stops.pure _) fun _ => netDevFindNextLive_stops _
  have process : Stops keepsGoing limit (sshProcess fuel) := by
    refine (ask_stops _).andThen fun (exit : Bool) => ?_
    exact Halts.ite (fun _ => Stops.pure _) fun _ => drainLines_stops enough _
  refine (sshVpnValidate_stops enough).andThen fun _ => Halts.ite (fun _ => ?_) fun _ =>
    Stops.pure _
  refine device.andThen fun dev => Halts.ite (fun _ => ?_) fun _ => Stops.pure _
  refine (tunSetup_stops _ _ _).andThen fun _ => (sshVpnConnect_stops enough _).andThen fun _ => ?_
  refine Halts.ite (fun _ => ?_) fun _ => Stops.pure _
  refine (sshSetup_stops enough).andThen fun _ => Stops.andThen (Stops.when ?_) fun _ => ?_
  · exact (vpnUp_stops _).andThen fun _ => process
  · exact (ask_stops _).andThen fun _ => (ask_stops _).andThen fun _ => vpnDown_stops _

theorem pppdReady_stops (selected : Option StreamId) :
    Stops keepsGoing limit (pppdReady selected) := by
  have relay : ∀ source target, Stops keepsGoing limit (pppdRelay source target) :=
    fun source target => by
      refine (ask_stops _).andThen fun (bytes : List UInt8) => Halts.ite (fun _ => ?_) fun _ => ?_
      · exact (Stops.when (ask_stops _)).andThen fun _ => Stops.pure _
      · exact (ask_stops _).andThen fun _ => Stops.pure _
  exact Halts.ite (fun _ => relay _ _) fun _ => Halts.ite (fun _ => relay _ _) fun _ => Stops.pure _

theorem pppdTryConfigureEndpoint_stops :
    Stops keepsGoing limit (pppdTryConfigureEndpoint settings vpn) := by
  refine (ask_stops _).andThen fun table => Halts.ite (fun _ => ?_) fun _ => Stops.pure _
  exact (vpnUp_stops _).andThen fun _ => Stops.pure _

theorem pppdRound_moves (configured : Bool) :
    Halts keepsGoing limit (pppdRound settings vpn configured) (Moves keepsGoing) := by
  refine (ask_stops _).before fun selected => exiting_moves leaves_moves ?_
  refine (pppdReady_stops selected).andThen fun ready => Halts.ite (fun _ => ?_) fun _ => Stops.pure _
  refine Halts.ite (fun _ => Stops.pure _) fun _ => ?_
  exact pppdTryConfigureEndpoint_stops.andThen fun _ => Stops.pure _

theorem pppdProcess_stops (enough : limit < fuel) :
    Stops keepsGoing limit (pppdProcess settings fuel vpn) := by
  have launch : Stops keepsGoing limit (pppdLaunch vpn) :=
    (runCommandOpen_stops _ _).andThen fun _ => Stops.pure _
  refine launch.andThen fun launched => Halts.ite (fun _ => ?_) fun _ => Stops.pure _
  exact Stops.andThen (Halts.loop pppdRound_moves enough _) fun _ => ask_stops _

theorem sshHostFindCommand_stops (cmd : CString) (dirs : List CString) :
    Stops keepsGoing limit (sshHostFindCommand cmd dirs) := by
  induction dirs with
  | nil => exact Stops.pure _
  | cons dir rest inductionHypothesis =>
      refine (ask_stops _).andThen fun _ => (ask_stops _).andThen fun _ => ?_
      exact Halts.ite (fun _ => Stops.pure _) fun _ => inductionHypothesis

theorem pppSshVpnUp_stops (enough : limit < fuel) :
    Stops keepsGoing limit (pppSshVpnUp settings fuel vpn) := by
  refine (sshVpnValidate_stops enough).andThen fun _ => Halts.ite (fun _ => ?_) fun _ =>
    Stops.pure _
  refine (sshVpnConnect_stops enough _).andThen fun _ => Halts.ite (fun _ => ?_) fun _ =>
    Stops.pure _
  refine (sshHostFindCommand_stops _ _).andThen fun _ => ?_
  exact (sshVpnRunCommand_stops enough _ _).andThen fun _ => pppdProcess_stops enough

theorem pppSslClientVpnUp_stops (enough : limit < fuel) :
    Stops keepsGoing limit (pppSslClientVpnUp settings fuel vpn) := by
  refine (routeSetupVpnServer_stops _).andThen fun _ => (ask_stops _).andThen
    fun (opened : Bool) => ?_
  refine Halts.ite (fun _ => ?_) fun _ => Stops.pure _
  exact (ask_stops _).andThen fun _ => pppdProcess_stops enough

theorem protocolUp_stops (enough : limit < fuel) (protocol : Protocol) :
    Stops keepsGoing limit (protocolUp settings fuel vpn protocol) := by
  cases protocol with
  | wireguard => exact wireguardUp_stops enough
  | ssh => exact sshVpnUp_stops enough
  | openVpn => exact openVpnUp_stops enough
  | pppSsh => exact pppSshVpnUp_stops enough
  | pppTls => exact pppSslClientVpnUp_stops enough

end Endings

/-- Once `FLAG_EXIT` is set every driver ends, if files end and reads from the
remote shell do not time out for ever. -/
theorem protocolUp_ends (settings : Settings) (fuel limit : Nat) (vpn : TVpn) (protocol : Protocol)
    (env : Environment Answer) (bounded : KeepsGoing keepsGoing limit env)
    (enough : limit < fuel) :
    ∃ ending made, protocolUp settings fuel vpn protocol env [] = some (ending, made) :=
  (protocolUp_stops enough protocol).ended bounded

def typingHost (limit : Nat) : Environment Answer
  | history, .flagExit => decide (limit ≤ history.countP keepsGoing)
  | _, .streamReadLine .terminal => some []
  | history, call => obligingHost history call

theorem protocolUp_ends_typing :
    ∃ ending made, protocolUp plainSettings 3 { dev := some "wg0".toList } .wireguard
      (typingHost 2) [] = some (ending, made) := by
  refine protocolUp_ends _ 3 2 _ _ _ (fun history call reached => ?_) (by decide)
  cases call with
  | flagExit =>
      change (!decide (2 ≤ history.countP keepsGoing)) = false
      rw [reached]
      rfl
  | streamReadLine stream => cases stream <;> rfl
  | _ => rfl

/-! ## A silent shell -/

def breaksSilence : Sigma Answer → Bool
  | ⟨.streamReadToMultiTerminator _, text⟩ => !Option.elim text false List.isEmpty
  | _ => false

def opensStream : Sigma Answer → Bool
  | ⟨.runCommandOpen _ _, opened⟩ => Option.getD opened false
  | _ => false

section Silence

variable {fuel : Nat} {settings : Settings} {vpn : TVpn}

def Waits (made : History Answer) : Prop :=
  made.any opensStream = true → made.any breaksSilence = true

theorem Waits.append {first second : History Answer} (waitsFirst : Waits first)
    (waitsSecond : Waits second) : Waits (first ++ second) := fun opens => by
  rw [List.any_append, Bool.or_eq_true] at opens ⊢
  exact opens.imp waitsFirst waitsSecond

theorem composable_waits : Composable Waits Waits where
  nil := fun opens => absurd opens (by simp)
  append _ _ := Waits.append
  exits _ _ := Waits.append

theorem waits_of_only {features : List Feature} (noLaunch : .launch ∉ features)
    {made : History Answer} (only : Only (within features) made) : Waits made := by
  intro opens
  obtain ⟨⟨call, answer⟩, member, opened⟩ := List.any_eq_true.mp opens
  have inside := only _ member
  cases call with
  | runCommandOpen => exact absurd inside (by simp [within, featureOf, noLaunch])
  | _ => exact absurd opened Bool.false_ne_true

theorem Touches.waits {α : Type} {process : Driver α} {features : List Feature}
    (touches : Touches process features) (noLaunch : .launch ∉ features) :
    process.Makes Waits Waits :=
  Ends.mono touches (fun _ _ => waits_of_only noLaunch) fun _ => waits_of_only noLaunch

theorem waits_heard {α : Type} {process : Driver α} (ends : process.Yields fun _ _ => True)
    {before : History Answer} (broken : before.any breaksSilence = true) :
    process.Ends (fun _ made => Waits (before ++ made)) fun made => Waits (before ++ made) := by
  have waits : ∀ made, Waits (before ++ made) := fun made _ => by
    rw [List.any_append, broken, Bool.true_or]
  exact Ends.mono ends (fun _ made _ => waits made) fun made _ => waits made

theorem sshVpnSendSync_ends : sshVpnSendSync.Ends (fun _ _ => True) fun _ => False :=
  (Ends.asked _).bind fun _ _ _ => (Ends.asked _).bind fun _ _ _ => Ends.pure trivial

theorem breaks_later {before made : History Answer} (broken : made.any breaksSilence = true) :
    (before ++ made).any breaksSilence = true := by
  rw [List.any_append, broken, Bool.or_true]

theorem breaks_earlier {before made : History Answer} (broken : before.any breaksSilence = true) :
    (before ++ made).any breaksSilence = true := by
  rw [List.any_append, broken, Bool.true_or]

theorem sshVpnSync_breaks :
    (sshVpnSync fuel).Ends (fun _ made => made.any breaksSilence = true) fun _ => False := by
  refine Ends.bind sshVpnSendSync_ends fun key sent _ => ?_
  refine Ends.bind (@Ends.loop _ _ _ _ (fun _ made => made.any breaksSilence = true)
    (fun _ => False) _ (fun _ _ => True) ?_ fuel key trivial) fun _ made broken => ?_
  · intro key before _
    refine (Ends.asked _).bind fun text made isMade => ?_
    obtain rfl := isMade
    match text with
    | none => exact Ends.pure (breaks_later rfl)
    | some [] => exact Ends.bind sshVpnSendSync_ends fun _ _ _ => Ends.pure trivial
    | some (first :: others) =>
        refine Ends.ite (fun _ => Ends.pure (breaks_later rfl)) fun _ => ?_
        refine (Ends.asked _).bind fun (exit : Bool) made isMade => ?_
        obtain rfl := isMade
        exact Ends.ite (fun _ => Ends.pure (breaks_later rfl)) fun _ => Ends.pure trivial
  · exact (Ends.asked _).bind fun _ more _ => Ends.pure (breaks_later (breaks_earlier broken))

def Connected (connected : Bool) (made : History Answer) : Prop :=
  Waits made ∧ (connected = true → made.any breaksSilence = true)

theorem Connected.of_broken {connected : Bool} {made : History Answer}
    (broken : made.any breaksSilence = true) : Connected connected made :=
  ⟨fun _ => broken, fun _ => broken⟩

theorem Connected.after {process : Driver Bool} (ends : process.Ends Connected Waits)
    {before : History Answer} (waits : Waits before) :
    process.Ends (fun connected made => Connected connected (before ++ made))
      fun made => Waits (before ++ made) :=
  Ends.mono ends (fun _ _ held => ⟨waits.append held.1, fun connected =>
    breaks_later (held.2 connected)⟩) fun _ => waits.append

theorem sshVpnConnect_waits (command : CString) :
    (sshVpnConnect settings fuel vpn command).Ends Connected Waits := by
  have lookup : Touches (sshHostLookupIP settings fuel (settings.unpackURL vpn.server).host) [] :=
    sshHostLookupIP_touches _
  refine Ends.bind (lookup.waits (by simp)) fun ip before waits => Connected.after ?_ waits
  have route : Touches (Process.when (strValid (some ip)) (routeSetupVpnServer (some ip)))
      [.addRoute] :=
    Uses.when (routeSetupVpnServer_touches _)
  refine Ends.bind (route.waits (by simp)) fun _ before waits => Connected.after ?_ waits
  have opening : (runCommandOpen (sshCommand settings vpn command) 0).Ends (fun opened made =>
      made = [⟨.runCommandOpen (sshCommand settings vpn command) 0, some opened⟩]) Waits := by
    refine (Ends.asked _).bind fun answer made isMade => ?_
    obtain rfl := isMade
    cases answer with
    | none => exact Ends.exit fun opens => absurd opens (by simp [opensStream])
    | some opened => exact Ends.pure rfl
  refine opening.bind fun opened made isMade => ?_
  obtain rfl := isMade
  cases opened with
  | false =>
      exact Ends.pure ⟨fun opens => absurd opens (by simp [opensStream]), fun connected =>
        absurd connected (by simp)⟩
  | true =>
      refine (Ends.asked _).bind fun _ written _ => ?_
      refine Ends.bind (Ends.mono sshVpnSync_breaks (fun _ _ broken => broken) fun _ => False.elim)
        fun _ synced broken => ?_
      exact Ends.pure (Connected.of_broken (breaks_later (breaks_later (breaks_earlier broken))))

theorem sshVpnUp_waits : (sshVpnUp settings fuel vpn).Makes Waits Waits := by
  have validate : Touches (sshVpnValidate settings fuel vpn) [] := sshVpnValidate_touches
  refine Makes.bind composable_waits (validate.waits (by simp)) fun valid => ?_
  refine Makes.ite ?_ (Makes.pure composable_waits ())
  have device : Touches (sshDevice vpn) [.devices] := sshDevice_touches
  refine Makes.bind composable_waits (device.waits (by simp)) fun dev => ?_
  refine Makes.ite ?_ (Makes.pure composable_waits ())
  refine Makes.bind composable_waits ((tunSetup_touches _ _ _).waits (by simp)) fun _ => ?_
  refine (sshVpnConnect_waits _).bind fun connected made held => ?_
  cases connected with
  | false => exact Ends.pure (by simpa using held.1)
  | true =>
      exact waits_heard ((sshVpnSession_yields dev).mono fun _ _ _ => trivial) (held.2 rfl)

theorem pppSshVpnUp_waits : (pppSshVpnUp settings fuel vpn).Makes Waits Waits := by
  have validate : Touches (sshVpnValidate settings fuel vpn) [] := sshVpnValidate_touches
  refine Makes.bind composable_waits (validate.waits (by simp)) fun valid => ?_
  refine Makes.ite ?_ (Makes.pure composable_waits ())
  refine (sshVpnConnect_waits _).bind fun connected made held => ?_
  cases connected with
  | false => exact Ends.pure (by simpa using held.1)
  | true =>
      refine waits_heard ?_ (held.2 rfl)
      refine (Uses.yields (@sshHostFindCommand_touches [] _ _)).bind fun _ _ _ => ?_
      refine (Uses.yields (sshVpnRunCommand_touches _ _)).bind fun _ _ _ => ?_
      exact pppdProcess_yields.mono fun _ _ _ => trivial

end Silence

/-- Over SSH, no run gets to its end while the shell stays silent, not even
when `FLAG_EXIT` is set. -/
theorem silentShell_unending (settings : Settings) (fuel : Nat) (vpn : TVpn) (protocol : Protocol)
    (overSsh : protocol = .ssh ∨ protocol = .pppSsh) (env : Environment Answer)
    (ending : Machine.Ending Unit) (made : History Answer)
    (ended : protocolUp settings fuel vpn protocol env [] = some (ending, made))
    (opened : made.any opensStream = true) : made.any breaksSilence = true := by
  rcases overSsh with rfl | rfl
  · exact sshVpnUp_waits.ended ended opened
  · exact pppSshVpnUp_waits.ended ended opened

/-- A host with another name for the server, where `ssh` starts and ends. -/
def aliasHost : Environment Answer
  | history, .streamReadLine .sshConfig =>
      if history.length = 1 then some "hostname a".toList else none
  | history, call => obligingHost history call

theorem silentShell_unending_alias : ∃ made : History Answer,
    made.any opensStream = true ∧ made.any breaksSilence = true := by
  have run : (protocolUp plainSettings 2 { dev := some "tun0".toList } .ssh aliasHost []).map
      (fun ended => (ended.1, ended.2.any opensStream)) = some (.returned (), true) := by
    decide +kernel
  obtain ⟨⟨ending, made⟩, ended, read⟩ := Option.map_eq_some_iff.mp run
  obtain ⟨rfl, opened⟩ := Prod.mk.inj read
  exact ⟨made, opened, silentShell_unending _ _ _ _ (.inl rfl) _ _ made ended opened⟩

end VpnMgr.Client
