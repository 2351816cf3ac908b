import VpnMgr.Client.Bracketing
import VpnMgr.Client.RouteOrder
import VpnMgr.Client.WatchDrivers
import VpnMgr.Command.FoundCommands

/-!
# The conduct of the drivers

What the monitor says about whole runs: the streams they use and leave, the
programs they start, and what can reach the shell.
-/

namespace VpnMgr.Client

open Machine Text CString LibUseful Command Process

/-- The streams that a protocol's driver leaves to the end of the program. -/
def leftOpen : Protocol → List StreamId
  | .wireguard => [.terminal]
  | .ssh => [.terminal]
  | .openVpn => [.openvpn, .terminal]
  | .pppSsh => [.ssh, .terminal]
  | .pppTls => [.remotePeer, .terminal]

theorem protocolUp_leaves (settings : Settings) (fuel : Nat) (vpn : TVpn) (protocol : Protocol) :
    Leaves protocol [.terminal] (TameContext settings vpn) (protocolUp settings fuel vpn protocol)
      (leftOpen protocol) := by
  have noFiles : NoFiles [.terminal] := fun path => by simp [isOpen]
  cases protocol with
  | wireguard => exact Monitored.leaves (wireguardUp_keeps rfl noFiles) fun _ _ => id
  | ssh => exact Monitored.leaves (sshVpnUp_keeps noFiles rfl rfl) fun _ _ => id
  | openVpn => exact openVpnUp_leaves noFiles rfl
  | pppSsh => exact pppSshVpnUp_leaves noFiles rfl rfl rfl
  | pppTls => exact pppSslClientVpnUp_leaves noFiles rfl rfl

section Accepted

variable {protocol : Protocol} {watch later : Watch} {interaction : Sigma Answer}
  {made : History Answer}

theorem watchStep_cases (stepped : watchStep protocol watch interaction = some later) :
    streamStep watch.opened interaction = some later.opened ∧
      later.tame = (watch.tame && tameAnswer interaction) ∧
      ownProgram protocol interaction.1 = true ∧
      (watch.tame = true → oneCommand protocol interaction.1 = true) := by
  unfold watchStep at stepped
  split at stepped
  case isTrue permitted =>
    obtain ⟨opened, streams, rfl⟩ := Option.map_eq_some_iff.mp stepped
    obtain ⟨own, one⟩ := Bool.and_eq_true_iff.mp permitted
    refine ⟨streams, rfl, own, fun tame => ?_⟩
    simpa [tame] using one
  case isFalse => cases stepped

theorem run_streams (taken : run (watchStep protocol) watch made = some later) :
    run streamStep watch.opened made = some later.opened := by
  induction made generalizing watch with
  | nil =>
      obtain rfl := Option.some.inj taken
      rfl
  | cons interaction rest inductionHypothesis =>
      obtain ⟨next, stepped, remaining⟩ := run_cons taken
      rw [run, (watchStep_cases stepped).1, Option.bind_some, inductionHypothesis remaining]

theorem run_own (taken : run (watchStep protocol) watch made = some later) :
    ∀ interaction ∈ made, ownProgram protocol interaction.1 = true := by
  induction made generalizing watch with
  | nil => simp
  | cons interaction rest inductionHypothesis =>
      obtain ⟨next, stepped, remaining⟩ := run_cons taken
      intro other member
      rcases List.mem_cons.mp member with rfl | inRest
      · exact (watchStep_cases stepped).2.2.1
      · exact inductionHypothesis remaining other inRest

theorem run_one {before after : History Answer}
    (taken : run (watchStep protocol) watch (before ++ interaction :: after) = some later)
    (tame : watch.tame = true) (answers : ∀ earlier ∈ before, tameAnswer earlier = true) :
    oneCommand protocol interaction.1 = true := by
  induction before generalizing watch with
  | nil =>
      obtain ⟨next, stepped, -⟩ := run_cons taken
      exact (watchStep_cases stepped).2.2.2 tame
  | cons first rest inductionHypothesis =>
      obtain ⟨next, stepped, remaining⟩ := run_cons taken
      refine inductionHypothesis remaining ?_ fun earlier member =>
        answers earlier (List.mem_cons_of_mem _ member)
      rw [(watchStep_cases stepped).2.1, tame, answers first List.mem_cons_self]
      rfl

end Accepted

theorem programsOf_listed (protocol : Protocol) : ∀ program ∈ programsOf protocol,
    (getTokens (some mainCommands) ",".toList noFlags).find? (sameNoCase · program) = some program ∧
      program.head? ≠ some '/' := by
  rw [mainCommands_tokens]
  cases protocol <;> decide +kernel

theorem runCmdSetup_known_iff {protocol : Protocol} {text : CString}
    (own : (programsOf protocol).contains (programOf text) = true) (lstat : LStat) (path : CPtr)
    (flags : FlagWord) :
    runCmdSetup (fun command => some (getCommandPath (findCommands lstat path mainCommands) command))
        text flags ≠ none ↔
      ∃ candidate ∈ pathCandidates (programOf text) (some (searchPath path)),
        (lstat candidate).isSome = true := by
  obtain ⟨listed, relative⟩ := programsOf_listed protocol _ (List.contains_iff_mem.mp own)
  have found : getCommandPath (findCommands lstat path mainCommands) (programOf text) =
      findFileInPath lstat (programOf text) (some (searchPath path)) := by
    rw [getCommandPath_findCommands lstat path mainCommands_alike, listed]
    rfl
  have token : (getToken (some text) "\\S".toList noFlags).text = programOf text := rfl
  rw [← findFileInPath_valid_iff, ← found, runCmdSetup]
  simp only [token, if_neg relative]
  split
  case isTrue known => exact iff_of_true (by simp) known
  case isFalse unknown => exact iff_of_false (by simp) unknown

/-! ## Every run -/

section Runs

variable (settings : Settings) (fuel : Nat) (vpn : TVpn) (protocol : Protocol)
  (env : Environment Answer) (ending : Machine.Ending Unit) (made : History Answer)

/-- No stream is used before it is opened or after it is closed, none is closed
twice, and only these are left open. -/
theorem streams_disciplined
    (ended : protocolUp settings fuel vpn protocol env [] = some (ending, made)) :
    ∃ final, run streamStep [.terminal] made = some final ∧
      (ending = .returned () → ∀ stream ∈ final, stream ∈ leftOpen protocol) := by
  obtain ⟨final, accepted, left⟩ := (protocolUp_leaves settings fuel vpn protocol).ended ended
    ⟨[.terminal], false⟩ ⟨rfl, fun tame => absurd tame (by simp)⟩
  exact ⟨final.opened, run_streams accepted, left ()⟩

/-- As long as the host's texts are harmless every local command line is one
command, of the protocol's programs or of a script; what the SSH server sends
never matters to it. -/
theorem commands_single (tame : TameContext settings vpn)
    (ended : protocolUp settings fuel vpn protocol env [] = some (ending, made))
    (before after : History Answer) (call : Call) (answer : Answer call)
    (split : made = before ++ ⟨call, answer⟩ :: after)
    (answers : ∀ earlier ∈ before, tameAnswer earlier = true) :
    oneCommand protocol call = true := by
  obtain ⟨final, accepted, -⟩ := (protocolUp_leaves settings fuel vpn protocol).ended ended
    ⟨[.terminal], true⟩ ⟨rfl, fun _ => tame⟩
  rw [split] at accepted
  exact run_one accepted rfl answers

/-- A command is known to `RunCmdSetup` exactly when some directory of the search
path has its program: none is missing from the list that `main` looks for. -/
theorem launches_known_iff
    (ended : protocolUp settings fuel vpn protocol env [] = some (ending, made)) (lstat : LStat)
    (path : CPtr) (text : CString) (given flags : FlagWord) (answers : Sigma Answer)
    (member : answers ∈ made)
    (launch : answers.1 = .runCommand text given ∨ answers.1 = .runCommandOpen text given) :
    runCmdSetup (fun command => some (getCommandPath (findCommands lstat path mainCommands) command))
        text flags ≠ none ↔
      ∃ candidate ∈ pathCandidates (programOf text) (some (searchPath path)),
        (lstat candidate).isSome = true := by
  obtain ⟨final, accepted, -⟩ := (protocolUp_leaves settings fuel vpn protocol).ended ended
    ⟨[.terminal], false⟩ ⟨rfl, fun tame => absurd tame (by simp)⟩
  have own := run_own accepted answers member
  refine @runCmdSetup_known_iff protocol _ ?_ lstat path flags
  rcases launch with isRun | isOpen
  · rw [isRun] at own
    exact (Bool.and_eq_true_iff.mp own).1
  · rw [isOpen] at own
    exact (Bool.and_eq_true_iff.mp own).1

end Runs

theorem streams_disciplined_wireguard : ∃ made final,
    run streamStep [.terminal] made = some final ∧ ∀ stream ∈ final, stream ∈ leftOpen .wireguard := by
  obtain ⟨made, ended, -⟩ := wireguardUp_runs
  obtain ⟨final, taken, left⟩ := streams_disciplined _ _ _ _ _ _ made ended
  exact ⟨made, final, taken, left rfl⟩

def homeVpn : TVpn :=
  { (vpnCtxCreate "connect".toList (some "home".toList) (some "wg:host".toList)).getD {} with
    dev := some "wg0".toList }

theorem tameContext_homeVpn : TameContext routedSettings homeVpn :=
  ⟨by decide, by decide, by decide, by decide, by decide, by decide, by decide, by decide⟩

/-- The command with the gateway that was read from the host's table. -/
theorem commands_single_home : ∃ rest,
    protocolUp routedSettings 1 homeVpn .wireguard routedHost [] =
        some (.returned (), loopFront ++ loopServerCall :: rest) ∧
      oneCommand .wireguard (.runCommand "route add -host 10.1.1.1 gw 192.168.0.1".toList cmdAsRoot) =
        true := by
  have run : (protocolUp routedSettings 1 homeVpn .wireguard routedHost []).map
      (fun ended => (ended.1, ended.2.take 12)) =
        some (.returned (), loopFront ++ [loopServerCall]) := rfl
  obtain ⟨⟨ending, made⟩, ended, read⟩ := Option.map_eq_some_iff.mp run
  obtain ⟨rfl, front⟩ := Prod.mk.inj read
  have split : made = loopFront ++ loopServerCall :: made.drop 12 := by
    rw [← List.singleton_append, ← List.append_assoc, ← front, List.take_append_drop]
  have tame : ∀ earlier ∈ loopFront, tameAnswer earlier = true :=
    List.all_eq_true.mp (by decide)
  rw [split] at ended
  exact ⟨made.drop 12, ended,
    commands_single _ _ _ _ _ _ _ tameContext_homeVpn ended loopFront _ _ _ rfl tame⟩

theorem launches_known_iff_modprobe :
    runCmdSetup (fun command => some (getCommandPath
        (findCommands (fun _ => some .other) none mainCommands) command))
        "modprobe wireguard".toList cmdAsRoot ≠ none ↔
      ∃ candidate ∈ pathCandidates (programOf "modprobe wireguard".toList)
        (some (searchPath none)), (some PathEntry.other).isSome = true := by
  have run : (protocolUp plainSettings 1 { dev := some "wg0".toList } .wireguard obligingHost
      []).bind (fun ended => ended.2.head?.map (·.1)) =
      some (.runCommand "modprobe wireguard".toList cmdAsRoot) := by decide
  obtain ⟨⟨ending, made⟩, ended, first⟩ := Option.bind_eq_some_iff.mp run
  obtain ⟨answers, isFirst, call⟩ := Option.map_eq_some_iff.mp first
  exact launches_known_iff _ _ _ _ _ _ _ ended (fun _ => some .other) none _ cmdAsRoot _ answers
    (List.mem_of_head? isFirst) (.inl call)

end VpnMgr.Client
