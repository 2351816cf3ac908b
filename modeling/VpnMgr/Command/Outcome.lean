import VpnMgr.Command.Trial
import VpnMgr.Text.Decimal

/-!
# What a command reports

`RunCommand` decides by the wait status of the shell that it spawned.  The
shell runs the bare command, or the wrapper followed by an `echo`; a sequence
ends with the status of its last part.
-/

namespace VpnMgr.Command

open Machine Text CString LibUseful

/-- `$?` after a simple command, 127 if it cannot be started. -/
def simpleStatus : Option Ending → BitVec 8
  | none => 127
  | some (.exited code) => code
  | some (.signalled signal) => 128 + signal.setWidth 8

/-- `$?` after `first; second`. -/
def sequenceStatus (_first second : BitVec 8) : BitVec 8 := second

/-- `$?` after `echo`. -/
def echoStatus : BitVec 8 := 0

/-- The status of the line that `RunCmdFormat` builds.  A wrapper passes the
status of its command on. -/
def lineStatus (wrap : Wrap) (command : Option Ending) : BitVec 8 :=
  match wrap with
  | .bare => simpleStatus command
  | .viaSudo | .viaSu => sequenceStatus (simpleStatus command) echoStatus

def sigTerm : BitVec 7 := 15

/-- How the spawned shell ends, for a cleanup with these flags. -/
def shellEnding (wrap : Wrap) (flags : FlagWord) (attempt : Attempt) : Ending :=
  if flags.has cmdKill && attempt.killed then .signalled sigTerm
  else .exited (lineStatus wrap attempt.command)

/-- The `status` that `waitpid` stores. -/
def waitStatus : Ending → Nat
  | .exited code => code.toNat * 256
  | .signalled signal => signal.toNat

/-- `RunCommandCleanUp`: the result, and the `ExitStatus` it sets. -/
def runCommandCleanUp (wrap : Wrap) (flags : FlagWord) (attempt : Attempt) : RunCmd × CString :=
  let status := waitStatus (shellEnding wrap flags attempt)
  (if status = 0 then .okay else .fail, decimal (status / 256 % 256))

/-- What `RunCommand` comes to. -/
inductive CommandResult where
  | returned (result : RunCmd)
  | exited (code : Nat)
  deriving DecidableEq

/-- `RunCommand`. -/
def runCommand (env : Env) (cmd : CString) (flags : FlagWord) (first second : Attempt)
    (session : Session) : CommandResult × Session :=
  let opening := runCommandOpen env cmd flags first second session
  match opening.opened with
  | .stream wrap attempt =>
      (.returned (runCommandCleanUp wrap flags attempt).1,
        opening.session.signalled attempt.interrupted)
  | .null => (.exited 1, opening.session)
  | .exited => (.exited 1, opening.session)

/-! ## The command's own outcome -/

section Serving

variable (env : Env) (cmd : CString) (flags : FlagWord) (first second : Attempt)
  (session : Session)

/-- sudo is asked for, found, started, and lets the user pass. -/
def sudoServes : Bool :=
  (effectiveFlags env flags session).has cmdSudo &&
    first.serves session.standing env cmd (sudoForm env flags session)

/-- What the first attempt leaves to the second. -/
def laterStanding : Standing :=
  if (effectiveFlags env flags session).has cmdSudo &&
      first.spawns env cmd (sudoForm env flags session) then
    first.leaves session.standing
  else session.standing

/-- sudo is not asked for or comes to nothing, and the second attempt is let pass. -/
def fallbackServes : Bool :=
  (!(effectiveFlags env flags session).has cmdSudo ||
      first.givesWay session.standing env cmd (sudoForm env flags session)) &&
    second.serves (laterStanding env cmd flags first session) env cmd
      (fallbackForm env flags session)

/-- Neither sudo nor su comes between the shell and the command. -/
def runsBare : Bool :=
  env.root || (!sudoServes env cmd flags first session &&
    !(effectiveFlags env flags session).has cmdSu)

def servingAttempt : Attempt :=
  if sudoServes env cmd flags first session then first else second

end Serving

/-- The command was started and exited with status 0. -/
def CommandSucceeded (env : Env) (cmd : CString) (flags : FlagWord) (first second : Attempt)
    (session : Session) : Prop :=
  ∃ wrap attempt, (runCommandOpen env cmd flags first second session).opened =
    .stream wrap attempt ∧ attempt.command = some (.exited 0)

/-- The shell's status tells how the command ended: no `SIGTERM` hides a
success, and behind a wrapper, whose `echo` always succeeds, nothing but a
`SIGTERM` can show a failure. -/
def StatusTells (bare killed : Bool) (command : Option Ending) : Prop :=
  if bare then ¬ (killed = true ∧ command = some (.exited 0))
  else command = some (.exited 0) ↔ killed = false

theorem simpleStatus_eq_zero_iff (command : Option Ending) :
    simpleStatus command = 0 ↔ command = some (.exited 0) := by
  rcases command with _ | code | signal
  · simp [simpleStatus]
  · simp [simpleStatus]
  · have bound := signal.isLt
    simp only [simpleStatus, reduceCtorEq, iff_false, Option.some.injEq]
    intro zero
    have value := congrArg BitVec.toNat zero
    simp at value
    omega

theorem runCommandCleanUp_okay_iff (wrap : Wrap) (flags : FlagWord) (attempt : Attempt) :
    (runCommandCleanUp wrap flags attempt).1 = .okay ↔
      (flags.has cmdKill && attempt.killed) = false ∧ lineStatus wrap attempt.command = 0 := by
  by_cases killed : (flags.has cmdKill && attempt.killed) = true
  · simp [runCommandCleanUp, shellEnding, killed, waitStatus, sigTerm]
  · have zero : (lineStatus wrap attempt.command).toNat * 256 = 0 ↔
        lineStatus wrap attempt.command = 0 := by
      constructor
      · intro product
        have nothing : (lineStatus wrap attempt.command).toNat = 0 := by omega
        exact BitVec.eq_of_toNat_eq nothing
      · intro same
        rw [same]
        rfl
    simpa [runCommandCleanUp, shellEnding, killed, waitStatus] using zero

theorem runCommandCleanUp_tells (wrap : Wrap) (flags : FlagWord) (attempt : Attempt) :
    ((runCommandCleanUp wrap flags attempt).1 = .okay ↔ attempt.command = some (.exited 0)) ↔
      StatusTells (wrap = .bare) (flags.has cmdKill && attempt.killed) attempt.command := by
  rw [runCommandCleanUp_okay_iff]
  generalize (flags.has cmdKill && attempt.killed) = killed
  cases wrap with
  | bare =>
      simp only [lineStatus, simpleStatus_eq_zero_iff, StatusTells, decide_true, if_true]
      cases killed <;> simp
  | viaSudo =>
      simp only [lineStatus, sequenceStatus, echoStatus, and_true, StatusTells]
      exact Iff.intro Iff.symm Iff.symm
  | viaSu =>
      simp only [lineStatus, sequenceStatus, echoStatus, and_true, StatusTells]
      exact Iff.intro Iff.symm Iff.symm

theorem wrapOf_tryFlags_bare_iff (env : Env) (flags : FlagWord) :
    wrapOf (tryFlags env flags) = .bare ↔
      env.root = true ∨ (flags.has cmdSudo = false ∧ flags.has cmdSu = false) := by
  rw [wrapOf_bare_iff]
  unfold tryFlags
  cases env.root with
  | true =>
      have noSudo : (flags.drop (cmdSudo ||| cmdSu)).has cmdSudo = false := by
        rw [FlagWord.has_drop flags (by decide)]
        simp [show FlagWord.has (cmdSudo ||| cmdSu) cmdSudo = true by decide]
      have noSu : (flags.drop (cmdSudo ||| cmdSu)).has cmdSu = false := by
        rw [FlagWord.has_drop flags (by decide)]
        simp [show FlagWord.has (cmdSudo ||| cmdSu) cmdSu = true by decide]
      simp [noSudo, noSu]
  | false => simp

section Streams

variable {env : Env} {cmd : CString} {flags : FlagWord} {first second : Attempt}
  {session : Session}

/-- The prompts of the second attempt find what the first one left. -/
theorem fallback_standing (wanted : (effectiveFlags env flags session).has cmdSudo = true)
    (gives : first.givesWay session.standing env cmd (sudoForm env flags session) = true) :
    Session.standing
        ⟨(runCommandOpenTry env cmd (rootFlags env flags session.globalFlags) first
            session).session.globalFlags.drop cmdSudo,
          (runCommandOpenTry env cmd (rootFlags env flags session.globalFlags) first
            session).session.passwords⟩ =
      laterStanding env cmd flags first session := by
  have kept := fun trial : Session => show
      Session.standing ⟨trial.globalFlags.drop cmdSudo, trial.passwords⟩ = trial.standing by
    have apart : cmdSudo.has flagExit = false := by decide
    simp only [Session.standing, FlagWord.has_drop_of_disjoint _ apart]
    rfl
  rw [kept, runCommandOpenTry_standing, laterStanding, wanted, Bool.true_and]
  change (if first.spawns env cmd (sudoForm env flags session) && _ then _ else _) = _
  unfold Attempt.givesWay at gives
  cases spawned : first.spawns env cmd (sudoForm env flags session) with
  | false => rfl
  | true =>
      rw [spawned, Bool.not_true, Bool.false_or, Bool.and_eq_true] at gives
      change (if decide (sudoForm env flags session ≠ .bare) then _ else _) = _
      rw [gives.1]

/-- The stream of `RunCommandOpen`: the attempt that serves, in its form. -/
theorem runCommandOpen_stream_iff {wrap : Wrap} {served : Attempt} :
    (runCommandOpen env cmd flags first second session).opened = .stream wrap served ↔
      (sudoServes env cmd flags first session = true ∧ wrap = sudoForm env flags session ∧
        served = first) ∨
      (sudoServes env cmd flags first session = false ∧
        fallbackServes env cmd flags first second session = true ∧
        wrap = fallbackForm env flags session ∧ served = second) := by
  unfold sudoServes fallbackServes
  rcases runCommandOpen_cases env cmd flags first second session with
    ⟨unwanted, course⟩ | ⟨wanted, settled, course⟩ | ⟨wanted, failed, opened, -⟩
  · have unasked : (effectiveFlags env flags session).has cmdSudo = false := unwanted
    have form := fallbackForm_of_unwanted unasked
    have standing : laterStanding env cmd flags first session = session.standing := by
      rw [laterStanding, unasked]
      rfl
    rw [course, runCommandOpenTry_stream_iff, form, standing, unasked]
    simp [sudoForm, effectiveFlags]
  · have asked : (effectiveFlags env flags session).has cmdSudo = true := wanted
    have stays : first.givesWay session.standing env cmd (sudoForm env flags session) = false := by
      rw [ne_eq, runCommandOpenTry_null_iff] at settled
      exact Bool.eq_false_iff.mpr settled
    rw [course, runCommandOpenTry_stream_iff, asked, stays]
    simp [sudoForm, effectiveFlags]
  · have asked : (effectiveFlags env flags session).has cmdSudo = true := wanted
    have gives : first.givesWay session.standing env cmd (sudoForm env flags session) = true :=
      (runCommandOpenTry_null_iff _ _ _ _ _).mp failed
    have standing := @fallback_standing env cmd flags first session asked gives
    rw [opened, fallbackOpening, runCommandOpenTry_stream_iff, standing, asked, gives,
      Attempt.not_serves gives]
    simp [fallbackForm, effectiveFlags]

theorem runCommandOpen_stream {served : Attempt} {wrap : Wrap}
    (stream : (runCommandOpen env cmd flags first second session).opened = .stream wrap served) :
    served = servingAttempt env cmd flags first second session ∧
      (wrap = .bare ↔ runsBare env cmd flags first session = true) := by
  rcases runCommandOpen_stream_iff.mp stream with
    ⟨serves, rfl, rfl⟩ | ⟨noSudo, -, rfl, rfl⟩
  · have asked := (Bool.and_eq_true_iff.mp serves).1
    refine ⟨by simp [servingAttempt, serves], ?_⟩
    rw [sudoForm, wrapOf_tryFlags_bare_iff]
    simp [runsBare, serves, asked]
  · refine ⟨by simp [servingAttempt, noSudo], ?_⟩
    rw [fallbackForm, wrapOf_tryFlags_bare_iff, FlagWord.has_drop_self,
      FlagWord.has_drop_of_disjoint _ (by decide)]
    simp [runsBare, noSudo]

/-- `RunCommand` returns `RUN_CMD_OKAY` for exactly the commands that were
started and exited with status 0, if and only if no attempt serves or the
shell's status tells the command's end. -/
theorem runCommand_okay_iff (env : Env) (cmd : CString) (flags : FlagWord)
    (first second : Attempt) (session : Session) :
    ((runCommand env cmd flags first second session).1 = .returned .okay ↔
        CommandSucceeded env cmd flags first second session) ↔
      ((sudoServes env cmd flags first session ||
          fallbackServes env cmd flags first second session) = true →
        StatusTells (runsBare env cmd flags first session)
          (flags.has cmdKill && (servingAttempt env cmd flags first second session).killed)
          (servingAttempt env cmd flags first second session).command) := by
  have streams := @runCommandOpen_stream_iff env cmd flags first second session
  rcases course : (runCommandOpen env cmd flags first second session).opened with
    ⟨wrap, served⟩ | _ | _
  · obtain ⟨same, bare⟩ := runCommandOpen_stream course
    have form : runsBare env cmd flags first session = decide (wrap = .bare) := by
      rw [Bool.eq_iff_iff, ← bare, decide_eq_true_iff]
    have serves : (sudoServes env cmd flags first session ||
        fallbackServes env cmd flags first second session) = true := by
      rcases streams.mp course with ⟨bySudo, -⟩ | ⟨-, fallback, -⟩
      · rw [bySudo, Bool.true_or]
      · rw [fallback, Bool.or_true]
    have tells := runCommandCleanUp_tells wrap flags served
    rw [← same, form, serves]
    simpa [runCommand, CommandSucceeded, course] using tells
  all_goals
    have nothing : (sudoServes env cmd flags first session ||
        fallbackServes env cmd flags first second session) = false := by
      have none := fun wrap served => mt (@streams wrap served).mpr (by rw [course]; simp)
      cases bySudo : sudoServes env cmd flags first session <;>
        cases fallback : fallbackServes env cmd flags first second session <;>
        simp_all
    simp [runCommand, CommandSucceeded, course, nothing]

end Streams

/-- Every program is in `/usr/bin`, and the user is not root. -/
def wireguardEnv : Env :=
  { root := false, getCommandPath := fun name => some ("/usr/bin/".toList ++ name) }

/-- `wg` under sudo, which fails with status 1. -/
def failingWg : Attempt :=
  { opens := true, chunks := [{ text := "vpn-mgr-cmd-run\r".toList }], typed := []
    command := some (.exited 1) }

/-- A `wg setconf` that fails under sudo is reported as `RUN_CMD_OKAY`. -/
theorem runCommand_okay_of_failed_command :
    ¬ ((runCommand wireguardEnv "wg setconf wg0 /etc/wg.conf".toList cmdAsRoot failingWg failingWg
          ⟨flagLocalSudo, fun _ => none⟩).1 = .returned .okay ↔
        CommandSucceeded wireguardEnv "wg setconf wg0 /etc/wg.conf".toList cmdAsRoot failingWg
          failingWg ⟨flagLocalSudo, fun _ => none⟩) := by
  have okay : (runCommand wireguardEnv "wg setconf wg0 /etc/wg.conf".toList cmdAsRoot failingWg
      failingWg ⟨flagLocalSudo, fun _ => none⟩).1 = .returned .okay := by
    decide
  rintro ⟨reported, -⟩
  obtain ⟨wrap, attempt, opened, succeeded⟩ := reported okay
  have served := (runCommandOpen_stream opened).1
  have failed : (servingAttempt wireguardEnv "wg setconf wg0 /etc/wg.conf".toList cmdAsRoot
      failingWg failingWg ⟨flagLocalSudo, fun _ => none⟩).command = some (.exited 1) := by
    decide
  rw [served, failed] at succeeded
  exact absurd succeeded (by decide)

end VpnMgr.Command
