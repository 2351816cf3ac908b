import VpnMgr.Command.Trial
import VpnMgr.Machine.Run

/-!
# The local privilege policy

A process of an ordinary user launches privileged commands one after the
other.  The methods it may use are the ones enabled in `GlobalFlags` when it
starts; `RunCommandOpen` decides by flags that it changes itself.
-/

namespace VpnMgr.Command

open Machine Text CString LibUseful

/-- The flags of a `RunCommandOpen` call that asks for root. -/
structure RootCall where
  flags : FlagWord
  asRoot : flags.has cmdAsRoot = true
  noSu : flags.has cmdSu = false
  noSudo : flags.has cmdSudo = false

/-- A local privileged launch, with its possible attempts. -/
structure Launch where
  /-- `none` is the call in `PPPDLaunch` -/
  call : Option RootCall
  cmd : CString
  first : Attempt
  second : Attempt

/-- `CMD_SUDO | CMD_SU | CMD_NO_STDERR` for pppd. -/
def Launch.flags (launch : Launch) : FlagWord :=
  match launch.call with
  | some call => call.flags
  | none => cmdSudo ||| cmdSu ||| cmdNoStderr

/-- A running process and what it has spawned so far. -/
structure Launcher where
  session : Session
  exited : Bool := false
  spawned : List Wrap := []

/-- One launch; nothing is launched once the process has exited. -/
def launchStep (env : Env) (process : Launcher) (launch : Launch) : Option Launcher :=
  if process.exited then none
  else
    let opening := runCommandOpen env launch.cmd launch.flags launch.first launch.second
      process.session
    some
      { session := opening.session
        exited := match opening.opened with | .exited => true | _ => false
        spawned := process.spawned ++ opening.spawns }

/-- What the user allowed: a method only if it was enabled, and none only if
none was. -/
def Allowed (start : FlagWord) : Wrap → Prop
  | .viaSudo => start.has flagLocalSudo = true
  | .viaSu => start.has flagLocalSu = true
  | .bare => start.has flagLocalSudo = false ∧ start.has flagLocalSu = false

instance (start : FlagWord) (wrap : Wrap) : Decidable (Allowed start wrap) := by
  cases wrap <;> unfold Allowed <;> infer_instance

/-- The launches that stay within the policy.  A call that asks for root gives
up sudo only where su was enabled as well, or nothing is spawned bare after it;
pppd is spawned under sudo or su only where that was enabled. -/
def Respects (env : Env) (start : FlagWord) (process : Launcher) (launch : Launch) : Prop :=
  let standing := process.session.standing
  match launch.call with
  | some _ =>
      start.has flagLocalSudo = true → start.has flagLocalSu = false →
        launch.second.spawns env launch.cmd .bare = true →
        process.session.globalFlags.has flagLocalSudo = true ∧
          launch.first.givesWay standing env launch.cmd .viaSudo = false
  | none =>
      (launch.first.spawns env launch.cmd .viaSudo = true → start.has flagLocalSudo = true) ∧
      (launch.first.givesWay standing env launch.cmd .viaSudo = true →
        launch.second.spawns env launch.cmd .viaSu = true → start.has flagLocalSu = true)

structure FlagsKept (start : FlagWord) (process : Launcher) : Prop where
  su : process.session.globalFlags.has flagLocalSu = start.has flagLocalSu
  sudoEnabled : process.session.globalFlags.has flagLocalSudo = true →
    start.has flagLocalSudo = true

def WithinPolicy (start : FlagWord) (process : Launcher) : Prop :=
  ∀ wrap ∈ process.spawned, Allowed start wrap

section Step

variable {env : Env} {start : FlagWord} {process next : Launcher} {launch : Launch}

theorem tryFlags_user (ordinary : env.root = false) (flags : FlagWord) :
    tryFlags env flags = flags := by
  simp [tryFlags, ordinary]

theorem effectiveFlags_rootCall (ordinary : env.root = false) (call : RootCall)
    (session : Session) :
    (effectiveFlags env call.flags session).has cmdSu = session.globalFlags.has flagLocalSu ∧
      (effectiveFlags env call.flags session).has cmdSudo =
        session.globalFlags.has flagLocalSudo := by
  have suOnly : cmdSu.has cmdSu = true ∧ cmdSu.has cmdSudo = false := by decide
  have sudoOnly : cmdSudo.has cmdSu = false ∧ cmdSudo.has cmdSudo = true := by decide
  simp only [effectiveFlags, rootFlags, call.asRoot, ordinary]
  cases session.globalFlags.has flagLocalSu <;>
    cases session.globalFlags.has flagLocalSudo <;>
    simp [call.noSu, call.noSudo, suOnly, sudoOnly]

theorem effectiveFlags_pppd (session : Session) :
    let flags := effectiveFlags env (cmdSudo ||| cmdSu ||| cmdNoStderr) session
    flags.has cmdSu = true ∧ flags.has cmdSudo = true := by
  have noRoot : FlagWord.has (cmdSudo ||| cmdSu ||| cmdNoStderr) cmdAsRoot = false := by decide
  simp only [effectiveFlags, rootFlags, noRoot, Bool.false_and, Bool.false_eq_true, if_false]
  decide

theorem sudoForm_user (ordinary : env.root = false) {flags : FlagWord} {session : Session}
    (wanted : (effectiveFlags env flags session).has cmdSudo = true) :
    sudoForm env flags session = .viaSudo := by
  rw [sudoForm, tryFlags_user ordinary, wrapOf, if_pos wanted]

theorem fallbackForm_user (ordinary : env.root = false) (flags : FlagWord) (session : Session) :
    fallbackForm env flags session =
      if (effectiveFlags env flags session).has cmdSu then .viaSu else .bare := by
  rw [fallbackForm, tryFlags_user ordinary, wrapOf, FlagWord.has_drop_self,
    FlagWord.has_drop_of_disjoint _ (by decide)]
  rfl

/-- What a launch spawns is allowed, attempt by attempt. -/
theorem spawns_allowed_iff {flags : FlagWord} {session : Session} {cmd : CString}
    {first second : Attempt} :
    (∀ wrap ∈ (runCommandOpen env cmd flags first second session).spawns, Allowed start wrap) ↔
      ((effectiveFlags env flags session).has cmdSudo = true →
        first.spawns env cmd (sudoForm env flags session) = true →
        Allowed start (sudoForm env flags session)) ∧
      (((effectiveFlags env flags session).has cmdSudo = true →
          first.givesWay session.standing env cmd (sudoForm env flags session) = true) →
        second.spawns env cmd (fallbackForm env flags session) = true →
        Allowed start (fallbackForm env flags session)) := by
  simp only [mem_spawns_iff]
  constructor
  · intro allowed
    exact ⟨fun wanted spawned => allowed _ (.inl ⟨wanted, spawned, rfl⟩),
      fun given spawned => allowed _ (.inr ⟨given, spawned, rfl⟩)⟩
  · rintro ⟨bySudo, byFallback⟩ wrap (⟨wanted, spawned, rfl⟩ | ⟨given, spawned, rfl⟩)
    · exact bySudo wanted spawned
    · exact byFallback given spawned

/-- A call that asks for root, exactly. -/
theorem rootCall_allowed_iff (ordinary : env.root = false) {call : RootCall} {session : Session}
    {cmd : CString} {first second : Attempt}
    (su : session.globalFlags.has flagLocalSu = start.has flagLocalSu)
    (sudoEnabled : session.globalFlags.has flagLocalSudo = true →
      start.has flagLocalSudo = true) :
    (∀ wrap ∈ (runCommandOpen env cmd call.flags first second session).spawns,
        Allowed start wrap) ↔
      (start.has flagLocalSudo = true → start.has flagLocalSu = false →
        second.spawns env cmd .bare = true →
        session.globalFlags.has flagLocalSudo = true ∧
          first.givesWay session.standing env cmd .viaSudo = false) := by
  obtain ⟨suFlag, sudoFlag⟩ := effectiveFlags_rootCall ordinary call session
  have form := @sudoForm_user env ordinary call.flags session
  rw [spawns_allowed_iff, fallbackForm_user ordinary, suFlag, su]
  rw [sudoFlag] at form ⊢
  cases asked : session.globalFlags.has flagLocalSudo with
  | true =>
      have enabled := sudoEnabled asked
      rw [form asked]
      cases suEnabled : start.has flagLocalSu <;> simp [Allowed, enabled, suEnabled]
  | false => cases suEnabled : start.has flagLocalSu <;> simp [Allowed, suEnabled]

theorem pppd_allowed_iff (ordinary : env.root = false) {session : Session} {cmd : CString}
    {first second : Attempt} :
    (∀ wrap ∈ (runCommandOpen env cmd (cmdSudo ||| cmdSu ||| cmdNoStderr) first second
        session).spawns, Allowed start wrap) ↔
      (first.spawns env cmd .viaSudo = true → start.has flagLocalSudo = true) ∧
      (first.givesWay session.standing env cmd .viaSudo = true →
        second.spawns env cmd .viaSu = true → start.has flagLocalSu = true) := by
  obtain ⟨suFlag, sudoFlag⟩ := @effectiveFlags_pppd env session
  rw [spawns_allowed_iff, fallbackForm_user ordinary, sudoForm_user ordinary sudoFlag, suFlag,
    sudoFlag]
  simp [Allowed]

theorem launch_allowed_iff (ordinary : env.root = false) (kept : FlagsKept start process) :
    (∀ wrap ∈ (runCommandOpen env launch.cmd launch.flags launch.first launch.second
        process.session).spawns, Allowed start wrap) ↔ Respects env start process launch := by
  unfold Launch.flags Respects
  cases launch.call with
  | some call => exact rootCall_allowed_iff ordinary kept.su kept.sudoEnabled
  | none => exact pppd_allowed_iff ordinary

theorem launchStep_eq (stepped : launchStep env process launch = some next) :
    let opening := runCommandOpen env launch.cmd launch.flags launch.first launch.second
      process.session
    next.session = opening.session ∧ next.spawned = process.spawned ++ opening.spawns := by
  unfold launchStep at stepped
  split at stepped
  · cases stepped
  · obtain rfl := Option.some.inj stepped
    exact ⟨rfl, rfl⟩

/-- A launch gives up sudo at most. -/
theorem runCommandOpen_flags (cmd : CString) (flags : FlagWord) (first second : Attempt)
    (session : Session) :
    let after := (runCommandOpen env cmd flags first second session).session.globalFlags
    after.has flagLocalSu = session.globalFlags.has flagLocalSu ∧
      (after.has flagLocalSudo = true → session.globalFlags.has flagLocalSudo = true) := by
  have suKept : flagExit.has flagLocalSu = false := by decide
  have sudoKept : flagExit.has flagLocalSudo = false := by decide
  have tried := fun (flags : FlagWord) (attempt : Attempt) (session : Session) =>
    And.intro (runCommandOpenTry_flags env cmd flags attempt session suKept)
      (runCommandOpenTry_flags env cmd flags attempt session sudoKept)
  dsimp only
  rcases runCommandOpen_cases env cmd flags first second session with
    ⟨-, course⟩ | ⟨-, -, course⟩ | ⟨-, -, -, course, -⟩
  · rw [course, (tried _ _ _).1, (tried _ _ _).2]
    exact ⟨rfl, id⟩
  · rw [course, (tried _ _ _).1, (tried _ _ _).2]
    exact ⟨rfl, id⟩
  · rw [course, fallbackOpening, (tried _ _ _).1, (tried _ _ _).2]
    refine ⟨?_, fun still => ?_⟩
    · rw [FlagWord.has_drop_of_disjoint _ (by decide), (tried _ _ _).1]
    · rw [show flagLocalSudo = cmdSudo from rfl, FlagWord.has_drop_self] at still
      cases still

theorem launchStep_flags (stepped : launchStep env process launch = some next)
    (kept : FlagsKept start process) : FlagsKept start next := by
  obtain ⟨su, sudoKept⟩ := @runCommandOpen_flags env launch.cmd launch.flags launch.first
    launch.second process.session
  rw [← (launchStep_eq stepped).1] at su sudoKept
  exact ⟨su.trans kept.su, fun still => kept.sudoEnabled (sudoKept still)⟩

theorem launchStep_policy_iff (ordinary : env.root = false)
    (stepped : launchStep env process launch = some next) (kept : FlagsKept start process)
    (policy : WithinPolicy start process) :
    WithinPolicy start next ↔ Respects env start process launch := by
  rw [← launch_allowed_iff ordinary kept, WithinPolicy, (launchStep_eq stepped).2]
  simp only [List.forall_mem_append]
  exact and_iff_right policy

end Step

variable {env : Env}

theorem launchStep_spawned {final process : Launcher} (launches : List Launch)
    (taken : run (launchStep env) process launches = some final) :
    process.spawned ⊆ final.spawned := by
  refine @run_invariant_of_step _ _ _ (fun later => process.spawned ⊆ later.spawned)
    (fun state event next stepped before => ?_) _ _ launches taken (List.Subset.refl _)
  rw [(launchStep_eq stepped).2]
  exact List.subset_append_of_subset_left _ before

/-- A run spawns only by methods that were enabled at the start, exactly if
every launch respects the policy. -/
theorem spawned_allowed_iff (ordinary : env.root = false) {session : Session}
    {final : Launcher} (launches : List Launch)
    (taken : run (launchStep env) { session } launches = some final) :
    (∀ wrap ∈ final.spawned, Allowed session.globalFlags wrap) ↔
      EachStep (launchStep env) (Respects env session.globalFlags) { session } launches := by
  have initial : FlagsKept session.globalFlags { session } := ⟨rfl, id⟩
  have nothing : WithinPolicy session.globalFlags { session } := by simp [WithinPolicy]
  rw [← run_prefixes_iff (fun _ _ _ => launchStep_flags)
    (fun _ _ _ => launchStep_policy_iff ordinary) launches taken initial nothing]
  constructor
  · rintro policy before after middle rfl reached wrap spawned
    rw [run_append, reached, Option.bind_some] at taken
    exact policy wrap (launchStep_spawned after taken spawned)
  · intro policy
    exact policy launches [] final (List.append_nil launches).symm taken

/-- An ordinary user's process, with every program in `/usr/bin`. -/
def userEnv : Env := { root := false, getCommandPath := fun name => some ("/usr/bin/".toList ++ name) }

/-- `modprobe wireguard` with `CMD_ASROOT`. -/
def modprobeLaunch (first second : Attempt) : Launch :=
  { call := some ⟨cmdAsRoot, by decide, by decide, by decide⟩
    cmd := "modprobe wireguard".toList, first, second }

def startedAttempt : Attempt :=
  { opens := true, chunks := [{ text := "vpn-mgr-cmd-run\r".toList }], typed := []
    command := some (.exited 0) }

def refusedAttempt : Attempt :=
  { opens := true
    chunks := [{ text := "[sudo] password for u:".toList }, { text := "Sorry, try again.\r".toList }]
    typed := [some "secret".toList], command := none }

/-- sudo turns the user away, and su is enabled as well. -/
theorem spawned_allowed_iff_refused :
    ∃ final, run (launchStep userEnv) { session := ⟨flagLocalSu ||| flagLocalSudo, fun _ => none⟩ }
        [modprobeLaunch startedAttempt startedAttempt,
          modprobeLaunch refusedAttempt startedAttempt] = some final ∧
      ∀ wrap ∈ final.spawned, Allowed (flagLocalSu ||| flagLocalSudo) wrap := by
  obtain ⟨final, taken⟩ := Option.isSome_iff_exists.mp (show (run (launchStep userEnv)
    { session := ⟨flagLocalSu ||| flagLocalSudo, fun _ => none⟩ }
    [modprobeLaunch startedAttempt startedAttempt,
      modprobeLaunch refusedAttempt startedAttempt]).isSome = true from rfl)
  refine ⟨final, taken, (spawned_allowed_iff rfl _ taken).mpr ?_⟩
  have enabled : ¬ (flagLocalSu ||| flagLocalSudo).has flagLocalSu = false := by decide
  exact ⟨fun _ none => absurd none enabled, fun _ _ => ⟨fun _ none => absurd none enabled,
    fun _ _ => trivial⟩⟩

/-- With sudo alone enabled and refused, `modprobe` is run bare. -/
theorem refused_sudo_spawns_bare :
    ∃ final, run (launchStep userEnv) { session := ⟨flagLocalSudo, fun _ => none⟩ }
        [modprobeLaunch refusedAttempt startedAttempt] = some final ∧
      Wrap.bare ∈ final.spawned ∧ ¬ Allowed flagLocalSudo .bare := by
  refine ⟨_, rfl, ?_, by decide⟩
  decide

end VpnMgr.Command
