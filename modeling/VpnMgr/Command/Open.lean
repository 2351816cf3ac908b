import VpnMgr.Command.Format

/-!
# Starting a command

`RunCommandOpen` and what it calls.  The outside world enters as an `Attempt`:
whether the shell starts, what the command prints up to the point where
`RunCommandReadLoop` stops reading, and what the user types at a prompt.
-/

namespace VpnMgr.Command

open Machine Text CString LibUseful

/-- The `RUN_CMD_` results. -/
inductive RunCmd where
  | begin
  | okay
  | unknown
  | authFail
  | fail
  | abort
  deriving DecidableEq

/-- What a process keeps between commands: `GlobalFlags` and `Passwords`. -/
structure Session where
  globalFlags : FlagWord
  passwords : CString → CPtr

/-- A signal that sets `FLAG_EXIT`, or none. -/
def Session.signalled (session : Session) (interrupted : Bool) : Session :=
  if interrupted then { session with globalFlags := session.globalFlags.raise flagExit }
  else session

theorem Session.signalled_flags (session : Session) (interrupted : Bool) {mask : FlagWord}
    (notExit : flagExit.has mask = false) :
    (session.signalled interrupted).globalFlags.has mask = session.globalFlags.has mask := by
  unfold Session.signalled
  split
  · simp [notExit]
  · rfl

/-- The user and the programs `FindCommands` found. -/
structure Env where
  /-- `getuid() == 0` -/
  root : Bool
  getCommandPath : CString → CPtr

/-- One string returned by `STREAMReadToMultiTerminator`. -/
structure Chunk where
  text : CString
  /-- a signal sets `FLAG_EXIT` before the loop tests it -/
  interrupted : Bool := false

/-- How a program ends. -/
inductive Ending where
  | exited (code : BitVec 8)
  | signalled (signal : BitVec 7)
  deriving DecidableEq

structure Attempt where
  /-- `STREAMOpen` succeeds -/
  opens : Bool
  chunks : List Chunk
  /-- what `TerminalReadPrompt` returns at successive prompts -/
  typed : List CPtr
  /-- the end of the requested program, `none` if it was never started -/
  command : Option Ending
  /-- a signal sets `FLAG_EXIT` while the output is read -/
  interrupted : Bool := false
  /-- the `SIGTERM` of `CMD_KILL` finds the spawned shell alive -/
  killed : Bool := false

/-- The variables of `RunCommandReadLoop` and the text it sent. -/
structure ReadLoop where
  session : Session
  typed : List CPtr
  sent : List CString
  result : RunCmd

/-- `RunCommandPasswordTransact`. -/
def runCommandPasswordTransact (domain program : CString) (loop : ReadLoop) : ReadLoop :=
  let passwordType := mCopyStr [some domain, some " ".toList, some program]
  let cached := copyStr (loop.session.passwords passwordType)
  if strValid (some cached) then
    { loop with sent := loop.sent ++ [cached, ['\n']], result := .okay }
  else
    let password := loop.typed.headD none
    -- the names of a list of variables are compared in any case
    let passwords := fun name =>
      if sameNoCase name passwordType then password else loop.session.passwords name
    if strValid password then
      { session := { loop.session with passwords }
        typed := loop.typed.tail
        sent := loop.sent ++ [copyStr password, ['\n']]
        result := .okay }
    else
      { loop with
        typed := loop.typed.tail
        sent := loop.sent ++ [copyStr password, ['\n']]
        result := .abort }

/-- What a line of output means to `RunCommandReadLoop`. -/
inductive Reaction where
  | password
  | authFail
  | started
  | finished
  | output
  deriving DecidableEq

def reactionTo (checkStr : CString) : Reaction :=
  if hasPrefix "[sudo] password for".toList checkStr then .password
  else if hasPrefix "Password:".toList checkStr then .password
  else if hasPrefix "Sorry".toList checkStr then .authFail
  else if checkStr = "Authentication failure".toList then .authFail
  else if checkStr = "vpn-mgr-cmd-run".toList then .started
  else if checkStr = "vpn-mgr-sudo-done".toList then .finished
  else if checkStr = "vpn-mgr-su-done".toList then .finished
  else .output

/-- The body of the loop for a nonempty string, and whether it breaks. -/
def runCommandReadChunk (domain program text : CString) (loop : ReadLoop) : ReadLoop × Bool :=
  let checkStr := stripTrailingWhitespace (stripLeadingWhitespace text)
  match reactionTo checkStr with
  | .authFail => ({ loop with result := .authFail }, true)
  | .started => ({ loop with result := .okay }, true)
  | .finished => (loop, true)
  | .password =>
      let loop := runCommandPasswordTransact domain program loop
      (loop, loop.result ≠ .begin && loop.result ≠ .okay)
  | .output => (loop, loop.result ≠ .begin && loop.result ≠ .okay)

/-- `RunCommandReadLoop`. -/
def runCommandReadLoop (domain program : CString) : List Chunk → ReadLoop → ReadLoop
  | [], loop => loop
  | chunk :: rest, loop =>
      let (loop, breaks) :=
        if strValid (some chunk.text) then runCommandReadChunk domain program chunk.text loop
        else (loop, false)
      let loop := { loop with session := loop.session.signalled chunk.interrupted }
      if breaks || loop.session.globalFlags.has flagExit then loop
      else runCommandReadLoop domain program rest loop

/-- What `RunCommandOpenTry` comes to. -/
inductive Opened where
  /-- a stream to a command started in this form, by this attempt -/
  | stream (wrap : Wrap) (attempt : Attempt)
  | null
  /-- `exit(1)` -/
  | exited

/-- A result, the session after it, and the forms in which something was spawned. -/
structure Opening where
  opened : Opened
  session : Session
  spawns : List Wrap := []

/-- The flags `RunCommandOpenTry` works with. -/
def tryFlags (env : Env) (flags : FlagWord) : FlagWord :=
  if env.root then flags.drop (cmdSudo ||| cmdSu) else flags

/-- `RunCommandOpenTry`. -/
def runCommandOpenTry (env : Env) (cmd : CString) (flags : FlagWord) (attempt : Attempt)
    (session : Session) : Opening :=
  let flags := tryFlags env flags
  let fullCmd := runCmdSetup env.getCommandPath cmd flags
  let wrap := wrapOf flags
  if !strValid fullCmd then { opened := .null, session }
  else if !attempt.opens then { opened := .null, session }
  else if flags.has (cmdSudo ||| cmdSu) then
    let loop := runCommandReadLoop "Local".toList "su/sudo".toList attempt.chunks
      { session, typed := attempt.typed, sent := [], result := .begin }
    let opened :=
      if loop.result = .authFail then .null
      else if loop.result = .abort then .exited
      else .stream wrap attempt
    { opened, session := loop.session, spawns := [wrap] }
  else { opened := .stream wrap attempt, session, spawns := [wrap] }

/-- The command flags once `CMD_ASROOT` has brought in the enabled methods. -/
def rootFlags (env : Env) (flags globalFlags : FlagWord) : FlagWord :=
  if flags.has cmdAsRoot && !env.root then
    let flags := if globalFlags.has flagLocalSu then flags.raise cmdSu else flags
    if globalFlags.has flagLocalSudo then flags.raise cmdSudo else flags
  else flags

/-- `RunCommandOpen`: an attempt with sudo if it is asked for, then, without a
stream, one without. -/
def runCommandOpen (env : Env) (cmd : CString) (flags : FlagWord) (first second : Attempt)
    (session : Session) : Opening :=
  let flags := rootFlags env flags session.globalFlags
  if flags.has cmdSudo then
    let trial := runCommandOpenTry env cmd flags first session
    match trial.opened with
    | .null =>
        let session :=
          { trial.session with globalFlags := trial.session.globalFlags.drop cmdSudo }
        let fallback := runCommandOpenTry env cmd (flags.drop cmdSudo) second session
        { fallback with spawns := trial.spawns ++ fallback.spawns }
    | _ => trial
  else runCommandOpenTry env cmd flags second session

/-! ## What an attempt does to the flags -/

theorem runCommandReadChunk_flags (domain program text : CString) (loop : ReadLoop) :
    (runCommandReadChunk domain program text loop).1.session.globalFlags =
      loop.session.globalFlags := by
  simp only [runCommandReadChunk]
  split
  case h_4 =>
    simp only [runCommandPasswordTransact]
    repeat' split
    all_goals rfl
  all_goals rfl

/-- Reading the output of a command sets no flag but `FLAG_EXIT`. -/
theorem runCommandReadLoop_flags (domain program : CString) {mask : FlagWord}
    (notExit : flagExit.has mask = false) (chunks : List Chunk) (loop : ReadLoop) :
    (runCommandReadLoop domain program chunks loop).session.globalFlags.has mask =
      loop.session.globalFlags.has mask := by
  induction chunks generalizing loop with
  | nil => rfl
  | cons chunk rest inductionHypothesis =>
      simp only [runCommandReadLoop]
      have kept : (if strValid (some chunk.text) then
            runCommandReadChunk domain program chunk.text loop
          else (loop, false)).1.session.globalFlags = loop.session.globalFlags := by
        split
        · exact runCommandReadChunk_flags domain program chunk.text loop
        · rfl
      generalize (if strValid (some chunk.text) then
          runCommandReadChunk domain program chunk.text loop
        else (loop, false)) = read at kept ⊢
      have signalled := read.1.session.signalled_flags chunk.interrupted notExit
      rw [kept] at signalled
      split
      · exact signalled
      · rw [inductionHypothesis]
        exact signalled

theorem runCommandOpenTry_flags (env : Env) (cmd : CString) (flags : FlagWord)
    (attempt : Attempt) (session : Session) {mask : FlagWord}
    (notExit : flagExit.has mask = false) :
    (runCommandOpenTry env cmd flags attempt session).session.globalFlags.has mask =
      session.globalFlags.has mask := by
  simp only [runCommandOpenTry]
  repeat' split
  all_goals first
    | rfl
    | exact runCommandReadLoop_flags _ _ notExit attempt.chunks _

/-- The second attempt of `RunCommandOpen`, after `trial` gave no stream. -/
def fallbackOpening (env : Env) (cmd : CString) (flags : FlagWord) (second : Attempt)
    (trial : Opening) : Opening :=
  runCommandOpenTry env cmd (flags.drop cmdSudo) second
    { trial.session with globalFlags := trial.session.globalFlags.drop cmdSudo }

/-- The three courses of `RunCommandOpen`: no sudo asked for, sudo settles it,
or sudo gives no stream. -/
theorem runCommandOpen_cases (env : Env) (cmd : CString) (flags : FlagWord)
    (first second : Attempt) (session : Session) :
    let effective := rootFlags env flags session.globalFlags
    let trial := runCommandOpenTry env cmd effective first session
    let opening := runCommandOpen env cmd flags first second session
    (effective.has cmdSudo = false ∧
        opening = runCommandOpenTry env cmd effective second session) ∨
      (effective.has cmdSudo = true ∧ trial.opened ≠ .null ∧ opening = trial) ∨
      (effective.has cmdSudo = true ∧ trial.opened = .null ∧
        opening.opened = (fallbackOpening env cmd effective second trial).opened ∧
        opening.session = (fallbackOpening env cmd effective second trial).session ∧
        opening.spawns =
          trial.spawns ++ (fallbackOpening env cmd effective second trial).spawns) := by
  intro effective trial opening
  by_cases wanted : effective.has cmdSudo = true
  · rcases course : trial.opened with ⟨wrap, attempt⟩ | _ | _
    · refine Or.inr (Or.inl ⟨wanted, by simp, ?_⟩)
      simp only [opening, runCommandOpen, effective, trial] at wanted course ⊢
      rw [if_pos wanted, course]
    · refine Or.inr (Or.inr ⟨wanted, rfl, ?_⟩)
      simp only [opening, runCommandOpen, effective, trial, fallbackOpening] at wanted course ⊢
      rw [if_pos wanted, course]
      exact ⟨rfl, rfl, rfl⟩
    · refine Or.inr (Or.inl ⟨wanted, by simp, ?_⟩)
      simp only [opening, runCommandOpen, effective, trial] at wanted course ⊢
      rw [if_pos wanted, course]
  · refine Or.inl ⟨by simpa using wanted, ?_⟩
    simp only [opening, runCommandOpen, effective] at wanted ⊢
    rw [if_neg wanted]

end VpnMgr.Command
