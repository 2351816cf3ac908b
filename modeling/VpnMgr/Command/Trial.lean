import VpnMgr.Command.ReadLoop

/-!
# What an attempt comes to

The result of `RunCommandOpenTry`, by the programs that are found, whether the
shell starts and the lines that are read.
-/

namespace VpnMgr.Command

open Machine Text CString LibUseful

/-- What a session means to the prompts of sudo and su. -/
structure Standing where
  /-- a password is kept -/
  kept : Bool
  /-- `FLAG_EXIT` is set -/
  flagged : Bool

def Session.standing (session : Session) : Standing where
  kept := session.keeps "Local".toList "su/sudo".toList
  flagged := session.globalFlags.has flagExit

namespace Attempt

variable (attempt : Attempt) (standing : Standing)

def refuses : Bool := !standing.kept && !strValid (attempt.typed.headD none)

def read : List Chunk := linesRead (attempt.refuses standing) standing.flagged attempt.chunks

def prompts : Bool := (attempt.read standing).any fun chunk => chunk.reaction = .password

/-- The last line that is read says that the user is turned away. -/
def turnedAway : Bool :=
  (attempt.read standing).getLast?.map Chunk.reaction = some .authFail

/-- A password is asked for, the user has none, and no line settles it. -/
def givenUp : Bool :=
  attempt.refuses standing && attempt.prompts standing &&
    (attempt.read standing).getLast?.map Chunk.reaction ≠ some .started

/-- A password that was typed is kept, a signal is not forgotten. -/
def leaves : Standing where
  kept := standing.kept || (attempt.prompts standing && strValid (attempt.typed.headD none))
  flagged := standing.flagged || (attempt.read standing).any Chunk.interrupted

/-- The program and the wrapper are found, and the shell starts. -/
def spawns (env : Env) (cmd : CString) (wrap : Wrap) : Bool :=
  programFound env.getCommandPath cmd && wrapFound env.getCommandPath wrap && attempt.opens

/-- The attempt comes to nothing, and `RunCommandOpen` may try another one. -/
def givesWay (env : Env) (cmd : CString) (wrap : Wrap) : Bool :=
  !attempt.spawns env cmd wrap || (wrap ≠ .bare && attempt.turnedAway standing)

def serves (env : Env) (cmd : CString) (wrap : Wrap) : Bool :=
  attempt.spawns env cmd wrap &&
    (wrap = .bare || !(attempt.turnedAway standing || attempt.givenUp standing))

variable {attempt standing}

theorem not_serves {env : Env} {cmd : CString} {wrap : Wrap}
    (gives : attempt.givesWay standing env cmd wrap = true) :
    attempt.serves standing env cmd wrap = false := by
  unfold givesWay at gives
  unfold serves
  cases spawned : attempt.spawns env cmd wrap with
  | false => rfl
  | true =>
      rw [spawned, Bool.not_true, Bool.false_or, Bool.and_eq_true, decide_eq_true_iff] at gives
      simp [gives.1, gives.2]

end Attempt

section Verdict

variable {refused : Bool} {read : List Chunk}

theorem verdict_authFail_iff : verdict refused .begin read = .authFail ↔
    read.getLast?.map Chunk.reaction = some .authFail := by
  unfold verdict
  generalize read.getLast?.map Chunk.reaction = last
  generalize (read.any fun chunk => chunk.reaction = .password) = asked
  rcases last with _ | reaction
  · cases asked <;> cases refused <;> simp
  · cases reaction <;> cases asked <;> cases refused <;> simp

theorem verdict_abort_iff (notTurnedAway : read.getLast?.map Chunk.reaction ≠ some .authFail) :
    verdict refused .begin read = .abort ↔
      (refused && read.any (fun chunk => chunk.reaction = .password) &&
        read.getLast?.map Chunk.reaction ≠ some .started) = true := by
  unfold verdict
  generalize read.getLast?.map Chunk.reaction = last at notTurnedAway ⊢
  generalize (read.any fun chunk => chunk.reaction = .password) = asked
  rcases last with _ | reaction
  · cases asked <;> cases refused <;> simp
  · cases reaction <;> cases asked <;> cases refused <;> simp_all

end Verdict

section Loop

variable {domain program : CString} {loop : ReadLoop}

theorem Session.keeps_signalled (session : Session) (interrupted : Bool) :
    (session.signalled interrupted).keeps domain program = session.keeps domain program := by
  cases interrupted <;> rfl

structure LineTyped (domain program : CString) (chunk : Chunk) (loop after : ReadLoop) : Prop where
  kept : after.session.keeps domain program = (loop.session.keeps domain program ||
    (decide (chunk.reaction = .password) && strValid (loop.typed.headD none)))
  typed : chunk.stops (loop.refuses domain program) = false →
    after.session.keeps domain program = false → after.typed = loop.typed

theorem lineTyped_password {chunk : Chunk} (asks : chunk.reaction = .password) :
    LineTyped domain program chunk loop (runCommandPasswordTransact domain program loop) := by
  rcases runCommandPasswordTransact_cases domain program loop with
    ⟨_, cached, course⟩ | ⟨_, _, given, kept, course⟩ | ⟨_, refused, course⟩
  · rw [course]
    exact ⟨by simp [cached], fun _ _ => rfl⟩
  · rw [course]
    refine ⟨by rw [kept, given, decide_eq_true asks, Bool.and_self, Bool.or_true],
      fun _ forgotten => ?_⟩
    rw [kept] at forgotten
    cases forgotten
  · have stops : chunk.stops (loop.refuses domain program) = true := by rw [Chunk.stops, asks, refused]
    obtain ⟨-, untyped⟩ := Bool.and_eq_true_iff.mp refused
    rw [course]
    refine ⟨by rw [(Bool.not_eq_true' _).mp untyped, Bool.and_false, Bool.or_false],
      fun goesOn _ => ?_⟩
    rw [stops] at goesOn
    cases goesOn

theorem lineTyped (domain program : CString) (chunk : Chunk) (loop : ReadLoop) :
    LineTyped domain program chunk loop (if strValid (some chunk.text) then
      runCommandReadChunk domain program chunk.text loop else (loop, false)).1 := by
  split
  case isFalse empty =>
    have output := Chunk.reaction_of_empty (by simpa using empty)
    exact ⟨by simp [output], fun _ _ => rfl⟩
  case isTrue =>
    have same : reactionTo (stripTrailingWhitespace (stripLeadingWhitespace chunk.text)) =
      chunk.reaction := rfl
    simp only [runCommandReadChunk, same]
    cases reaction : chunk.reaction with
    | password => exact lineTyped_password reaction
    | _ => exact ⟨by simp [reaction], fun _ _ => rfl⟩

/-- The passwords and `FLAG_EXIT` after the loop, by the lines it reads. -/
theorem runCommandReadLoop_leaves (chunks : List Chunk) (reading : Reading loop) :
    let refused := loop.refuses domain program
    let read := linesRead refused (loop.session.globalFlags.has flagExit) chunks
    let after := (runCommandReadLoop domain program chunks loop).session
    after.keeps domain program = (loop.session.keeps domain program ||
        (read.any (fun chunk => chunk.reaction = .password) && strValid (loop.typed.headD none))) ∧
      after.globalFlags.has flagExit =
        (loop.session.globalFlags.has flagExit || read.any Chunk.interrupted) := by
  induction chunks generalizing loop with
  | nil => simp [runCommandReadLoop, linesRead]
  | cons chunk rest inductionHypothesis =>
      have done := lineRead domain program chunk reading
      have typed := lineTyped domain program chunk loop
      simp only [runCommandReadLoop]
      generalize (if strValid (some chunk.text) then
        runCommandReadChunk domain program chunk.text loop else (loop, false)) = read at done typed ⊢
      rw [linesRead, stays_flagged, done.flags, ← done.breaks, Bool.or_assoc]
      split
      case isTrue =>
        dsimp only
        rw [Session.keeps_signalled, stays_flagged, typed.kept, done.flags]
        simp
      case isFalse goesOn =>
        simp only [Bool.or_eq_true, not_or, Bool.not_eq_true] at goesOn
        obtain ⟨unbroken, unflagged, uninterrupted⟩ := goesOn
        obtain ⟨kept, flagged⟩ := @inductionHypothesis
          { read.1 with session := read.1.session.signalled chunk.interrupted }
          (done.reading unbroken)
        rw [uninterrupted] at kept flagged ⊢
        change _ = (Session.keeps domain program read.1.session || ((linesRead
          (read.1.refuses domain program) (read.1.session.globalFlags.has flagExit) rest).any _ &&
            strValid (read.1.typed.headD none))) at kept
        change _ = (read.1.session.globalFlags.has flagExit || (linesRead
          (read.1.refuses domain program) (read.1.session.globalFlags.has flagExit) rest).any _)
            at flagged
        rw [done.refuses unbroken, done.flags] at kept flagged
        refine ⟨kept.trans ?_, flagged.trans (by simp [uninterrupted])⟩
        have stays := typed.typed (done.breaks ▸ unbroken)
        rw [List.any_cons]
        cases keeps : Session.keeps domain program read.1.session with
        | true =>
            rw [typed.kept] at keeps
            revert keeps
            cases Session.keeps domain program loop.session <;>
              cases decide (chunk.reaction = .password) <;> simp_all
        | false =>
            rw [stays keeps]
            rw [typed.kept] at keeps
            revert keeps
            cases Session.keeps domain program loop.session <;>
              cases decide (chunk.reaction = .password) <;> simp_all

end Loop

variable (env : Env) (cmd : CString) (flags : FlagWord) (attempt : Attempt) (session : Session)

theorem runCommandReadLoop_trial :
    let result := (runCommandReadLoop "Local".toList "su/sudo".toList attempt.chunks
      (.start session attempt.typed)).result
    (result = .authFail ↔ attempt.turnedAway session.standing = true) ∧
      (attempt.turnedAway session.standing = false →
        (result = .abort ↔ attempt.givenUp session.standing = true)) := by
  intro result
  have same : result =
      verdict (attempt.refuses session.standing) .begin (attempt.read session.standing) :=
    runCommandReadLoop_result "Local".toList "su/sudo".toList attempt.chunks (.inl rfl)
  rw [same, verdict_authFail_iff]
  refine ⟨by simp [Attempt.turnedAway], fun stays => verdict_abort_iff ?_⟩
  simpa [Attempt.turnedAway] using stays

/-- `RunCommandOpenTry`, by what is found and what is read. -/
theorem runCommandOpenTry_opened :
    (runCommandOpenTry env cmd flags attempt session).opened =
      if attempt.givesWay session.standing env cmd (wrapOf (tryFlags env flags)) then .null
      else if attempt.serves session.standing env cmd (wrapOf (tryFlags env flags)) then
        .stream (wrapOf (tryFlags env flags)) attempt
      else .exited := by
  obtain ⟨turnedAway, givenUp⟩ := runCommandReadLoop_trial attempt session
  unfold runCommandOpenTry Attempt.givesWay Attempt.serves Attempt.spawns ReadLoop.start at *
  dsimp only at *
  rw [strValid_runCmdSetup]
  generalize (programFound env.getCommandPath cmd && wrapFound env.getCommandPath _) = found
  cases found with
  | false => simp
  | true =>
      cases attempt.opens with
      | false => simp
      | true =>
          by_cases bare : wrapOf (tryFlags env flags) = .bare
          · simp [has_wrapper_iff, bare]
          · generalize runCommandReadLoop _ _ _ _ = loop at *
            cases isTurned : attempt.turnedAway session.standing <;>
              cases isGiven : attempt.givenUp session.standing <;> simp_all [has_wrapper_iff]

theorem runCommandOpenTry_spawned :
    (runCommandOpenTry env cmd flags attempt session).spawns =
      if attempt.spawns env cmd (wrapOf (tryFlags env flags)) then [wrapOf (tryFlags env flags)]
      else [] := by
  unfold runCommandOpenTry Attempt.spawns
  dsimp only
  rw [strValid_runCmdSetup]
  generalize (programFound env.getCommandPath cmd && wrapFound env.getCommandPath _) = found
  generalize runCommandReadLoop _ _ _ _ = loop
  cases found with
  | false => rfl
  | true =>
      cases attempt.opens with
      | false => rfl
      | true =>
          simp only [Bool.not_true, Bool.and_self, Bool.false_eq_true, if_false, if_true]
          split <;> rfl

theorem runCommandOpenTry_null_iff :
    (runCommandOpenTry env cmd flags attempt session).opened = .null ↔
      attempt.givesWay session.standing env cmd (wrapOf (tryFlags env flags)) = true := by
  rw [runCommandOpenTry_opened]
  split
  case isTrue gives => simp [gives]
  case isFalse stays => split <;> simp [stays]

theorem runCommandOpenTry_stream_iff {wrap : Wrap} {served : Attempt} :
    (runCommandOpenTry env cmd flags attempt session).opened = .stream wrap served ↔
      attempt.serves session.standing env cmd (wrapOf (tryFlags env flags)) = true ∧
        wrap = wrapOf (tryFlags env flags) ∧ served = attempt := by
  rw [runCommandOpenTry_opened]
  split
  case isTrue gives => simp [Attempt.not_serves gives]
  case isFalse =>
    split
    case isTrue serves => simp [serves, eq_comm]
    case isFalse stays => simp [stays]

/-- What an attempt leaves of the passwords and of `FLAG_EXIT`. -/
theorem runCommandOpenTry_standing :
    (runCommandOpenTry env cmd flags attempt session).session.standing =
      if attempt.spawns env cmd (wrapOf (tryFlags env flags)) && wrapOf (tryFlags env flags) ≠ .bare
      then attempt.leaves session.standing
      else session.standing := by
  obtain ⟨kept, flagged⟩ := @runCommandReadLoop_leaves "Local".toList "su/sudo".toList
    (.start session attempt.typed) attempt.chunks (.inl rfl)
  have wrapped := has_wrapper_iff (tryFlags env flags)
  unfold runCommandOpenTry Attempt.spawns
  dsimp only
  rw [strValid_runCmdSetup]
  generalize (programFound env.getCommandPath cmd && wrapFound env.getCommandPath _) = found
  cases found with
  | false => rfl
  | true =>
      cases attempt.opens with
      | false => rfl
      | true =>
          by_cases bare : wrapOf (tryFlags env flags) = .bare
          · simp [wrapped, bare]
          · have notBare : decide (wrapOf (tryFlags env flags) ≠ .bare) = true := decide_eq_true bare
            rw [notBare, wrapped.mpr bare]
            exact congrArg₂ Standing.mk kept flagged

section Forms

variable (env : Env) (flags : FlagWord) (session : Session)

def effectiveFlags : FlagWord := rootFlags env flags session.globalFlags

def sudoForm : Wrap := wrapOf (tryFlags env (effectiveFlags env flags session))

def fallbackForm : Wrap :=
  wrapOf (tryFlags env ((effectiveFlags env flags session).drop cmdSudo))

variable {env flags session}

theorem fallbackForm_of_unwanted
    (unwanted : (effectiveFlags env flags session).has cmdSudo = false) :
    fallbackForm env flags session = sudoForm env flags session := by
  rw [fallbackForm, FlagWord.drop_of_not_has unwanted, sudoForm]

/-- What `RunCommandOpen` spawns, attempt by attempt. -/
theorem mem_spawns_iff {cmd : CString} {first second : Attempt} {wrap : Wrap} :
    wrap ∈ (runCommandOpen env cmd flags first second session).spawns ↔
      ((effectiveFlags env flags session).has cmdSudo = true ∧
        first.spawns env cmd (sudoForm env flags session) = true ∧
        wrap = sudoForm env flags session) ∨
      (((effectiveFlags env flags session).has cmdSudo = true →
          first.givesWay session.standing env cmd (sudoForm env flags session) = true) ∧
        second.spawns env cmd (fallbackForm env flags session) = true ∧
        wrap = fallbackForm env flags session) := by
  have single := fun (attempt : Attempt) (form : Wrap) => show
      wrap ∈ (if attempt.spawns env cmd form then [form] else []) ↔
        attempt.spawns env cmd form = true ∧ wrap = form by split <;> simp_all
  rcases runCommandOpen_cases env cmd flags first second session with
    ⟨unwanted, course⟩ | ⟨wanted, settled, course⟩ | ⟨wanted, failed, -, -, spawned⟩
  · have unasked : (effectiveFlags env flags session).has cmdSudo = false := unwanted
    rw [course, runCommandOpenTry_spawned, single, fallbackForm_of_unwanted unasked,
      unasked]
    simp [sudoForm, effectiveFlags]
  · have asked : (effectiveFlags env flags session).has cmdSudo = true := wanted
    rw [ne_eq, runCommandOpenTry_null_iff] at settled
    rw [course, runCommandOpenTry_spawned, single]
    simp_all [sudoForm, effectiveFlags]
  · rw [runCommandOpenTry_null_iff] at failed
    rw [spawned, List.mem_append, fallbackOpening, runCommandOpenTry_spawned,
      runCommandOpenTry_spawned, single, single]
    simp_all [sudoForm, fallbackForm, effectiveFlags]

end Forms

end VpnMgr.Command
