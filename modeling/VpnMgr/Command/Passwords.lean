import VpnMgr.Command.ReadLoop

/-!
# The password cache

`Passwords` outlives every command.  A run of the program is a list of
dialogues, in each of which it reads the prompts of a local or a remote `su`
or `sudo` and answers them from the cache or from the terminal.
-/

namespace VpnMgr.Command

open Machine Text CString LibUseful

/-- `PasswordDomain`. -/
inductive Domain where
  | localEnd
  | remoteEnd
  deriving DecidableEq

def Domain.name : Domain → CString
  | .localEnd => "Local".toList
  | .remoteEnd => "Remote".toList

/-- `PasswordType`, with the only `PasswordProgram` there is. -/
def Domain.passwordType (domain : Domain) : CString :=
  mCopyStr [some domain.name, some " ".toList, some "su/sudo".toList]

/-- `Passwords`. -/
abbrev Passwords := CString → CPtr

def noPasswords : Passwords := fun _ => none

/-- One run of `RunCommandReadLoop`: the flags it finds, what it reads and what
the user types at its prompts. -/
structure Dialogue where
  domain : Domain
  globalFlags : FlagWord
  chunks : List Chunk
  typed : List CPtr

/-- A dialogue and the passwords it finds. -/
structure Held where
  passwords : Passwords
  dialogue : Dialogue

namespace Held

def domain (held : Held) : Domain := held.dialogue.domain

def session (held : Held) : Session := ⟨held.dialogue.globalFlags, held.passwords⟩

def loop (held : Held) : ReadLoop :=
  runCommandReadLoop held.domain.name "su/sudo".toList held.dialogue.chunks
    (.start held.session held.dialogue.typed)

/-- `RunCommandOpenTry` exits when the user gives no password. -/
def exits (held : Held) : Bool :=
  held.domain = .localEnd && held.loop.result = .abort

end Held

/-- The dialogues that take place. -/
def held : Passwords → List Dialogue → List Held
  | _, [] => []
  | passwords, dialogue :: rest =>
      let first : Held := ⟨passwords, dialogue⟩
      first :: if first.exits then [] else held first.loop.session.passwords rest

/-! ## What passes between user, program and stream -/

inductive PasswordEvent where
  /-- the user types this at a prompt -/
  | typed (password : CString)
  /-- this is written to the stream -/
  | sent (password : CString)
  deriving DecidableEq

def PasswordEvent.written : PasswordEvent → List CString
  | .typed _ => []
  | .sent password => [password, ['\n']]

def kept (domain : Domain) (passwords : Passwords) : CString :=
  copyStr (passwords domain.passwordType)

/-- `SetVar` of the password for a domain. -/
def setPassword (domain : Domain) (password : CPtr) (passwords : Passwords) : Passwords :=
  fun name => if sameNoCase name domain.passwordType then password else passwords name

theorem passwordType_eq {domain other : Domain}
    (same : sameNoCase other.passwordType domain.passwordType = true) : other = domain := by
  revert same
  cases domain <;> cases other <;> decide

theorem setPassword_passwordType (domain other : Domain) (password : CPtr) (passwords : Passwords) :
    setPassword domain password passwords other.passwordType =
      if other = domain then password else passwords other.passwordType := by
  unfold setPassword
  by_cases same : other = domain
  · rw [if_pos same, same, if_pos (sameNoCase_self _)]
  · rw [if_neg same, if_neg fun equal => same (passwordType_eq equal)]

theorem kept_setPassword (domain other : Domain) (password : CPtr) (passwords : Passwords) :
    kept other (setPassword domain password passwords) =
      if other = domain then copyStr password else kept other passwords := by
  unfold kept
  rw [setPassword_passwordType]
  split <;> rfl

/-- The events of a prompt. -/
def transactEvents (domain : Domain) (loop : ReadLoop) : List PasswordEvent :=
  if strValid (some (kept domain loop.session.passwords)) then
    [.sent (kept domain loop.session.passwords)]
  else [.typed (copyStr (loop.typed.headD none)), .sent (copyStr (loop.typed.headD none))]

/-- The loop after a line, and whether it is left. -/
def readStep (domain : Domain) (chunk : Chunk) (loop : ReadLoop) : ReadLoop × Bool :=
  let read := if strValid (some chunk.text) then
    runCommandReadChunk domain.name "su/sudo".toList chunk.text loop else (loop, false)
  let after := { read.1 with session := read.1.session.signalled chunk.interrupted }
  (after, read.2 || after.session.globalFlags.has flagExit)

def chunkEvents (domain : Domain) (chunk : Chunk) (loop : ReadLoop) : List PasswordEvent :=
  if chunk.reaction = .password then transactEvents domain loop else []

/-- The events of the loop. -/
def readEvents (domain : Domain) : List Chunk → ReadLoop → List PasswordEvent
  | [], _ => []
  | chunk :: rest, loop =>
      chunkEvents domain chunk loop ++
        if (readStep domain chunk loop).2 then []
        else readEvents domain rest (readStep domain chunk loop).1

def Held.events (held : Held) : List PasswordEvent :=
  readEvents held.domain held.dialogue.chunks (.start held.session held.dialogue.typed)

section Events

variable (domain : Domain) (chunk : Chunk) (loop : ReadLoop)

theorem runCommandReadLoop_cons (rest : List Chunk) :
    runCommandReadLoop domain.name "su/sudo".toList (chunk :: rest) loop =
      if (readStep domain chunk loop).2 then (readStep domain chunk loop).1
      else runCommandReadLoop domain.name "su/sudo".toList rest (readStep domain chunk loop).1 :=
  rfl

inductive Transacts : ReadLoop → List PasswordEvent → Prop
  | replays (valid : strValid (some (kept domain loop.session.passwords)) = true) :
      Transacts { loop with
          sent := loop.sent ++ [kept domain loop.session.passwords, ['\n']]
          result := .okay }
        [.sent (kept domain loop.session.passwords)]
  | asks {password : CPtr} (missing : strValid (some (kept domain loop.session.passwords)) = false)
      (isTyped : loop.typed.headD none = password) (valid : strValid password = true) :
      Transacts
        { session := { loop.session with
            passwords := setPassword domain password loop.session.passwords }
          typed := loop.typed.tail
          sent := loop.sent ++ [copyStr password, ['\n']]
          result := .okay }
        [.typed (copyStr password), .sent (copyStr password)]
  | aborts (missing : strValid (some (kept domain loop.session.passwords)) = false)
      (empty : strValid (loop.typed.headD none) = false) :
      Transacts { loop with
          typed := loop.typed.tail
          sent := loop.sent ++ [copyStr (loop.typed.headD none), ['\n']]
          result := .abort }
        [.typed (copyStr (loop.typed.headD none)), .sent (copyStr (loop.typed.headD none))]

theorem transacts : Transacts domain loop
    (runCommandPasswordTransact domain.name "su/sudo".toList loop) (transactEvents domain loop) := by
  by_cases valid : strValid (some (kept domain loop.session.passwords)) = true
  · rw [transactEvents, if_pos valid, runCommandPasswordTransact]
    exact (if_pos valid) ▸ .replays valid
  · have missing := Bool.eq_false_iff.mpr valid
    rw [transactEvents, if_neg valid, runCommandPasswordTransact]
    by_cases given : strValid (loop.typed.headD none) = true
    · exact ((if_neg valid).trans (if_pos given)) ▸ .asks missing rfl given
    · exact ((if_neg valid).trans (if_neg given)) ▸ .aborts missing (Bool.eq_false_iff.mpr given)

theorem transacts_written {after : ReadLoop} {new : List PasswordEvent}
    (done : Transacts domain loop after new) :
    after.sent = loop.sent ++ new.flatMap PasswordEvent.written := by
  cases done <;> rfl

def ReadLoop.marked (loop : ReadLoop) (globalFlags : FlagWord) (result : RunCmd) : ReadLoop :=
  { loop with session := ⟨globalFlags, loop.session.passwords⟩, result := result }

theorem signalled_marked (interrupted : Bool) :
    ∃ flags, { loop with session := loop.session.signalled interrupted } =
      loop.marked flags loop.result := by
  cases interrupted with
  | true => exact ⟨loop.session.globalFlags.raise flagExit, rfl⟩
  | false => exact ⟨loop.session.globalFlags, rfl⟩

/-- A line is a prompt, or changes the result alone. -/
theorem readChunk_cases :
    let read := if strValid (some chunk.text) then
      runCommandReadChunk domain.name "su/sudo".toList chunk.text loop else (loop, false)
    (chunk.reaction = .password ∧
        read.1 = runCommandPasswordTransact domain.name "su/sudo".toList loop) ∨
      (chunk.reaction ≠ .password ∧ ∃ result, read.1 = { loop with result := result }) := by
  have same : reactionTo (stripTrailingWhitespace (stripLeadingWhitespace chunk.text)) =
    chunk.reaction := rfl
  split
  case isTrue =>
    simp only [runCommandReadChunk, same]
    cases chunk.reaction with
    | password => exact .inl ⟨rfl, rfl⟩
    | authFail => exact .inr ⟨by simp, _, rfl⟩
    | started => exact .inr ⟨by simp, _, rfl⟩
    | finished => exact .inr ⟨by simp, _, rfl⟩
    | output => exact .inr ⟨by simp, _, rfl⟩
  case isFalse empty =>
    rw [Chunk.reaction_of_empty (Bool.eq_false_iff.mpr empty)]
    exact .inr ⟨by simp, _, rfl⟩

theorem readStep_cases :
    (∃ flags result, (readStep domain chunk loop).1 =
        (runCommandPasswordTransact domain.name "su/sudo".toList loop).marked flags result ∧
      chunkEvents domain chunk loop = transactEvents domain loop) ∨
    ∃ flags result, (readStep domain chunk loop).1 = loop.marked flags result ∧
      chunkEvents domain chunk loop = [] := by
  have courses := readChunk_cases domain chunk loop
  unfold readStep chunkEvents
  dsimp only at courses ⊢
  rcases courses with ⟨prompt, same⟩ | ⟨other, result, same⟩
  · rw [same, if_pos prompt]
    obtain ⟨flags, marked⟩ := signalled_marked
      (runCommandPasswordTransact domain.name "su/sudo".toList loop) chunk.interrupted
    exact .inl ⟨flags, _, marked, rfl⟩
  · rw [same, if_neg other]
    obtain ⟨flags, marked⟩ := signalled_marked { loop with result := result } chunk.interrupted
    exact .inr ⟨flags, result, marked, rfl⟩

end Events

/-- What every prompt preserves, whatever else becomes of the flags and the
result, holds at the end of the loop. -/
theorem readLoop_induction {domain : Domain} {property : ReadLoop → List PasswordEvent → Prop}
    (prompt : ∀ loop events after new, property loop events → Transacts domain loop after new →
      property after (events ++ new))
    (frame : ∀ loop events flags result, property loop events →
      property (loop.marked flags result) events)
    (chunks : List Chunk) {loop : ReadLoop} {events : List PasswordEvent}
    (start : property loop events) :
    property (runCommandReadLoop domain.name "su/sudo".toList chunks loop)
      (events ++ readEvents domain chunks loop) := by
  induction chunks generalizing loop events with
  | nil =>
      rw [readEvents, List.append_nil]
      exact start
  | cons chunk rest inductionHypothesis =>
      have step : property (readStep domain chunk loop).1
          (events ++ chunkEvents domain chunk loop) := by
        rcases readStep_cases domain chunk loop with ⟨_, _, same, new⟩ | ⟨_, _, same, new⟩
        · rw [same, new]
          exact frame _ _ _ _ (prompt _ _ _ _ start (transacts domain loop))
        · rw [same, new, List.append_nil]
          exact frame _ _ _ _ start
      rw [runCommandReadLoop_cons, readEvents, ← List.append_assoc]
      split
      case isTrue =>
        rw [List.append_nil]
        exact step
      case isFalse => exact inductionHypothesis step

theorem Held.sent (held : Held) : held.loop.sent = held.events.flatMap PasswordEvent.written := by
  refine @readLoop_induction held.domain
    (fun loop events => loop.sent = events.flatMap PasswordEvent.written) ?_ ?_ held.dialogue.chunks
    (.start held.session held.dialogue.typed) [] rfl
  · intro loop events after new written done
    rw [transacts_written _ _ done, written, List.flatMap_append]
  · exact fun _ _ _ _ written => written

theorem Held.other (held : Held) {domain : Domain} (other : held.domain ≠ domain) :
    held.loop.session.passwords domain.passwordType = held.passwords domain.passwordType := by
  refine @readLoop_induction held.domain (fun loop _ =>
    loop.session.passwords domain.passwordType = held.passwords domain.passwordType) ?_ ?_
    held.dialogue.chunks (.start held.session held.dialogue.typed) [] rfl
  · intro loop _ after _ same done
    cases done with
    | replays => exact same
    | asks => exact (setPassword_passwordType ..).trans ((if_neg (Ne.symm other)).trans same)
    | aborts => exact same
  · exact fun _ _ _ _ same => same

end VpnMgr.Command
