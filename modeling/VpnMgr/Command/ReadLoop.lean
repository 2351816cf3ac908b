import VpnMgr.Command.Open

/-!
# What a transcript is taken for

The result of `RunCommandReadLoop`, by the lines it reads.
-/

namespace VpnMgr.Command

open Machine Text CString LibUseful

def Chunk.reaction (chunk : Chunk) : Reaction :=
  reactionTo (stripTrailingWhitespace (stripLeadingWhitespace chunk.text))

def Session.keeps (domain program : CString) (session : Session) : Bool :=
  strValid (some (copyStr (session.passwords (mCopyStr [some domain, some " ".toList, some program]))))

/-- There is no password to answer a prompt with: none is kept, and the user types none. -/
def ReadLoop.refuses (domain program : CString) (loop : ReadLoop) : Bool :=
  !loop.session.keeps domain program && !strValid (loop.typed.headD none)

/-- The line ends the reading. -/
def Chunk.stops (refused : Bool) (chunk : Chunk) : Bool :=
  match chunk.reaction with
  | .authFail | .started | .finished => true
  | .password => refused
  | .output => false

/-- The lines that are read, `flagged` if `FLAG_EXIT` is already set. -/
def linesRead (refused flagged : Bool) : List Chunk → List Chunk
  | [] => []
  | chunk :: rest =>
      if chunk.stops refused || flagged || chunk.interrupted then [chunk]
      else chunk :: linesRead refused flagged rest

def verdict (refused : Bool) (before : RunCmd) (read : List Chunk) : RunCmd :=
  match read.getLast?.map Chunk.reaction with
  | some .started => .okay
  | some .authFail => .authFail
  | _ =>
      if read.any fun chunk => chunk.reaction = .password then
        if refused then .abort else .okay
      else before

theorem verdict_started {refused : Bool} {before : RunCmd} {read : List Chunk}
    (last : read.getLast?.map Chunk.reaction = some .started) :
    verdict refused before read = .okay := by
  rw [verdict, last]

theorem Chunk.reaction_of_empty {chunk : Chunk} (empty : strValid (some chunk.text) = false) :
    chunk.reaction = .output := by
  rw [Chunk.reaction]
  rcases text : chunk.text with _ | ⟨head, rest⟩
  · rfl
  · rw [text] at empty
    cases empty

def Reading (loop : ReadLoop) : Prop := loop.result = .begin ∨ loop.result = .okay

structure LineRead (domain program : CString) (chunk : Chunk) (loop : ReadLoop)
    (read : ReadLoop × Bool) : Prop where
  breaks : read.2 = chunk.stops (loop.refuses domain program)
  result : read.1.result = verdict (loop.refuses domain program) loop.result [chunk]
  flags : read.1.session.globalFlags = loop.session.globalFlags
  reading : read.2 = false → Reading read.1
  refuses : read.2 = false → read.1.refuses domain program = loop.refuses domain program

theorem strValid_copyStr {text : CPtr} (valid : strValid text = true) :
    strValid (some (copyStr text)) = true := by
  cases text with
  | none => cases valid
  | some text => exact valid

section Transact

variable (domain program : CString) (loop : ReadLoop)

/-- The three courses of a prompt. -/
theorem runCommandPasswordTransact_cases :
    (∃ sent, loop.session.keeps domain program = true ∧
      runCommandPasswordTransact domain program loop = { loop with sent := sent, result := .okay }) ∨
    (∃ passwords sent, strValid (loop.typed.headD none) = true ∧
      Session.keeps domain program { loop.session with passwords } = true ∧
      runCommandPasswordTransact domain program loop =
        { session := { loop.session with passwords }, typed := loop.typed.tail, sent := sent
          result := .okay }) ∨
    ∃ sent, loop.refuses domain program = true ∧
      runCommandPasswordTransact domain program loop =
        { loop with typed := loop.typed.tail, sent := sent, result := .abort } := by
  by_cases cached : loop.session.keeps domain program = true
  · exact .inl ⟨_, cached, if_pos cached⟩
  · by_cases given : strValid (loop.typed.headD none) = true
    · refine .inr (.inl ⟨_, _, given, ?_, (if_neg cached).trans (if_pos given)⟩)
      dsimp only [Session.keeps]
      rw [if_pos (sameNoCase_self _)]
      exact strValid_copyStr given
    · refine .inr (.inr ⟨_, ?_, (if_neg cached).trans (if_neg given)⟩)
      rw [ReadLoop.refuses, Bool.eq_false_iff.mpr cached, Bool.eq_false_iff.mpr given]
      rfl

theorem runCommandPasswordTransact_result :
    (runCommandPasswordTransact domain program loop).result =
      if loop.refuses domain program then .abort else .okay := by
  rcases runCommandPasswordTransact_cases domain program loop with
    ⟨_, cached, course⟩ | ⟨_, _, given, -, course⟩ | ⟨_, refused, course⟩
  · rw [course, ReadLoop.refuses, cached]
    rfl
  · rw [course, ReadLoop.refuses, given, Bool.not_true, Bool.and_false]
    rfl
  · rw [course, refused]
    rfl

theorem runCommandPasswordTransact_refuses (answered : loop.refuses domain program = false) :
    (runCommandPasswordTransact domain program loop).refuses domain program = false := by
  rcases runCommandPasswordTransact_cases domain program loop with
    ⟨_, cached, course⟩ | ⟨_, _, -, kept, course⟩ | ⟨_, refused, -⟩
  · rw [course, ReadLoop.refuses, cached]
    rfl
  · rw [course, ReadLoop.refuses, kept]
    rfl
  · rw [refused] at answered
    cases answered

theorem runCommandPasswordTransact_flags :
    (runCommandPasswordTransact domain program loop).session.globalFlags =
      loop.session.globalFlags := by
  rcases runCommandPasswordTransact_cases domain program loop with
    ⟨_, -, course⟩ | ⟨_, _, -, -, course⟩ | ⟨_, -, course⟩
  all_goals rw [course]

end Transact

section Loop

variable {domain program : CString} {chunk : Chunk} {loop : ReadLoop}

theorem lineRead_output (reading : Reading loop) (output : chunk.reaction = .output) :
    LineRead domain program chunk loop (loop, false) where
  breaks := by rw [Chunk.stops, output]
  result := by simp [verdict, output]
  flags := rfl
  reading _ := reading
  refuses _ := rfl

theorem lineRead_chunk (reading : Reading loop) :
    LineRead domain program chunk loop
      (runCommandReadChunk domain program chunk.text loop) := by
  have same : reactionTo (stripTrailingWhitespace (stripLeadingWhitespace chunk.text)) =
    chunk.reaction := rfl
  simp only [runCommandReadChunk, same]
  cases reaction : chunk.reaction with
  | authFail => constructor <;> simp [Chunk.stops, verdict, reaction]
  | started => constructor <;> simp [Chunk.stops, verdict, reaction]
  | finished => constructor <;> simp [Chunk.stops, verdict, reaction]
  | output =>
      have goesOn : (decide (loop.result ≠ .begin) && decide (loop.result ≠ .okay)) = false := by
        rcases reading with isBegin | isOkay
        · simp [isBegin]
        · simp [isOkay]
      rw [goesOn]
      exact lineRead_output reading reaction
  | password =>
      have result := runCommandPasswordTransact_result domain program loop
      have flags := runCommandPasswordTransact_flags domain program loop
      cases refused : loop.refuses domain program with
      | true =>
          rw [refused] at result
          constructor <;> simp [Chunk.stops, verdict, reaction, refused, result, flags]
      | false =>
          have answered := runCommandPasswordTransact_refuses domain program loop refused
          rw [refused] at result
          constructor <;>
            simp [Chunk.stops, verdict, reaction, refused, result, flags, answered, Reading]

theorem lineRead (domain program : CString) (chunk : Chunk) (reading : Reading loop) :
    LineRead domain program chunk loop (if strValid (some chunk.text) then
      runCommandReadChunk domain program chunk.text loop else (loop, false)) := by
  split
  case isTrue => exact lineRead_chunk reading
  case isFalse empty => exact lineRead_output reading (Chunk.reaction_of_empty (by simpa using empty))

theorem Chunk.goesOn_cases {refused : Bool} (goesOn : chunk.stops refused = false) :
    (chunk.reaction = .password ∧ refused = false) ∨ chunk.reaction = .output := by
  unfold Chunk.stops at goesOn
  cases reaction : chunk.reaction <;> simp_all

theorem verdict_cons {refused : Bool} (before : RunCmd) (goesOn : chunk.stops refused = false)
    (read : List Chunk) :
    verdict refused (verdict refused before [chunk]) read = verdict refused before (chunk :: read) := by
  rcases List.eq_nil_or_concat read with rfl | ⟨front, last, rfl⟩
  · rfl
  · have lastSame : (chunk :: front.concat last).getLast? = (front.concat last).getLast? := by
      rw [List.concat_eq_append, ← List.cons_append, List.getLast?_concat, List.getLast?_concat]
    generalize front.concat last = read at lastSame ⊢
    unfold verdict
    rw [lastSame, List.any_cons]
    rcases chunk.goesOn_cases goesOn with ⟨password, rfl⟩ | output
    · simp [password]
    · simp [output]

theorem stays_flagged (session : Session) (interrupted : Bool) :
    (session.signalled interrupted).globalFlags.has flagExit =
      (session.globalFlags.has flagExit || interrupted) := by
  cases interrupted with
  | false => exact (Bool.or_false _).symm
  | true =>
      have self : flagExit.has flagExit = true := by decide
      simp [Session.signalled, self]

/-- The result of the loop is the verdict on the lines it reads. -/
theorem runCommandReadLoop_result (domain program : CString) (chunks : List Chunk)
    (reading : Reading loop) :
    (runCommandReadLoop domain program chunks loop).result =
      verdict (loop.refuses domain program) loop.result
        (linesRead (loop.refuses domain program) (loop.session.globalFlags.has flagExit) chunks) := by
  induction chunks generalizing loop with
  | nil => rfl
  | cons chunk rest inductionHypothesis =>
      have done := lineRead domain program chunk reading
      simp only [runCommandReadLoop]
      generalize (if strValid (some chunk.text) then
        runCommandReadChunk domain program chunk.text loop else (loop, false)) = read at done ⊢
      rw [linesRead, stays_flagged, done.flags, ← done.breaks, Bool.or_assoc]
      split
      case isTrue => exact done.result
      case isFalse goesOn =>
        simp only [Bool.or_eq_true, not_or, Bool.not_eq_true] at goesOn
        obtain ⟨unbroken, unflagged, uninterrupted⟩ := goesOn
        have later := @inductionHypothesis
          { read.1 with session := read.1.session.signalled chunk.interrupted }
          (done.reading unbroken)
        rw [uninterrupted] at later ⊢
        refine later.trans ?_
        change verdict (read.1.refuses domain program) read.1.result
          (linesRead (read.1.refuses domain program)
            (read.1.session.globalFlags.has flagExit) rest) = _
        rw [done.refuses unbroken, done.result, done.flags, verdict_cons _ (done.breaks ▸ unbroken)]

end Loop

/-! ## Reported as started -/

def StartReported (read : List Chunk) : Prop := ∃ chunk ∈ read, chunk.reaction = .started

/-- Where a password is asked for, the user refuses it, or the lines end with
the announcement or a failed authentication. -/
def PromptsSettled (refused : Bool) (read : List Chunk) : Prop :=
  (∃ chunk ∈ read, chunk.reaction = .password) →
    refused = true ∨ ∃ last ∈ read.getLast?, last.reaction = .started ∨ last.reaction = .authFail

theorem linesRead_last {refused flagged : Bool} {chunks : List Chunk} {chunk : Chunk}
    (member : chunk ∈ linesRead refused flagged chunks) (stops : chunk.stops refused = true) :
    (linesRead refused flagged chunks).getLast? = some chunk := by
  induction chunks with
  | nil => cases member
  | cons first rest inductionHypothesis =>
      unfold linesRead at member ⊢
      split at member
      case isTrue ends =>
        rw [if_pos ends, List.mem_singleton.mp member]
        rfl
      case isFalse goesOn =>
        rw [if_neg goesOn]
        rcases List.mem_cons.mp member with rfl | later
        · simp [stops] at goesOn
        · rw [List.getLast?_cons, inductionHypothesis later]
          rfl

section Verdict

variable {refused : Bool} {read : List Chunk}

theorem startReported_iff (ends : ∀ chunk ∈ read, chunk.stops refused = true →
    read.getLast? = some chunk) :
    StartReported read ↔ read.getLast?.map Chunk.reaction = some .started := by
  constructor
  · rintro ⟨chunk, member, started⟩
    rw [ends chunk member (by rw [Chunk.stops, started]), Option.map_some, started]
  · intro last
    obtain ⟨chunk, isLast, started⟩ := Option.map_eq_some_iff.mp last
    exact ⟨chunk, List.mem_of_getLast? isLast, started⟩

theorem verdict_okay_iff (ends : ∀ chunk ∈ read, chunk.stops refused = true →
    read.getLast? = some chunk) :
    (verdict refused .begin read = .okay ↔ StartReported read) ↔ PromptsSettled refused read := by
  have prompts : (∃ chunk ∈ read, chunk.reaction = .password) ↔
      (read.any fun chunk => chunk.reaction = .password) = true := by simp
  rw [startReported_iff ends, PromptsSettled, prompts, verdict]
  rcases isLast : read.getLast? with _ | last
  · simp [List.getLast?_eq_none_iff.mp isLast]
  · cases reaction : last.reaction <;>
      cases read.any (fun chunk => chunk.reaction = .password) <;> cases refused <;> simp [reaction]

end Verdict

def ReadLoop.start (session : Session) (typed : List CPtr) : ReadLoop :=
  { session, typed, sent := [], result := .begin }

/-- The lines that `RunCommandReadLoop` reads of an output. -/
def linesOf (domain program : CString) (session : Session) (typed : List CPtr)
    (chunks : List Chunk) : List Chunk :=
  linesRead ((ReadLoop.start session typed).refuses domain program)
    (session.globalFlags.has flagExit) chunks

/-- `RUN_CMD_OKAY` means that the command was announced exactly when no prompt
is answered in vain. -/
theorem runCommandReadLoop_okay_iff (domain program : CString) (session : Session)
    (typed : List CPtr) (chunks : List Chunk) :
    ((runCommandReadLoop domain program chunks (.start session typed)).result = .okay ↔
        StartReported (linesOf domain program session typed chunks)) ↔
      PromptsSettled ((ReadLoop.start session typed).refuses domain program)
        (linesOf domain program session typed chunks) := by
  rw [runCommandReadLoop_result domain program chunks (.inl rfl)]
  exact verdict_okay_iff fun chunk => linesRead_last

/-- A user that sudo asks for a password and then turns away. -/
def turnedAway : List Chunk :=
  [{ text := "[sudo] password for bob:".toList }, { text := " \r".toList },
    { text := "bob is not in the sudoers file.\r".toList }, { text := "vpn-mgr-sudo-done\r".toList }]

/-- The command is reported as started and never was. -/
theorem turnedAway_okay :
    (runCommandReadLoop "Local".toList "su/sudo".toList turnedAway
        (.start ⟨flagLocalSudo, fun _ => none⟩ [some "secret".toList])).result = .okay ∧
      ¬ StartReported (linesOf "Local".toList "su/sudo".toList ⟨flagLocalSudo, fun _ => none⟩
        [some "secret".toList] turnedAway) := by
  have read : (linesOf "Local".toList "su/sudo".toList ⟨flagLocalSudo, fun _ => none⟩
      [some "secret".toList] turnedAway).all (fun chunk => chunk.reaction ≠ .started) = true := by
    decide
  refine ⟨by decide, fun reported => ?_⟩
  obtain ⟨chunk, member, started⟩ := reported
  exact of_decide_eq_true (List.all_eq_true.mp read chunk member) started

end VpnMgr.Command
