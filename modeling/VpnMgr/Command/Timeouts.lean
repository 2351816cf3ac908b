import VpnMgr.Command.PasswordReplay
import VpnMgr.LibUseful.TimedStream
import Mathlib.Logic.Function.Iterate

/-!
# Timeouts and what is recognised

`RunCommandReadLoop` compares what one read returns, and a timeout ends a read.
-/

namespace VpnMgr.Command

open Machine Text CString LibUseful

abbrev ReadText := CString × List ReadEvent

def ReadText.chunk (text : ReadText) : Chunk := { text := text.1 }

/-- `RunCommandReadLoop` on a stream, read by read. -/
def readLoopFrom (domain : Domain) : Nat → List ReadEvent → ReadLoop → ReadLoop × List ReadEvent
  | 0, events, loop => (loop, events)
  | fuel + 1, events, loop =>
      match streamReadToMultiTerminator ":\r\n".toList [] events with
      | (none, left) => (loop, left)
      | (some text, left) =>
          let (loop, breaks) := readStep domain { text } loop
          if breaks then (loop, left) else readLoopFrom domain fuel left loop

/-- Each read but the last one takes something of the stream. -/
def readLoopOn (domain : Domain) (events : List ReadEvent) (loop : ReadLoop) :
    ReadLoop × List ReadEvent :=
  readLoopFrom domain (events.length + 1) events loop

/-- The strings that `RunCommandReadLoop` can read of a stream. -/
def readTexts (events : List ReadEvent) : List ReadText := streamReadTexts ":\r\n".toList [] events

/-- `RunCommandReadLoop` on these strings: its variables, and what it leaves unread. -/
def readStream (domain : Domain) : List ReadText → ReadLoop → ReadLoop × List ReadEvent
  | [], loop => (loop, [])
  | text :: rest, loop =>
      if (readStep domain text.chunk loop).2 then ((readStep domain text.chunk loop).1, text.2)
      else readStream domain rest (readStep domain text.chunk loop).1

theorem readLoopFrom_eq (domain : Domain) {fuel : Nat} {events : List ReadEvent}
    (enough : events.length < fuel) (loop : ReadLoop) :
    readLoopFrom domain fuel events loop = readStream domain (readTexts events) loop := by
  induction fuel generalizing events loop with
  | zero => exact absurd enough (Nat.not_lt_zero _)
  | succ fuel inductionHypothesis =>
      rw [readLoopFrom, readTexts, streamReadTexts_eq]
      rcases read : streamReadToMultiTerminator ":\r\n".toList [] events with ⟨_ | text, left⟩
      · rw [streamRead_none read]
        rfl
      · have shorter : left.length < fuel := by
          rcases streamRead_shorter read with shorter | rfl
          · omega
          · cases read
        dsimp only
        rw [readStream]
        cases breaks : (readStep domain { text } loop).2 with
        | true => exact (if_pos breaks).symm
        | false =>
            rw [if_neg (by simp), inductionHypothesis shorter]
            exact (if_neg (Bool.eq_false_iff.mp breaks)).symm

theorem readStream_loop (domain : Domain) (texts : List ReadText) (loop : ReadLoop) :
    (readStream domain texts loop).1 =
      runCommandReadLoop domain.name "su/sudo".toList (texts.map ReadText.chunk) loop := by
  induction texts generalizing loop with
  | nil => rfl
  | cons text rest inductionHypothesis =>
      rw [readStream, List.map_cons, runCommandReadLoop_cons]
      split
      case isTrue => rfl
      case isFalse => exact inductionHypothesis _

/-- The same result, the same passwords and the same bytes left. -/
def SameReading (timed plain : ReadLoop × List ReadEvent) : Prop :=
  timed.1.result = plain.1.result ∧ timed.1.sent = plain.1.sent ∧
    withoutTimeouts timed.2 = withoutTimeouts plain.2

section Recognised

variable (refused flagged : Bool) (texts : List ReadText)

def linesOfTexts : List Chunk := linesRead refused flagged (texts.map ReadText.chunk)

def promptsRead : Nat := (linesOfTexts refused flagged texts).countP (·.reaction = .password)

def endsIn (reaction : Reaction) : Bool :=
  (linesOfTexts refused flagged texts).getLast?.map Chunk.reaction = some reaction

def leftBehind : List ReadText → List ReadEvent
  | [] => []
  | text :: rest =>
      if text.chunk.stops refused || flagged then text.2 else leftBehind rest

end Recognised

/-- Two ways to cut a stream that come to the same, after some prompts each: the
reading ends at the same byte, after as many prompts; it ends with a rejection
in both or in neither; and without a prompt it ends with the announcement in
both or in neither. -/
structure CutAlike (refused flagged : Bool) (before beforePlain : Nat)
    (timed plain : List ReadText) : Prop where
  left : withoutTimeouts (leftBehind refused flagged timed) =
    withoutTimeouts (leftBehind refused flagged plain)
  prompts : before + promptsRead refused flagged timed =
    beforePlain + promptsRead refused flagged plain
  rejected : endsIn refused flagged timed .authFail = endsIn refused flagged plain .authFail
  started : beforePlain + promptsRead refused flagged plain = 0 →
    endsIn refused flagged timed .started = endsIn refused flagged plain .started

section Reading

variable {domain : Domain} {loop : ReadLoop}

theorem readStream_left (texts : List ReadText) (reading : Reading loop) :
    (readStream domain texts loop).2 =
      leftBehind (loop.refuses domain.name "su/sudo".toList)
        (loop.session.globalFlags.has flagExit) texts := by
  induction texts generalizing loop with
  | nil => rfl
  | cons text rest inductionHypothesis =>
      obtain ⟨breaks, goesOn⟩ := @readStep_line domain loop text.chunk reading
      rw [readStream, leftBehind, breaks, ReadText.chunk, Bool.or_false]
      split
      case isTrue => rfl
      case isFalse unbroken =>
        obtain ⟨readingAfter, refuses, flagged⟩ := goesOn (by
          rw [breaks, ReadText.chunk, Bool.or_false]
          exact Bool.eq_false_iff.mpr unbroken)
        rw [← refuses, ← flagged]
        exact inductionHypothesis readingAfter

def answered (domain : Domain) (prompts : Nat) (loop : ReadLoop) : ReadLoop :=
  (runCommandPasswordTransact domain.name "su/sudo".toList)^[prompts] loop

theorem transact_marked (flags : FlagWord) (result : RunCmd) :
    ∃ other, runCommandPasswordTransact domain.name "su/sudo".toList (loop.marked flags result) =
      (runCommandPasswordTransact domain.name "su/sudo".toList loop).marked flags other := by
  unfold runCommandPasswordTransact ReadLoop.marked
  dsimp only
  split
  case isTrue => exact ⟨_, rfl⟩
  case isFalse =>
    split
    case isTrue => exact ⟨_, rfl⟩
    case isFalse => exact ⟨_, rfl⟩

theorem answered_marked (prompts : Nat) (flags : FlagWord) (result : RunCmd) :
    (answered domain prompts (loop.marked flags result)).sent = (answered domain prompts loop).sent := by
  induction prompts generalizing loop result with
  | zero => rfl
  | succ prompts inductionHypothesis =>
      obtain ⟨other, same⟩ := @transact_marked domain loop flags result
      rw [answered, answered, Function.iterate_succ_apply, Function.iterate_succ_apply, same]
      exact inductionHypothesis other

theorem Transacts.sent_length {after : ReadLoop} {new : List PasswordEvent}
    (done : Transacts domain loop after new) : after.sent.length = loop.sent.length + 2 := by
  cases done <;> exact List.length_append

theorem answered_length (prompts : Nat) :
    (answered domain prompts loop).sent.length = loop.sent.length + 2 * prompts := by
  induction prompts generalizing loop with
  | zero => rfl
  | succ prompts inductionHypothesis =>
      have one : (runCommandPasswordTransact domain.name "su/sudo".toList loop).sent.length =
          loop.sent.length + 2 := (transacts domain loop).sent_length
      rw [answered, Function.iterate_succ_apply]
      exact (inductionHypothesis).trans (by omega)

theorem readStep_sent (chunk : Chunk) (prompts : Nat) :
    (answered domain prompts (readStep domain chunk loop).1).sent =
      (answered domain ((if chunk.reaction = .password then 1 else 0) + prompts) loop).sent := by
  rcases readStep_cases domain chunk loop with ⟨flags, result, same, new⟩ | ⟨flags, result, same, new⟩
  · have asks : chunk.reaction = .password := by
      by_contra other
      exact (transacts domain loop).new_ne_nil (new.symm.trans (chunkEvents_eq_nil_iff.mpr other))
    rw [same, answered_marked, if_pos asks, Nat.add_comm, answered, answered,
      Function.iterate_succ_apply]
  · rw [same, answered_marked, if_neg (chunkEvents_eq_nil_iff.mp new), Nat.zero_add]

/-- What is sent is what the prompts that are read are answered. -/
theorem readLoop_sent (chunks : List Chunk) (reading : Reading loop) :
    (runCommandReadLoop domain.name "su/sudo".toList chunks loop).sent =
      (answered domain ((linesRead (loop.refuses domain.name "su/sudo".toList)
        (loop.session.globalFlags.has flagExit) chunks).countP (·.reaction = .password)) loop).sent := by
  induction chunks generalizing loop with
  | nil => rfl
  | cons chunk rest inductionHypothesis =>
      obtain ⟨breaks, goesOn⟩ := @readStep_line domain loop chunk reading
      have step := @readStep_sent domain loop chunk
      rw [runCommandReadLoop_cons, linesRead, ← breaks]
      split
      case isTrue =>
        rw [List.countP_singleton]
        simpa [answered] using step 0
      case isFalse unbroken =>
        obtain ⟨readingAfter, refuses, flagged⟩ := goesOn (Bool.eq_false_iff.mpr unbroken)
        rw [inductionHypothesis readingAfter, refuses, flagged, step, List.countP_cons, Nat.add_comm]
        simp only [decide_eq_true_eq]

end Reading

/-! ## What the result tells -/

def verdictOf (started rejected prompted refused : Bool) : RunCmd :=
  if started then .okay
  else if rejected then .authFail
  else if prompted then if refused then .abort else .okay
  else .begin

def Consistent (started rejected prompted refused : Bool) : Prop :=
  (started && rejected) = false ∧ (refused && prompted && (started || rejected)) = false

theorem verdictOf_eq_iff : ∀ started rejected started' rejected' prompted refused : Bool,
    Consistent started rejected prompted refused → Consistent started' rejected' prompted refused →
      (verdictOf started rejected prompted refused = verdictOf started' rejected' prompted refused ↔
        (rejected = rejected' ∧ (prompted = false → started = started'))) := by
  unfold Consistent
  decide

section Verdict

variable {refused flagged : Bool} {texts : List ReadText}

theorem promptsRead_pos_iff : 0 < promptsRead refused flagged texts ↔
    ((linesOfTexts refused flagged texts).any fun chunk => chunk.reaction = .password) = true := by
  rw [promptsRead, List.countP_pos_iff, List.any_eq_true]

theorem verdict_eq :
    verdict refused .begin (linesOfTexts refused flagged texts) =
      verdictOf (endsIn refused flagged texts .started)
        (endsIn refused flagged texts .authFail)
        (decide (0 < promptsRead refused flagged texts)) refused := by
  have prompted : decide (0 < promptsRead refused flagged texts) =
      (linesOfTexts refused flagged texts).any fun chunk => chunk.reaction = .password := by
    rw [Bool.eq_iff_iff, decide_eq_true_iff, promptsRead_pos_iff]
  unfold verdict verdictOf endsIn
  rw [prompted]
  rcases (linesOfTexts refused flagged texts).getLast?.map Chunk.reaction with _ | reaction
  · simp
  · cases reaction <;> simp

theorem verdict_consistent :
    Consistent (endsIn refused flagged texts .started)
      (endsIn refused flagged texts .authFail)
      (decide (0 < promptsRead refused flagged texts)) refused := by
  constructor
  · unfold endsIn
    rcases (linesOfTexts refused flagged texts).getLast?.map Chunk.reaction with _ | reaction
    · rfl
    · cases reaction <;> rfl
  · by_cases isRefused : refused = true
    · by_cases prompted : 0 < promptsRead refused flagged texts
      · rw [promptsRead_pos_iff, List.any_eq_true] at prompted
        obtain ⟨chunk, member, asks⟩ := prompted
        have reaction := of_decide_eq_true asks
        have last := linesRead_last member (by rw [Chunk.stops, reaction]; exact isRefused)
        have ends : ∀ other, endsIn refused flagged texts other = decide (.password = other) := by
          intro other
          rw [endsIn, linesOfTexts, last, Option.map_some, reaction]
          exact decide_eq_decide.mpr Option.some_inj
        simp [ends]
      · simp [prompted]
    · simp [isRefused]

end Verdict

section Reading

variable {domain : Domain} {loop : ReadLoop}

theorem answered_sent_inj (first second : Nat) :
    (answered domain first loop).sent = (answered domain second loop).sent ↔ first = second := by
  refine ⟨fun same => ?_, congrArg fun prompts => (answered domain prompts loop).sent⟩
  have lengths := congrArg List.length same
  rw [answered_length, answered_length] at lengths
  omega

theorem readStream_eq (texts : List ReadText) (begins : loop.result = .begin) {refused flagged : Bool}
    (isRefused : loop.refuses domain.name "su/sudo".toList = refused)
    (isFlagged : loop.session.globalFlags.has flagExit = flagged) :
    (readStream domain texts loop).1.result =
        verdictOf (endsIn refused flagged texts .started) (endsIn refused flagged texts .authFail)
          (decide (0 < promptsRead refused flagged texts)) refused ∧
      (readStream domain texts loop).1.sent =
        (answered domain (promptsRead refused flagged texts) loop).sent ∧
      (readStream domain texts loop).2 = leftBehind refused flagged texts := by
  subst isRefused isFlagged
  refine ⟨?_, ?_, readStream_left texts (.inl begins)⟩
  · rw [readStream_loop, runCommandReadLoop_result _ _ _ (.inl begins), begins]
    exact verdict_eq
  · rw [readStream_loop]
    exact readLoop_sent _ (.inl begins)

theorem sameReading_iff (timed plain : List ReadText) (begins : loop.result = .begin)
    {refused flagged : Bool} (isRefused : loop.refuses domain.name "su/sudo".toList = refused)
    (isFlagged : loop.session.globalFlags.has flagExit = flagged) :
    SameReading (readStream domain timed loop) (readStream domain plain loop) ↔
      CutAlike refused flagged 0 0 timed plain := by
  obtain ⟨result, sent, left⟩ := readStream_eq timed begins isRefused isFlagged
  obtain ⟨resultPlain, sentPlain, leftPlain⟩ := readStream_eq plain begins isRefused isFlagged
  have timedOk := @verdict_consistent refused flagged timed
  have plainOk := @verdict_consistent refused flagged plain
  rw [SameReading, result, sent, left, resultPlain, sentPlain, leftPlain, answered_sent_inj]
  constructor
  · rintro ⟨results, prompts, lefts⟩
    rw [prompts] at results timedOk
    obtain ⟨rejected, started⟩ := (verdictOf_eq_iff _ _ _ _ _ _ timedOk plainOk).mp results
    exact ⟨lefts, by rw [prompts], rejected, fun none => started (by simp at none; simp [none])⟩
  · rintro ⟨lefts, prompts, rejected, started⟩
    rw [Nat.zero_add, Nat.zero_add] at prompts
    rw [prompts] at timedOk ⊢
    refine ⟨(verdictOf_eq_iff _ _ _ _ _ _ timedOk plainOk).mpr ⟨rejected, fun none => ?_⟩, rfl, lefts⟩
    exact started (by simpa using none)

end Reading

/-! ## Line by line -/

def reactionOf (text : CString) : Reaction := Chunk.reaction { text }

section Lines

variable (refused flagged : Bool)

def endsReading (text : CString) : Bool := Chunk.stops refused { text } || flagged

/-- The prompts that are read and the last strings come to the same. -/
def EndAlike (timed plain : Nat) (timedEnd plainEnd : Reaction) : Prop :=
  timed = plain ∧ (timedEnd = .authFail ↔ plainEnd = .authFail) ∧
    (plain = 0 → (timedEnd = .started ↔ plainEnd = .started))

/-- The timeouts in these lines do no harm, after some prompts with and without
timeouts.  A line that neither ends the reading as a whole nor in one of its
strings is passed, and its prompts count.  Where the line and one of its strings
end it, the string has to be the line's last bytes; where only one of them does,
there must be nothing behind it. -/
def CutsAgree : Nat → Nat → List CutLine → Prop
  | timed, plain, [] => timed = plain
  | timed, plain, line :: rest =>
      let prompts := timed + promptsRead refused flagged line.strings
      let promptsWhole := plain + if reactionOf line.text = .password then 1 else 0
      match line.strings.find? fun string => endsReading refused flagged string.1,
        line.text ≠ [] && endsReading refused flagged line.text with
      | none, false => CutsAgree prompts promptsWhole rest
      | some string, true =>
          withoutTimeouts string.2 = withoutTimeouts line.left ∧
            EndAlike prompts promptsWhole (reactionOf string.1) (reactionOf line.text)
      | some string, false =>
          bytesLeft string.2 = 0 ∧ EndAlike prompts promptsWhole (reactionOf string.1) .output
      | none, true =>
          bytesLeft line.left = 0 ∧ EndAlike prompts promptsWhole .output (reactionOf line.text)

end Lines

section Strings

variable {refused flagged : Bool} {texts more : List ReadText} {bound : Nat}

theorem endsReading_eq (text : ReadText) :
    endsReading refused flagged text.1 = (text.chunk.stops refused || flagged) := rfl

theorem linesOfTexts_cons (text : ReadText) (rest : List ReadText) :
    linesOfTexts refused flagged (text :: rest) =
      if endsReading refused flagged text.1 then [text.chunk]
      else text.chunk :: linesOfTexts refused flagged rest := by
  rw [linesOfTexts, List.map_cons, linesRead, endsReading_eq]
  simp only [ReadText.chunk, Bool.or_false]
  rfl

structure Passed (texts : List ReadText) (refused flagged : Bool) (more : List ReadText) : Prop where
  left : leftBehind refused flagged (texts ++ more) = leftBehind refused flagged more
  prompts : promptsRead refused flagged (texts ++ more) =
    promptsRead refused flagged texts + promptsRead refused flagged more
  ends : ∀ reaction, reaction = .authFail ∨ reaction = .started →
    endsIn refused flagged (texts ++ more) reaction = endsIn refused flagged more reaction

theorem passed (none : texts.find? (fun string => endsReading refused flagged string.1) = none) :
    Passed texts refused flagged more := by
  induction texts with
  | nil => exact ⟨rfl, by simp [promptsRead, linesOfTexts, linesRead], fun _ _ => rfl⟩
  | cons text rest inductionHypothesis =>
      have goesOn : endsReading refused flagged text.1 = false := by
        simpa using List.find?_eq_none.mp none text List.mem_cons_self
      obtain ⟨left, prompts, ends⟩ := inductionHypothesis (List.find?_eq_none.mpr
        fun string member => List.find?_eq_none.mp none string (List.mem_cons_of_mem _ member))
      refine ⟨?_, ?_, fun reaction isEnd => ?_⟩
      · rw [List.cons_append, leftBehind, ← endsReading_eq, goesOn]
        exact left
      · unfold promptsRead at prompts ⊢
        rw [List.cons_append, linesOfTexts_cons, linesOfTexts_cons, goesOn]
        simp only [Bool.false_eq_true, if_false, List.countP_cons, prompts]
        omega
      · rw [← ends reaction isEnd, endsIn, endsIn, List.cons_append, linesOfTexts_cons, goesOn]
        simp only [Bool.false_eq_true, if_false]
        cases later : linesOfTexts refused flagged (rest ++ more) with
        | nil =>
            have apart : text.chunk.reaction ≠ reaction := by
              rintro rfl
              rw [endsReading_eq, Bool.or_eq_false_iff, Chunk.stops] at goesOn
              rcases isEnd with same | same <;> simp [same] at goesOn
            simp [apart]
        | cons => rw [List.getLast?_cons_cons]

structure Stopped (texts : List ReadText) (last : ReadText) (refused flagged : Bool)
    (more : List ReadText) : Prop where
  left : leftBehind refused flagged (texts ++ more) = last.2
  prompts : promptsRead refused flagged (texts ++ more) = promptsRead refused flagged texts
  ends : ∀ reaction, endsIn refused flagged (texts ++ more) reaction =
    decide (reactionOf last.1 = reaction)

theorem stopped {last : ReadText}
    (some : texts.find? (fun string => endsReading refused flagged string.1) = some last) :
    Stopped texts last refused flagged more := by
  induction texts with
  | nil => cases some
  | cons text rest inductionHypothesis =>
      rw [List.find?_cons] at some
      cases stops : endsReading refused flagged text.1 with
      | true =>
          rw [stops] at some
          obtain rfl := Option.some.inj some
          refine ⟨?_, ?_, fun reaction => ?_⟩
          · rw [List.cons_append, leftBehind, ← endsReading_eq, stops]
            rfl
          · rw [promptsRead, promptsRead, List.cons_append, linesOfTexts_cons, linesOfTexts_cons, stops]
            rfl
          · rw [endsIn, List.cons_append, linesOfTexts_cons, stops]
            exact decide_eq_decide.mpr Option.some_inj
      | false =>
          rw [stops] at some
          obtain ⟨left, prompts, ends⟩ := inductionHypothesis some
          have nonempty : linesOfTexts refused flagged (rest ++ more) ≠ [] := by
            obtain ⟨head, tail, shape⟩ : ∃ head tail, rest = head :: tail :=
              List.exists_cons_of_ne_nil (by rintro rfl; cases some)
            rw [shape, List.cons_append, linesOfTexts_cons]
            split <;> exact List.cons_ne_nil _ _
          refine ⟨?_, ?_, fun reaction => ?_⟩
          · rw [List.cons_append, leftBehind, ← endsReading_eq, stops]
            exact left
          · unfold promptsRead at prompts ⊢
            rw [List.cons_append, linesOfTexts_cons, linesOfTexts_cons, stops]
            simp only [Bool.false_eq_true, if_false, List.countP_cons, prompts]
          · rw [← ends reaction, endsIn, endsIn, List.cons_append, linesOfTexts_cons, stops]
            simp only [Bool.false_eq_true, if_false]
            obtain ⟨head, tail, shape⟩ := List.exists_cons_of_ne_nil nonempty
            rw [shape, List.getLast?_cons_cons]

end Strings

section Whole

variable {refused flagged : Bool} {bound : Nat}

def wholeLines (lines : List CutLine) : List ReadText :=
  (lines.filter fun line => line.text ≠ []).map fun line => (line.text, withoutTimeouts line.left)

def wholeLine (line : CutLine) : List ReadText :=
  if line.text = [] then [] else [(line.text, withoutTimeouts line.left)]

theorem wholeLines_cons (line : CutLine) (rest : List CutLine) :
    wholeLines (line :: rest) = wholeLine line ++ wholeLines rest := by
  unfold wholeLines wholeLine
  by_cases empty : line.text = []
  · rw [List.filter_cons_of_neg (by simpa using empty), if_pos empty, List.nil_append]
  · rw [List.filter_cons_of_pos (by simpa using empty), if_neg empty]
    rfl

theorem find_wholeLine (line : CutLine) :
    (wholeLine line).find? (fun string => endsReading refused flagged string.1) =
      if line.text ≠ [] && endsReading refused flagged line.text then
        some (line.text, withoutTimeouts line.left) else none := by
  unfold wholeLine
  by_cases empty : line.text = []
  · simp [empty]
  · cases ends : endsReading refused flagged line.text <;> simp [empty, ends]

theorem promptsRead_wholeLine (line : CutLine) : promptsRead refused flagged (wholeLine line) =
    if reactionOf line.text = .password then 1 else 0 := by
  unfold wholeLine
  by_cases empty : line.text = []
  · rw [if_pos empty, empty]
    rfl
  · have alone : linesOfTexts refused flagged [(line.text, withoutTimeouts line.left)] =
        [{ text := line.text }] := by
      rw [linesOfTexts_cons]
      split <;> rfl
    rw [if_neg empty, promptsRead, alone, List.countP_singleton]
    simp only [decide_eq_true_eq]
    rfl

theorem linesRead_subset {chunks : List Chunk} : linesRead refused flagged chunks ⊆ chunks := by
  induction chunks with
  | nil => exact List.Subset.refl _
  | cons chunk rest inductionHypothesis =>
      rw [linesRead]
      split
      case isTrue => exact List.cons_subset.mpr ⟨List.mem_cons_self, List.nil_subset _⟩
      case isFalse => exact List.cons_subset_cons chunk inductionHypothesis

theorem endsReading_nil (unflagged : flagged = false) : endsReading refused flagged [] = false := by
  rw [unflagged]
  rfl

theorem unflagged_of_passed {line : CutLine}
    (none : line.strings.find? (fun string => endsReading refused flagged string.1) = none)
    (holds : line.text ≠ []) : flagged = false := by
  obtain ⟨inchar, member⟩ := List.exists_mem_of_ne_nil _ holds
  obtain ⟨string, isString, -⟩ := List.mem_flatMap.mp member
  have goesOn := List.find?_eq_none.mp none string isString
  exact (Bool.or_eq_false_iff.mp (Bool.eq_false_iff.mpr goesOn)).2

theorem withoutTimeouts_idem (events : List ReadEvent) :
    withoutTimeouts (withoutTimeouts events) = withoutTimeouts events := by
  simp [withoutTimeouts]

theorem leftBehind_less {texts : List ReadText} (descends : Descends bound texts)
    (holds : ∀ text ∈ texts, endsReading refused flagged text.1 = true → text.1 ≠ []) :
    bytesLeft (leftBehind refused flagged texts) < bound ∨
      bytesLeft (leftBehind refused flagged texts) = 0 := by
  induction texts generalizing bound with
  | nil => exact .inr rfl
  | cons text rest inductionHypothesis =>
      obtain ⟨here, less, later⟩ := descends
      rw [leftBehind, ← endsReading_eq]
      split
      case isTrue ends => exact .inl (less (holds text List.mem_cons_self ends))
      case isFalse =>
        refine (inductionHypothesis later fun other member =>
          holds other (List.mem_cons_of_mem _ member)).imp_left fun fewer => ?_
        exact fewer.trans_le here

/-- Where nothing is left, nothing that is read ends the reading or asks. -/
theorem nothing_behind {texts : List ReadText} (descends : Descends 0 texts)
    (holds : ∀ text ∈ texts, endsReading refused flagged text.1 = true → text.1 ≠ []) :
    leftBehind refused flagged texts = [] ∧ promptsRead refused flagged texts = 0 ∧
      ∀ reaction, reaction = .authFail ∨ reaction = .started →
        endsIn refused flagged texts reaction = false := by
  have empty := descends.empty
  have quiet : texts.find? (fun string => endsReading refused flagged string.1) = none :=
    List.find?_eq_none.mpr fun text member ends => holds text member ends (empty text member)
  have done := @passed refused flagged texts [] quiet
  refine ⟨?_, ?_, fun reaction isEnd => ?_⟩
  · have left := done.left
    rwa [List.append_nil] at left
  · refine List.countP_eq_zero.mpr fun chunk member => ?_
    obtain ⟨text, isText, rfl⟩ := List.mem_map.mp (linesRead_subset member)
    rw [ReadText.chunk, empty text isText]
    decide
  · have ends := done.ends reaction isEnd
    rw [List.append_nil] at ends
    rw [ends]
    rfl

theorem linesDescend_strings {lines : List CutLine} (descends : LinesDescend bound lines) :
    Descends bound (lines.flatMap CutLine.strings) ∧ Descends bound (wholeLines lines) := by
  induction lines generalizing bound with
  | nil => exact ⟨trivial, trivial⟩
  | cons line rest inductionHypothesis =>
      obtain ⟨strings, least, less, later⟩ := descends
      obtain ⟨restStrings, restWhole⟩ := inductionHypothesis later
      refine ⟨strings.append restStrings least less, ?_⟩
      rw [wholeLines_cons, wholeLine]
      split
      case isTrue => exact restWhole.mono less
      case isFalse holds =>
        refine ⟨?_, fun _ => ?_, ?_⟩
        · rwa [bytesLeft_withoutTimeouts]
        · rw [bytesLeft_withoutTimeouts]
          exact CutLine.less strings least holds
        · rwa [bytesLeft_withoutTimeouts]

theorem wholeLines_nonempty {lines : List CutLine} : ∀ text ∈ wholeLines lines, text.1 ≠ [] := by
  intro text member
  obtain ⟨line, isLine, rfl⟩ := List.mem_map.mp member
  simpa using (List.mem_filter.mp isLine).2

end Whole

section Agreement

variable {refused flagged : Bool} {bound : Nat}

structure Reads (refused flagged : Bool) (texts : List ReadText) (left : List ReadEvent)
    (prompts : Nat) (last : Reaction) : Prop where
  left : leftBehind refused flagged texts = left
  prompts : promptsRead refused flagged texts = prompts
  ends : ∀ reaction, reaction = .authFail ∨ reaction = .started →
    endsIn refused flagged texts reaction = decide (last = reaction)

theorem cutAlike_iff {timed plain prompts promptsPlain : Nat} {texts textsPlain : List ReadText}
    {left leftPlain : List ReadEvent} {last lastPlain : Reaction}
    (reads : Reads refused flagged texts left prompts last)
    (readsPlain : Reads refused flagged textsPlain leftPlain promptsPlain lastPlain) :
    CutAlike refused flagged timed plain texts textsPlain ↔
      withoutTimeouts left = withoutTimeouts leftPlain ∧
        EndAlike (timed + prompts) (plain + promptsPlain) last lastPlain := by
  have same := fun reaction isEnd => (reads.ends reaction isEnd).symm
  have samePlain := fun reaction isEnd => (readsPlain.ends reaction isEnd).symm
  constructor
  · rintro ⟨lefts, asked, rejected, started⟩
    rw [reads.left, readsPlain.left] at lefts
    rw [reads.prompts, readsPlain.prompts] at asked
    rw [readsPlain.prompts] at started
    rw [← same _ (.inl rfl), ← samePlain _ (.inl rfl), decide_eq_decide] at rejected
    rw [← same _ (.inr rfl), ← samePlain _ (.inr rfl), decide_eq_decide] at started
    exact ⟨lefts, asked, rejected, started⟩
  · rintro ⟨lefts, asked, rejected, started⟩
    refine ⟨?_, ?_, ?_, ?_⟩
    · rw [reads.left, readsPlain.left, lefts]
    · rw [reads.prompts, readsPlain.prompts, asked]
    · rw [← same _ (.inl rfl), ← samePlain _ (.inl rfl), decide_eq_decide]
      exact rejected
    · rw [readsPlain.prompts, ← same _ (.inr rfl), ← samePlain _ (.inr rfl), decide_eq_decide]
      exact started

theorem Stopped.reads {texts more : List ReadText} {last : ReadText}
    (stopped : Stopped texts last refused flagged more) :
    Reads refused flagged (texts ++ more) last.2 (promptsRead refused flagged texts)
      (reactionOf last.1) :=
  ⟨stopped.left, stopped.prompts, fun reaction _ => stopped.ends reaction⟩

theorem Passed.reads {texts more : List ReadText} (passed : Passed texts refused flagged more)
    (descends : Descends 0 more)
    (holds : ∀ text ∈ more, endsReading refused flagged text.1 = true → text.1 ≠ []) :
    Reads refused flagged (texts ++ more) [] (promptsRead refused flagged texts) .output := by
  obtain ⟨left, prompts, ends⟩ := nothing_behind descends holds
  refine ⟨passed.left.trans left, ?_, fun reaction isEnd => ?_⟩
  · rw [passed.prompts, prompts, Nat.add_zero]
  · rw [passed.ends reaction isEnd, ends reaction isEnd]
    rcases isEnd with rfl | rfl <;> rfl

theorem cutAlike_passed {timed plain : Nat} {texts more textsPlain morePlain : List ReadText}
    (passed : Passed texts refused flagged more)
    (passedPlain : Passed textsPlain refused flagged morePlain) :
    CutAlike refused flagged timed plain (texts ++ more) (textsPlain ++ morePlain) ↔
      CutAlike refused flagged (timed + promptsRead refused flagged texts)
        (plain + promptsRead refused flagged textsPlain) more morePlain := by
  constructor
  · rintro ⟨left, prompts, rejected, started⟩
    rw [passed.left, passedPlain.left] at left
    rw [passed.prompts, passedPlain.prompts, ← Nat.add_assoc, ← Nat.add_assoc] at prompts
    rw [passed.ends _ (.inl rfl), passedPlain.ends _ (.inl rfl)] at rejected
    rw [passed.ends _ (.inr rfl), passedPlain.ends _ (.inr rfl), passedPlain.prompts,
      ← Nat.add_assoc] at started
    exact ⟨left, prompts, rejected, started⟩
  · rintro ⟨left, prompts, rejected, started⟩
    refine ⟨?_, ?_, ?_, ?_⟩
    · rw [passed.left, passedPlain.left, left]
    · rw [passed.prompts, passedPlain.prompts, ← Nat.add_assoc, ← Nat.add_assoc, prompts]
    · rw [passed.ends _ (.inl rfl), passedPlain.ends _ (.inl rfl), rejected]
    · rw [passed.ends _ (.inr rfl), passedPlain.ends _ (.inr rfl), passedPlain.prompts,
        ← Nat.add_assoc]
      exact started

/-- Timeouts in the lines make no difference exactly where they agree line by line. -/
theorem cutsAgree_iff {lines : List CutLine} (descends : LinesDescend bound lines)
    (timed plain : Nat) : CutsAgree refused flagged timed plain lines ↔
      CutAlike refused flagged timed plain (lines.flatMap CutLine.strings) (wholeLines lines) := by
  induction lines generalizing bound timed plain with
  | nil => exact ⟨fun same => ⟨rfl, same, rfl, fun _ => rfl⟩, fun alike => alike.prompts⟩
  | cons line rest inductionHypothesis =>
      obtain ⟨strings, least, less, later⟩ := descends
      obtain ⟨restStrings, restWhole⟩ := linesDescend_strings later
      have nonempty : ∀ text ∈ wholeLines rest, endsReading refused flagged text.1 = true →
          text.1 ≠ [] := fun text member _ => wholeLines_nonempty text member
      have found := @find_wholeLine refused flagged line
      rw [List.flatMap_cons, wholeLines_cons, CutsAgree, ← @promptsRead_wholeLine refused flagged line]
      cases inStrings : line.strings.find? (fun string => endsReading refused flagged string.1) with
      | none =>
          have timedPassed := @passed refused flagged line.strings (rest.flatMap CutLine.strings) inStrings
          cases whole : line.text ≠ [] && endsReading refused flagged line.text with
          | false =>
              rw [whole] at found
              have plainPassed := @passed refused flagged (wholeLine line) (wholeLines rest) found
              rw [cutAlike_passed timedPassed plainPassed]
              exact inductionHypothesis later _ _
          | true =>
              rw [whole, if_pos rfl] at found
              have plainStopped := @stopped refused flagged (wholeLine line) (wholeLines rest) _ found
              have holds : ∀ text ∈ rest.flatMap CutLine.strings,
                  endsReading refused flagged text.1 = true → text.1 ≠ [] := by
                rintro text - ends empty
                rw [empty, endsReading_nil (unflagged_of_passed inStrings (by simp_all))] at ends
                cases ends
              have nothing : bytesLeft line.left = 0 → Reads refused flagged
                  (line.strings ++ rest.flatMap CutLine.strings) []
                  (promptsRead refused flagged line.strings) .output := fun zero =>
                timedPassed.reads (restStrings.mono zero.le) holds
              constructor
              · rintro ⟨zero, alike⟩
                refine (cutAlike_iff (nothing zero) plainStopped.reads).mpr ⟨?_, alike⟩
                rw [withoutTimeouts_idem]
                exact (List.eq_nil_of_length_eq_zero zero).symm
              · intro alike
                have zero : bytesLeft line.left = 0 := by
                  have same := congrArg List.length alike.left
                  rw [timedPassed.left, plainStopped.left, withoutTimeouts_idem] at same
                  have fewer := leftBehind_less restStrings holds
                  unfold bytesLeft at *
                  omega
                exact ⟨zero, ((cutAlike_iff (nothing zero) plainStopped.reads).mp alike).2⟩
      | some string =>
          have timedStopped := @stopped refused flagged line.strings (rest.flatMap CutLine.strings) _
            inStrings
          have behind : bytesLeft line.left ≤ bytesLeft string.2 :=
            least string (List.mem_of_find?_eq_some inStrings)
          cases whole : line.text ≠ [] && endsReading refused flagged line.text with
          | false =>
              rw [whole] at found
              have plainPassed := @passed refused flagged (wholeLine line) (wholeLines rest) found
              have nothing : bytesLeft string.2 = 0 → Reads refused flagged
                  (wholeLine line ++ wholeLines rest) [] (promptsRead refused flagged (wholeLine line))
                  .output := fun zero =>
                plainPassed.reads (restWhole.mono (behind.trans zero.le)) nonempty
              constructor
              · rintro ⟨zero, alike⟩
                exact (cutAlike_iff timedStopped.reads (nothing zero)).mpr
                  ⟨List.eq_nil_of_length_eq_zero zero, alike⟩
              · intro alike
                have zero : bytesLeft string.2 = 0 := by
                  have same := congrArg List.length alike.left
                  rw [timedStopped.left, plainPassed.left] at same
                  have fewer := leftBehind_less restWhole nonempty
                  unfold bytesLeft at *
                  omega
                exact ⟨zero, ((cutAlike_iff timedStopped.reads (nothing zero)).mp alike).2⟩
          | true =>
              rw [whole, if_pos rfl] at found
              have plainStopped := @stopped refused flagged (wholeLine line) (wholeLines rest) _ found
              rw [cutAlike_iff timedStopped.reads plainStopped.reads, withoutTimeouts_idem]

end Agreement

/-- Timeouts make no difference to the result, to what is sent and to what is
left exactly where they do no harm to any line. -/
theorem readStream_timeouts_iff (domain : Domain) (session : Session) (typed : List CPtr)
    (events : List ReadEvent) :
    SameReading (readLoopOn domain events (.start session typed))
        (readLoopOn domain (withoutTimeouts events) (.start session typed)) ↔
      CutsAgree ((ReadLoop.start session typed).refuses domain.name "su/sudo".toList)
        (session.globalFlags.has flagExit) 0 0 (cutLines ":\r\n".toList [] [] events) := by
  have descends : LinesDescend (bytesLeft events) (cutLines ":\r\n".toList [] [] events) :=
    cutLines_descend _ _ _ trivial (by simp) le_rfl le_rfl fun holds => absurd rfl holds
  rw [readLoopOn, readLoopOn, readLoopFrom_eq domain (Nat.lt_succ_self _),
    readLoopFrom_eq domain (Nat.lt_succ_self _), sameReading_iff _ _ rfl rfl rfl,
    cutsAgree_iff descends, cutLines_strings, wholeLines, cutLines_whole]
  rfl

/-- The announcement, cut by a timeout, and the first bytes of PPP behind it. -/
def pausedAnnouncement : List ReadEvent :=
  "vpn-mgr-cmd".toList.map .byte ++ .timeout :: "-run\r\n~~~\x7d#".toList.map .byte

/-- The announcement is missed, and the loop reads what is meant for pppd. -/
theorem pausedAnnouncement_differs :
    ¬ SameReading (readLoopOn .remoteEnd pausedAnnouncement (.start ⟨0, noPasswords⟩ []))
      (readLoopOn .remoteEnd (withoutTimeouts pausedAnnouncement)
        (.start ⟨0, noPasswords⟩ [])) := by
  intro same
  have result : (readLoopOn .remoteEnd pausedAnnouncement
      (.start ⟨0, noPasswords⟩ [])).1.result = .begin := by decide
  have whole : (readLoopOn .remoteEnd (withoutTimeouts pausedAnnouncement)
      (.start ⟨0, noPasswords⟩ [])).1.result = .okay := by decide
  rw [SameReading, result, whole] at same
  cases same.1

end VpnMgr.Command
