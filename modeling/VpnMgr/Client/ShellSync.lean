import VpnMgr.Client.RemoteDevice

/-!
# Synchronising with the remote shell

`SSHVpnSync` has the shell echo a fresh key and reads until a line is that key.
A shell that answers its lines in order cannot print the key before it has
answered all earlier lines.
-/

namespace VpnMgr.Client

open Machine Text CString LibUseful Command Process

/-- What a shell prints: its greeting, and then for each line it is sent all that
it prints in answer, echo and prompt included. -/
abbrev RemoteShell := Nat → CString

def RemoteShell.printed (shell : RemoteShell) (lines : Nat) : CString :=
  (List.range (lines + 1)).flatMap shell

theorem RemoteShell.printed_prefix (shell : RemoteShell) {m n : Nat} (earlier : m ≤ n) :
    shell.printed m <+: shell.printed n := by
  obtain ⟨more, rfl⟩ := Nat.exists_eq_add_of_le earlier
  have split := @List.range_add (m + 1) more
  rw [printed, printed, Nat.add_right_comm, split, List.flatMap_append]
  exact List.prefix_append ..

/-- A text without the zero bytes, which the reader leaves out. -/
def visible (text : CString) : CString := text.filter (· ≠ '\x00')

/-- The bytes of a stream. -/
def charsOf (events : List ReadEvent) : CString :=
  events.filterMap fun
    | .byte inchar => some inchar
    | .timeout => none

def keyOf : Sigma Answer → Option CString
  | ⟨.randomKey, key⟩ => some key
  | _ => none

def keysSent (made : History Answer) : List CString := made.filterMap keyOf

def writeOf : Sigma Answer → Option CString
  | ⟨.streamWriteLine .ssh text, _⟩ => some text
  | _ => none

def linesSent (made : History Answer) : List CString := made.filterMap writeOf

def stripped (text : CString) : CString := stripLeadingWhitespace (stripTrailingWhitespace text)

def Matched (made : History Answer) : Prop :=
  ∃ text, (linesReadOf made).getLast? = some (some text) ∧
    (keysSent made).getLast? = some (stripped text)

/-- What is left of a stream after some reads, if these are what they return. -/
def leftAfter : List CPtr → List ReadEvent → Option (List ReadEvent)
  | [], events => some events
  | answer :: rest, events =>
      let (text, left) := LibUseful.streamReadToMultiTerminator "\r\n".toList [] events
      if text = answer then leftAfter rest left else none

/-- How many bytes the reads of raw bytes took. -/
def drained (made : History Answer) : Nat :=
  (made.flatMap fun
    | ⟨.streamReadBytes .ssh, bytes⟩ => (bytes : List UInt8)
    | _ => []).length

theorem visible_append (first second : CString) :
    visible (first ++ second) = visible first ++ visible second := List.filter_append ..

theorem charsOf_read (retStr : CString) (events : List ReadEvent) :
    ∃ chunk, charsOf events =
        chunk ++ charsOf (LibUseful.streamReadToMultiTerminator "\r\n".toList retStr events).2 ∧
      ∀ text, (LibUseful.streamReadToMultiTerminator "\r\n".toList retStr events).1 = some text →
        text = retStr ++ visible chunk := by
  induction events generalizing retStr with
  | nil =>
      refine ⟨[], rfl, fun text returned => ?_⟩
      unfold LibUseful.streamReadToMultiTerminator at returned
      split at returned
      · cases returned
      · rw [← Option.some.inj returned]
        exact (List.append_nil _).symm
  | cons event rest inductionHypothesis =>
      cases event with
      | timeout =>
          refine ⟨[], rfl, fun text returned => ?_⟩
          rw [← Option.some.inj returned]
          exact (List.append_nil _).symm
      | byte inchar =>
          rw [LibUseful.streamReadToMultiTerminator]
          split
          next zero =>
            obtain ⟨chunk, split, read⟩ := inductionHypothesis retStr
            refine ⟨inchar :: chunk, congrArg (inchar :: ·) split, fun text returned => ?_⟩
            rw [read text returned]
            simp [visible, zero]
          next solid =>
            have kept : visible [inchar] = [inchar] := by simp [visible, solid]
            split
            next =>
              refine ⟨[inchar], rfl, fun text returned => ?_⟩
              rw [kept]
              exact (Option.some.inj returned).symm
            next =>
              obtain ⟨chunk, split, read⟩ := inductionHypothesis (retStr ++ [inchar])
              refine ⟨inchar :: chunk, congrArg (inchar :: ·) split, fun text returned => ?_⟩
              have both := visible_append [inchar] chunk
              rw [kept] at both
              rw [read text returned, List.append_assoc, ← both]
              rfl

/-- What the reads take has the last string in it. -/
theorem charsOf_leftAfter {answers : List CPtr} {events left : List ReadEvent}
    (leaves : leftAfter answers events = some left) :
    ∃ chunk, charsOf events = chunk ++ charsOf left ∧
      ∀ text, answers.getLast? = some (some text) → text <:+: visible chunk := by
  induction answers generalizing events with
  | nil =>
      obtain rfl := Option.some.inj leaves
      exact ⟨[], rfl, by simp⟩
  | cons answer rest inductionHypothesis =>
      obtain ⟨first, split, read⟩ := charsOf_read [] events
      simp only [leftAfter] at leaves
      split at leaves
      next same =>
        obtain ⟨chunk, later, isLast⟩ := inductionHypothesis leaves
        refine ⟨first ++ chunk, by rw [split, later, List.append_assoc], fun text last => ?_⟩
        rw [visible_append]
        cases rest with
        | nil =>
            obtain rfl := Option.some.inj last
            have whole := read text same
            rw [List.nil_append] at whole
            rw [whole]
            exact (List.prefix_append _ _).isInfix
        | cons next rest =>
            rw [List.getLast?_cons_cons] at last
            exact (isLast text last).trans (List.suffix_append _ _).isInfix
      next => cases leaves

/-- A shell's text that holds what it has not printed for some lines goes beyond
what it prints for them. -/
theorem printed_of_fresh {shell : RemoteShell} {lines all : Nat} {taken key : CString}
    (inOrder : taken <+: shell.printed all) (fresh : ¬ key <:+: visible (shell.printed lines))
    (read : key <:+: visible taken) : shell.printed lines <+: taken := by
  have goesOn : shell.printed all <+: shell.printed (max lines all) :=
    shell.printed_prefix (Nat.le_max_right ..)
  rcases List.prefix_or_prefix_of_prefix (inOrder.trans goesOn)
    (shell.printed_prefix (Nat.le_max_left ..)) with behind | ahead
  · exact absurd (read.trans (behind.filter _).isInfix) fresh
  · exact ahead

theorem stripped_isInfix (text : CString) : stripped text <:+: text :=
  (List.dropWhile_suffix _).isInfix.trans (List.rdropWhile_prefix ..).isInfix

/-! ## Runs of `SSHVpnSync` -/

/-- Every key has a line of its own, and the loop has ended: with the stream, at
the user's wish or with the last key, of which `key` is the one before `made`. -/
structure Looped (key : CString) (made : History Answer) : Prop where
  lines : linesSent made = (keysSent made).map syncLine
  ended : (linesReadOf made).getLast? = some none ∨ ⟨.flagExit, true⟩ ∈ made ∨
    ∃ text, (linesReadOf made).getLast? = some (some text) ∧
      (key :: keysSent made).getLast? = some (stripped text)

theorem linesReadOf_append (first second : History Answer) :
    linesReadOf (first ++ second) = linesReadOf first ++ linesReadOf second :=
  List.filterMap_append ..

theorem keysSent_append (first second : History Answer) :
    keysSent (first ++ second) = keysSent first ++ keysSent second := List.filterMap_append ..

theorem linesSent_append (first second : History Answer) :
    linesSent (first ++ second) = linesSent first ++ linesSent second := List.filterMap_append ..

/-- A round in front of the rest of the loop. -/
theorem Looped.before {key later : CString} {made more : History Answer}
    (lines : linesSent made = (keysSent made).map syncLine)
    (current : (key :: keysSent made).getLast? = some later) (looped : Looped later more) :
    Looped key (made ++ more) where
  lines := by rw [linesSent_append, keysSent_append, lines, looped.lines, List.map_append]
  ended := by
    have newest : (key :: keysSent (made ++ more)).getLast? =
        (later :: keysSent more).getLast? := by
      obtain ⟨front, split⟩ := List.getLast?_eq_some_iff.mp current
      rw [keysSent_append, ← List.cons_append, split, List.append_assoc,
        List.getLast?_append_of_ne_nil _ (by simp)]
      rfl
    have last : ∀ answer, (linesReadOf more).getLast? = some answer →
        (linesReadOf (made ++ more)).getLast? = some answer := by
      intro answer isLast
      rw [linesReadOf_append, List.getLast?_append, isLast, Option.some_or]
    rcases looped.ended with closed | exits | ⟨text, read, isKey⟩
    · exact .inl (last _ closed)
    · exact .inr (.inl (List.mem_append_right _ exits))
    · exact .inr (.inr ⟨text, last _ read, newest.trans isKey⟩)

theorem sshVpnSendSync_yields : sshVpnSendSync.Yields fun key made =>
    made = [⟨.randomKey, key⟩, ⟨.streamWriteLine .ssh (syncLine key), ()⟩] := by
  refine Ends.bind (Ends.asked _) fun key asked isAsked => ?_
  refine Ends.bind (Ends.asked _) fun _ wrote isWritten => ?_
  obtain rfl := isAsked
  obtain rfl := isWritten
  exact Ends.pure rfl

/-- The loop of `SSHVpnSync`. -/
theorem syncLoop_yields (fuel : Nat) (key : CString) :
    (Process.loop (fun key => do
      match ← streamReadToMultiTerminator .ssh with
      | none => pure (.inr ())
      | some [] => return .inl (← sshVpnSendSync)
      | some text =>
          if stripLeadingWhitespace (stripTrailingWhitespace text) = key then pure (.inr ())
          else if ← exiting then pure (.inr ())
          else pure (.inl key) : CString → Driver (CString ⊕ Unit)) fuel key).Yields
      fun _ made => Looped key made := by
  refine @Ends.loop_from _ _ _ _ _ (fun key _ made => Looped key made) (fun _ _ => True)
    (fun key => ?_) fuel key
  refine Ends.bind (Ends.asked _) fun answer asked isAsked => ?_
  obtain rfl := isAsked
  rcases answer with _ | _ | ⟨head, tail⟩
  · exact Ends.pure ⟨rfl, .inl rfl⟩
  · refine Ends.bind sshVpnSendSync_yields fun later sent isSent => ?_
    obtain rfl := isSent
    exact Ends.pure ⟨fun _ more looped => looped.before rfl rfl, fun _ _ => trivial⟩
  · refine Ends.ite (fun isKey => ?_) fun notKey => ?_
    · exact Ends.pure ⟨rfl, .inr (.inr ⟨_, rfl, congrArg some isKey.symm⟩)⟩
    · refine Ends.bind (Ends.asked _) fun exits flag isFlag => ?_
      obtain rfl := isFlag
      cases exits with
      | true => exact Ends.pure ⟨rfl, .inr (.inl (by simp))⟩
      | false => exact Ends.pure ⟨fun _ more looped => looped.before rfl rfl, fun _ _ => trivial⟩

/-- Why a synchronisation ends: the stream is closed, `FLAG_EXIT` is set, or the
last string read is the last key sent. -/
def Finished (made : History Answer) : Prop :=
  (linesReadOf made).getLast? = some none ∨ ⟨.flagExit, true⟩ ∈ made ∨ Matched made

theorem sshVpnSync_yields (fuel : Nat) : (sshVpnSync fuel).Yields fun _ made =>
    linesSent made = (keysSent made).map syncLine ∧ Finished made := by
  refine Ends.bind sshVpnSendSync_yields fun key sent isSent => ?_
  obtain rfl := isSent
  refine Ends.bind (syncLoop_yields fuel key) fun _ made looped => ?_
  refine Ends.bind (Ends.asked _) fun bytes drain isDrain => ?_
  obtain rfl := isDrain
  have lines : linesSent ([⟨.randomKey, key⟩, ⟨.streamWriteLine .ssh (syncLine key), ()⟩] ++
      (made ++ ([⟨.streamReadBytes .ssh, bytes⟩] ++ []))) = syncLine key :: linesSent made := by
    rw [linesSent_append, linesSent_append]
    exact congrArg (syncLine key :: ·) (List.append_nil _)
  have keys : keysSent ([⟨.randomKey, key⟩, ⟨.streamWriteLine .ssh (syncLine key), ()⟩] ++
      (made ++ ([⟨.streamReadBytes .ssh, bytes⟩] ++ []))) = key :: keysSent made := by
    rw [keysSent_append, keysSent_append]
    exact congrArg (key :: ·) (List.append_nil _)
  have reads : linesReadOf ([⟨.randomKey, key⟩, ⟨.streamWriteLine .ssh (syncLine key), ()⟩] ++
      (made ++ ([⟨.streamReadBytes .ssh, bytes⟩] ++ []))) = linesReadOf made := by
    rw [linesReadOf_append, linesReadOf_append]
    exact List.append_nil _
  refine Ends.pure ⟨by rw [lines, keys, looped.lines, List.map_cons], ?_⟩
  unfold Finished Matched
  rw [reads, keys]
  rcases looped.ended with closed | exits | matched
  · exact .inl closed
  · exact .inr (.inl (by simp [exits]))
  · exact .inr (.inr matched)

/-- `SSHVpnSync` sends a line for each key.  If it returns for the key it sent
last, then all is consumed that the shell printed in answer to the lines before
that key's line; the shell answers its lines in order, and a key is not in what
it printed before it got the key's line. -/
theorem sshVpnSync_synchronises (fuel : Nat) (env : Environment Answer)
    (before made : History Answer)
    (run : sshVpnSync fuel env before = some (.returned (), before ++ made))
    (shell : RemoteShell) (sent all : Nat) (consumed : CString) (events left : List ReadEvent)
    (inOrder : consumed ++ charsOf events <+: shell.printed all)
    (leaves : leftAfter (linesReadOf made) events = some left)
    (fresh : ∀ k key, (keysSent made)[k]? = some key →
      ¬ key <:+: visible (shell.printed (sent + k))) :
    linesSent made = (keysSent made).map syncLine ∧ Finished made ∧
      (Matched made → ∃ taken,
        consumed ++ charsOf events = taken ++ (charsOf left).drop (drained made) ∧
          shell.printed (sent + ((keysSent made).length - 1)) <+: taken) := by
  obtain ⟨_, split, lines, finished⟩ := sshVpnSync_yields fuel env before _ _ run
  obtain rfl := List.append_cancel_left split
  refine ⟨lines, finished, ?_⟩
  rintro ⟨text, isLast, isKey⟩
  obtain ⟨chunk, whole, inside⟩ := charsOf_leftAfter leaves
  have key : (keysSent made)[(keysSent made).length - 1]? = some (stripped text) := by
    rw [← List.getLast?_eq_getElem?, isKey]
  have read : stripped text <:+: visible (consumed ++ chunk) := by
    rw [visible_append]
    exact ((stripped_isInfix text).trans (inside text isLast)).trans (List.suffix_append _ _).isInfix
  have taken : consumed ++ chunk <+: shell.printed all := by
    refine List.IsPrefix.trans ?_ inOrder
    rw [whole, ← List.append_assoc]
    exact List.prefix_append _ _
  have answered := printed_of_fresh taken (fresh _ _ key) read
  refine ⟨consumed ++ chunk ++ (charsOf left).take (drained made), ?_, ?_⟩
  · rw [whole, List.append_assoc, List.append_assoc, List.take_append_drop]
  · exact answered.trans (List.prefix_append _ _)

/-- A host that gives these keys and strings one after the other. -/
def scriptedHost (keys texts : List CString) : Environment Answer
  | history, .randomKey => (keys[(keysSent history).length]?).getD []
  | history, .streamReadToMultiTerminator .ssh => texts[(linesReadOf history).length]?
  | history, call => obligingHost history call

def firstKey : CString := "XwtBqLmnoPaRzKdu".toList

def laterKey : CString := "mKdPzeVhYaGTcsJi".toList

/-- The answer to the first key is late: it is read before that to the second. -/
def lateShell : RemoteShell
  | 0 => "hi\r\n".toList
  | 1 => firstKey ++ "\r\n".toList
  | 2 => laterKey ++ "\r\n".toList
  | _ => []

def lateEvents : List ReadEvent := .timeout :: bytesOf (lateShell.printed 2)

def lateTexts : List CString :=
  [[], "hi\r".toList, "\n".toList, firstKey ++ "\r".toList, "\n".toList, laterKey ++ "\r".toList]

theorem sshVpnSync_synchronises_late :
    ∃ made, sshVpnSync 9 (scriptedHost [firstKey, laterKey] lateTexts) [] =
        some (.returned (), made) ∧
      ∃ taken, charsOf lateEvents = taken ++ "\n".toList ∧
        lateShell.printed 1 <+: taken := by
  have run : (sshVpnSync 9 (scriptedHost [firstKey, laterKey] lateTexts) []).map
      (fun ended => (ended.1, linesReadOf ended.2, keysSent ended.2, drained ended.2)) =
        some (.returned (), lateTexts.map some, [firstKey, laterKey], 0) := by decide
  obtain ⟨⟨ending, made⟩, ended, read⟩ := Option.map_eq_some_iff.mp run
  obtain ⟨rfl, reads, keys, drain⟩ := by simpa only [Prod.mk.injEq] using read
  refine ⟨made, ended, ?_⟩
  have all := sshVpnSync_synchronises 9 _ [] made ended lateShell 0 2 [] lateEvents
    (bytesOf "\n".toList) (by decide) (by rw [reads]; decide) ?_
  · have matched : Matched made := ⟨laterKey ++ "\r".toList, by rw [reads]; rfl, by rw [keys]; decide⟩
    rw [drain, keys, List.nil_append] at all
    exact all.2.2 matched
  · rw [keys]
    rintro (_ | _ | k) key isKey
    · obtain rfl : firstKey = key := Option.some.inj isKey
      decide +kernel
    · obtain rfl : laterKey = key := Option.some.inj isKey
      decide +kernel
    · cases isKey

end VpnMgr.Client
