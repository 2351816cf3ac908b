import VpnMgr.Shell.Words

/-!
# A command inside another pair of single quotes

When a line is put between single quotes, its own quotes close and reopen the
outer pair.  What the outer shell passes on is the line without its quotes;
an inner shell reads the same words from it exactly when no word needed them.
-/

namespace VpnMgr.Shell

open Machine

/-- A word that is read the same with and without quotes around it. -/
def isPlainWord (word : Word) : Bool :=
  !word.isEmpty && word.all isInert && !word.head?.any isLeader

theorem isPlainWord_iff (word : Word) :
    isPlainWord word = true ↔
      word ≠ [] ∧ (∀ c ∈ word, isInert c = true) ∧ ∀ c, word.head? = some c → isLeader c = false := by
  cases word with
  | nil => simp [isPlainWord]
  | cons c rest => simp [isPlainWord, and_assoc]

theorem not_isPlainWord_nil : isPlainWord [] = false := rfl

/-- A plain word stays plain when an inert character follows; a first character
must not be a leader. -/
theorem isPlainWord_put {word : Word} {c : Char}
    (plain : word = [] ∧ isLeader c = false ∨ isPlainWord word = true)
    (inert : isInert c = true) : isPlainWord (word ++ [c]) = true := by
  rcases plain with ⟨rfl, notLeader⟩ | plain
  · simp [isPlainWord, inert, notLeader]
  · obtain ⟨nonempty, allInert, notLeader⟩ := (isPlainWord_iff word).mp plain
    refine (isPlainWord_iff _).mpr ⟨by simp, fun d membership => ?_, fun d head => ?_⟩
    · rcases List.mem_append.mp membership with before | last
      · exact allInert d before
      · exact List.mem_singleton.mp last ▸ inert
    · cases word with
      | nil => exact absurd rfl nonempty
      | cons first rest => exact notLeader d head

theorem run_inside_quotes (commands : List (List Word)) (words : List Word) (word : Word)
    {text : List Char} (noQuote : '\'' ∉ text) :
    run lexStep { commands, words, word := some word, quoted := true } text =
      some { commands, words, word := some (word ++ text), quoted := true } := by
  induction text generalizing word with
  | nil => simp
  | cons c rest inductionHypothesis =>
      simp only [List.mem_cons, not_or] at noQuote
      have step : lexStep { commands, words, word := some word, quoted := true } c =
          some { commands, words, word := some (word ++ [c]), quoted := true } :=
        lexStep_literal rfl (Ne.symm noQuote.1)
      simp only [run, step, Option.bind_some, inductionHypothesis (word ++ [c]) noQuote.2,
        List.append_assoc, List.singleton_append]

theorem run_quoted (commands : List (List Word)) (words : List Word) {text : List Char}
    (noQuote : '\'' ∉ text) :
    run lexStep { commands, words } ('\'' :: (text ++ ['\''])) =
      some { commands, words, word := some text } := by
  have opened : lexStep { commands, words } '\'' =
      some { commands, words, word := some [], quoted := true } := rfl
  have closed : lexStep { commands, words, word := some text, quoted := true } '\'' =
      some { commands, words, word := some text } := rfl
  simp only [run, opened, Option.bind_some, run_append, run_inside_quotes commands words [] noQuote,
    List.nil_append, closed]

theorem run_plain (commands : List (List Word)) (words : List Word) {text : List Char}
    (plain : isPlainWord text = true) :
    run lexStep { commands, words } text = some { commands, words, word := some text } := by
  obtain ⟨nonempty, allInert, notLeader⟩ := (isPlainWord_iff text).mp plain
  have continued : ∀ (rest before : List Char), (∀ c ∈ rest, isInert c = true) →
      run lexStep { commands, words, word := some before } rest =
        some { commands, words, word := some (before ++ rest) } := by
    intro rest
    induction rest with
    | nil => simp
    | cons c rest inductionHypothesis =>
        intro before inert
        have step : lexStep { commands, words, word := some before } c =
            some { commands, words, word := some (before ++ [c]) } :=
          lexStep_inert rfl (inert c (by simp)) (by simp)
        simp only [run, step, Option.bind_some,
          inductionHypothesis (before ++ [c]) fun d membership => inert d (by simp [membership]),
          List.append_assoc, List.singleton_append]
  cases text with
  | nil => exact absurd rfl nonempty
  | cons c rest =>
      have step : lexStep { commands, words } c = some { commands, words, word := some [c] } :=
        lexStep_inert rfl (allInert c (by simp)) fun _ => notLeader c rfl
      simp only [run, step, Option.bind_some,
        continued rest [c] fun d membership => allInert d (by simp [membership]),
        List.singleton_append]

def quotedField (field : List Char) : List Char := ' ' :: '\'' :: (field ++ ['\''])

theorem run_quotedFields (words : List Word) (word : Word) {fields : List (List Char)}
    (noQuote : ∀ field ∈ fields, '\'' ∉ field) :
    (run lexStep { words, word := some word } (fields.flatMap quotedField)).bind Lexer.finish =
      some [words ++ word :: fields] := by
  induction fields generalizing words word with
  | nil => simp [Lexer.finish, Lexer.endCommand, Lexer.endWord]
  | cons field rest inductionHypothesis =>
      have blank : lexStep { words, word := some word } ' ' = some { words := words ++ [word] } :=
        rfl
      have quoted := run_quoted [] (words ++ [word]) (noQuote field List.mem_cons_self)
      have remaining := inductionHypothesis (words ++ [word]) field
        fun other membership => noQuote other (List.mem_cons_of_mem _ membership)
      rw [List.flatMap_cons, quotedField, List.cons_append, run, blank, Option.bind_some,
        run_append, quoted, Option.bind_some, remaining]
      simp

theorem simpleCommands_quotedFields {program : Word} {fields : List (List Char)}
    (plain : isPlainWord program = true) (named : namesProgram [program] = true)
    (noQuote : ∀ field ∈ fields, '\'' ∉ field) :
    simpleCommands (program ++ fields.flatMap quotedField) = some [program :: fields] := by
  have started := run_plain [] [] plain
  have alsoNamed : namesProgram (program :: fields) = true := named
  rw [simpleCommands, run_append, started, Option.bind_some, run_quotedFields [] program noQuote]
  simp [alsoNamed]

/-! ## Words read without quotes -/

variable {lexer next : Lexer} {c : Char}

theorem noQuote_step (stepped : lexStep lexer c = some next)
    (noQuote : lexer.All (fun word => '\'' ∉ word)) : next.All (fun word => '\'' ∉ word) := by
  have extended : c ≠ '\'' → '\'' ∉ lexer.word.getD [] ++ [c] := by
    intro notQuote membership
    rcases List.mem_append.mp membership with before | last
    · cases current : lexer.word with
      | none => simp [current] at before
      | some word => exact noQuote.word word current (by simpa [current] using before)
    · exact notQuote (List.mem_singleton.mp last).symm
  cases lexStep_sound stepped with
  | close => exact ⟨noQuote.commands, noQuote.words, noQuote.word⟩
  | literal quoted notQuote => exact noQuote.put (extended notQuote)
  | openQuote =>
      refine ⟨noQuote.commands, noQuote.words, fun word current => ?_⟩
      obtain rfl := Option.some.inj current
      cases shape : lexer.word with
      | none => simp
      | some word => simpa using noQuote.word word shape
  | blank => exact noQuote.endWord
  | blankLine => exact noQuote.endWord
  | separator => exact noQuote.endCommand
  | inert unquoted inert => exact noQuote.put (extended (not_quote_of_isInert inert))

theorem noQuote_of_simpleCommands {line : List Char} {commands : List (List Word)}
    (read : simpleCommands line = some commands) :
    ∀ command ∈ commands, ∀ word ∈ command, '\'' ∉ word := by
  obtain ⟨⟨final, taken, finished⟩, -⟩ := simpleCommands_finish read
  have initial : ({} : Lexer).All (fun word => '\'' ∉ word) := ⟨by simp, by simp, by simp⟩
  have noQuote := run_invariant_of_step
    (fun _ _ _ stepped => noQuote_step stepped) line taken initial
  exact noQuote.finish finished

structure Unquoted (lexer : Lexer) : Prop where
  unquoted : lexer.quoted = false
  plain : lexer.All (fun word => isPlainWord word = true)

theorem Lexer.endWord_quoted (lexer : Lexer) : lexer.endWord.quoted = lexer.quoted := by
  unfold Lexer.endWord
  split <;> rfl

theorem Unquoted.step (stepped : lexStep lexer c = some next) (notQuote : c ≠ '\'')
    (before : Unquoted lexer) : Unquoted next := by
  have ended : lexer.endWord.quoted = false := by rw [Lexer.endWord_quoted, before.unquoted]
  cases lexStep_sound stepped with
  | close quoted => exact absurd quoted (by simp [before.unquoted])
  | literal quoted => exact absurd quoted (by simp [before.unquoted])
  | openQuote unquoted quote => exact absurd quote notQuote
  | blank => exact ⟨ended, before.plain.endWord⟩
  | blankLine => exact ⟨ended, before.plain.endWord⟩
  | separator => exact ⟨ended, before.plain.endCommand⟩
  | inert unquoted inert inside =>
      refine ⟨unquoted, before.plain.put (isPlainWord_put ?_ inert)⟩
      cases current : lexer.word with
      | none => exact .inl ⟨rfl, inside current⟩
      | some word => exact .inr (before.plain.word word current)

/-- A line without single quotes has plain words only. -/
theorem plain_of_noQuote {line : List Char} {commands : List (List Word)}
    (noQuote : '\'' ∉ line) (read : simpleCommands line = some commands) :
    ∀ command ∈ commands, ∀ word ∈ command, isPlainWord word = true := by
  obtain ⟨⟨final, taken, finished⟩, -⟩ := simpleCommands_finish read
  have reached : ∀ (rest : List Char) (lexer : Lexer), '\'' ∉ rest → Unquoted lexer →
      run lexStep lexer rest = some final → Unquoted final := by
    intro rest
    induction rest with
    | nil =>
        intro lexer _ before taken
        obtain rfl := Option.some.inj taken
        exact before
    | cons c rest inductionHypothesis =>
        intro lexer noQuote before taken
        obtain ⟨next, stepped, remaining⟩ := run_cons taken
        simp only [List.mem_cons, not_or] at noQuote
        have after := before.step stepped (Ne.symm noQuote.1)
        exact inductionHypothesis next noQuote.2 after remaining
  have initial : Unquoted {} := ⟨rfl, ⟨by simp, by simp, by simp⟩⟩
  exact (reached line {} noQuote initial taken).plain.finish finished

/-! ## Reading a line inside a quote -/

structure PlainSoFar (lexer : Lexer) : Prop where
  commands : ∀ command ∈ lexer.commands, ∀ word ∈ command, isPlainWord word = true
  words : ∀ word ∈ lexer.words, isPlainWord word = true
  word : ∀ word, lexer.word = some word → word = [] ∨ isPlainWord word = true

theorem PlainSoFar.of_all (all : lexer.All (fun word => isPlainWord word = true)) :
    PlainSoFar lexer :=
  ⟨all.commands, all.words, fun word current => .inr (all.word word current)⟩

theorem Lexer.All.of_endWord {property : Word → Prop} (ended : lexer.endWord.All property) :
    lexer.All property := by
  unfold Lexer.endWord at ended
  split at ended
  next => exact ended
  next word current =>
    refine ⟨ended.commands, fun other membership => ?_, fun other shape => ?_⟩
    · exact ended.words other (List.mem_append_left _ membership)
    · obtain rfl := Option.some.inj (current.symm.trans shape)
      exact ended.words _ (by simp)

theorem isPlainWord_of_put {word : Word} (plain : isPlainWord (word ++ [c]) = true) :
    isInert c = true ∧ (word = [] ∧ isLeader c = false ∨ isPlainWord word = true) := by
  obtain ⟨-, allInert, notLeader⟩ := (isPlainWord_iff _).mp plain
  refine ⟨allInert c (by simp), ?_⟩
  cases word with
  | nil => exact .inl ⟨rfl, notLeader c rfl⟩
  | cons first rest =>
      refine .inr ((isPlainWord_iff _).mpr ⟨by simp, fun d membership => ?_, notLeader⟩)
      exact allInert d (List.mem_append_left _ membership)

theorem PlainSoFar.of_put (after : PlainSoFar (lexer.put c)) :
    PlainSoFar lexer ∧ isInert c = true ∧
      (lexer.word.getD [] = [] → isLeader c = false) := by
  have plain : isPlainWord (lexer.word.getD [] ++ [c]) = true :=
    (after.word _ rfl).resolve_left (by simp)
  obtain ⟨inert, before⟩ := isPlainWord_of_put plain
  refine ⟨⟨after.commands, after.words, fun word current => ?_⟩, inert, fun empty => ?_⟩
  · simp only [current, Option.getD_some] at before
    exact before.imp_left And.left
  · rcases before with ⟨-, notLeader⟩ | plainBefore
    · exact notLeader
    · simp [empty, isPlainWord] at plainBefore

theorem PlainSoFar.of_endWord (after : PlainSoFar lexer.endWord) :
    lexer.All (fun word => isPlainWord word = true) := by
  have ended : lexer.endWord.word = none := by
    unfold Lexer.endWord
    split
    next none => exact none
    next => rfl
  exact .of_endWord ⟨after.commands, after.words, fun word current => by simp [ended] at current⟩

theorem PlainSoFar.of_endCommand (after : PlainSoFar lexer.endCommand) :
    lexer.All (fun word => isPlainWord word = true) := by
  refine PlainSoFar.of_endWord ⟨fun command membership => ?_, fun word membership => ?_, after.word⟩
  · exact after.commands command (List.mem_append_left _ membership)
  · exact after.commands lexer.endWord.words (by simp [Lexer.endCommand]) word membership

theorem PlainSoFar.of_step (stepped : lexStep lexer c = some next) (after : PlainSoFar next) :
    PlainSoFar lexer := by
  cases lexStep_sound stepped with
  | close => exact ⟨after.commands, after.words, after.word⟩
  | literal => exact after.of_put.1
  | openQuote =>
      refine ⟨after.commands, after.words, fun word current => ?_⟩
      exact after.word word (by simp [current])
  | blank => exact .of_all after.of_endWord
  | blankLine => exact .of_all after.of_endWord
  | separator => exact .of_all after.of_endCommand
  | inert => exact after.of_put.1

theorem PlainSoFar.of_run {final : Lexer} (rest : List Char)
    (taken : run lexStep lexer rest = some final) (after : PlainSoFar final) :
    PlainSoFar lexer := by
  induction rest generalizing lexer with
  | nil =>
      obtain rfl := Option.some.inj taken
      exact after
  | cons c rest inductionHypothesis =>
      obtain ⟨next, stepped, remaining⟩ := run_cons taken
      exact .of_step stepped (inductionHypothesis remaining)

def outside (head : List Word) (script : Word) (quoted : Bool) : Lexer :=
  { words := head, word := some script, quoted }

/-- The inner shell reads what the bare line reads, after one earlier command,
except that it does not see an empty quoted text. -/
structure Shadow (first : List Word) (bare inner : Lexer) : Prop where
  unquoted : inner.quoted = false
  commands : inner.commands = first :: bare.commands
  words : inner.words = bare.words
  word : inner.word = bare.word ∨ inner.word = none ∧ bare.word = some []

variable {first : List Word} {bare bare' inner : Lexer}

theorem Shadow.getD (shadow : Shadow first bare inner) :
    inner.word.getD [] = bare.word.getD [] := by
  rcases shadow.word with same | ⟨none, empty⟩
  · rw [same]
  · simp [none, empty]

theorem Shadow.endWord (shadow : Shadow first bare inner)
    (plain : bare.All (fun word => isPlainWord word = true)) :
    Shadow first bare.endWord inner.endWord ∧ inner.word = bare.word := by
  have same : inner.word = bare.word := by
    rcases shadow.word with same | ⟨-, empty⟩
    · exact same
    · exact absurd (plain.word [] empty) (by simp [not_isPlainWord_nil])
  refine ⟨?_, same⟩
  cases current : bare.word with
  | none =>
      rw [current] at same
      simpa [Lexer.endWord, current, same] using shadow
  | some word =>
      rw [current] at same
      simp only [Lexer.endWord, current, same]
      exact ⟨shadow.unquoted, shadow.commands, by rw [shadow.words], .inl rfl⟩

theorem Shadow.endCommand (shadow : Shadow first bare inner)
    (plain : bare.All (fun word => isPlainWord word = true)) :
    Shadow first bare.endCommand inner.endCommand := by
  obtain ⟨ended, -⟩ := shadow.endWord plain
  refine ⟨ended.unquoted, ?_, rfl, ended.word⟩
  simp [Lexer.endCommand, ended.commands, ended.words]

theorem Shadow.put (shadow : Shadow first bare inner) :
    Shadow first (bare.put c) (inner.put c) :=
  ⟨shadow.unquoted, shadow.commands, shadow.words, .inl (by simp [Lexer.put, shadow.getD])⟩

theorem outside_literal (head : List Word) (script : Word) (notQuote : c ≠ '\'') :
    lexStep (outside head script true) c = some (outside head (script ++ [c]) true) :=
  lexStep_literal rfl notQuote

/-- One character of the line: the outer shell adds it to the script, or drops
it when it is a quote, and the inner shell follows the bare reading. -/
theorem nested_step (head : List Word) (script : Word)
    (stepped : lexStep bare c = some bare') (plain : PlainSoFar bare')
    (shadow : Shadow first bare inner) :
    ∃ part inner', lexStep (outside head script !bare.quoted) c =
        some (outside head (script ++ part) !bare'.quoted) ∧
      run lexStep inner part = some inner' ∧ Shadow first bare' inner' := by
  cases lexStep_sound stepped with
  | close quoted quote =>
      subst quote
      refine ⟨[], inner, ?_, rfl, shadow.unquoted, shadow.commands, shadow.words, shadow.word⟩
      simp [lexStep, outside, quoted]
  | literal quoted notQuote =>
      obtain ⟨-, inert, notLeader⟩ := plain.of_put
      have outer : lexStep (outside head script false) c =
          some (outside head (script ++ [c]) false) := lexStep_inert rfl inert (by simp [outside])
      have step : lexStep inner c = some (inner.put c) :=
        lexStep_inert shadow.unquoted inert fun none => notLeader (by simp [← shadow.getD, none])
      refine ⟨[c], inner.put c, ?_, by simp [run, step], shadow.put⟩
      simpa [Lexer.put, quoted] using outer
  | openQuote unquoted quote =>
      subst quote
      refine ⟨[], inner, ?_, rfl, shadow.unquoted, shadow.commands, shadow.words, ?_⟩
      · simp [lexStep, outside, unquoted]
      · rcases shadow.word with same | ⟨none, empty⟩
        · cases current : bare.word with
          | none => exact .inr ⟨same.trans current, rfl⟩
          | some word => exact .inl (same.trans current)
        · exact .inr ⟨none, by simp [empty]⟩
  | blank unquoted blank =>
      have outer := outside_literal head script (not_quote_of_isBlank blank)
      refine ⟨[c], inner.endWord, ?_, ?_, (shadow.endWord plain.of_endWord).1⟩
      · simpa [Lexer.endWord_quoted, unquoted] using outer
      · simp [run, lexStep_blank shadow.unquoted blank]
  | blankLine unquoted newline empty =>
      subst newline
      obtain ⟨ended, -⟩ := shadow.endWord plain.of_endWord
      have outer : lexStep (outside head script true) '\n' = _ :=
        outside_literal head script (by decide)
      refine ⟨['\n'], inner.endWord, ?_, ?_, ended⟩
      · simpa [Lexer.endWord_quoted, unquoted] using outer
      · simp [run, lexStep_blankLine shadow.unquoted (ended.words.trans empty)]
  | separator unquoted separator nonempty =>
      obtain ⟨ended, -⟩ := shadow.endWord plain.of_endCommand
      have outer := outside_literal head script (not_quote_of_isSeparator separator)
      have innerNonempty : inner.endWord.words ≠ [] := by rwa [ended.words]
      refine ⟨[c], inner.endCommand, ?_, ?_, shadow.endCommand plain.of_endCommand⟩
      · simpa [Lexer.endCommand, Lexer.endWord_quoted, unquoted] using outer
      · simp [run, lexStep_separator shadow.unquoted separator innerNonempty]
  | inert unquoted inert inside =>
      obtain ⟨-, -, notLeader⟩ := plain.of_put
      have outer := outside_literal head script (not_quote_of_isInert inert)
      have step : lexStep inner c = some (inner.put c) :=
        lexStep_inert shadow.unquoted inert fun none => notLeader (by simp [← shadow.getD, none])
      refine ⟨[c], inner.put c, ?_, by simp [run, step], shadow.put⟩
      simpa [Lexer.put, unquoted] using outer

/-- The whole line. -/
theorem nested_run (head : List Word) (script : Word) (line : List Char)
    (taken : run lexStep bare line = some bare') (plain : PlainSoFar bare')
    (shadow : Shadow first bare inner) :
    ∃ part inner', run lexStep (outside head script !bare.quoted) line =
        some (outside head (script ++ part) !bare'.quoted) ∧
      run lexStep inner part = some inner' ∧ Shadow first bare' inner' := by
  induction line generalizing bare inner script with
  | nil =>
      obtain rfl := Option.some.inj taken
      exact ⟨[], inner, by simp, rfl, shadow⟩
  | cons c rest inductionHypothesis =>
      obtain ⟨next, stepped, remaining⟩ := run_cons taken
      obtain ⟨part, inner', outer, read, between⟩ :=
        nested_step head script stepped (.of_run rest remaining plain) shadow
      obtain ⟨parts, inner'', outers, reads, after⟩ :=
        inductionHypothesis (script ++ part) remaining between
      refine ⟨part ++ parts, inner'', ?_, ?_, after⟩
      · simp [run, outer, outers]
      · simp [run_append, read, reads]

theorem Lexer.finish_cases {lexer : Lexer} {commands : List (List Word)}
    (finished : lexer.finish = some commands) :
    lexer.quoted = false ∧ (lexer.endWord.words = [] ∧ lexer.commands = commands ∨
      lexer.endWord.words ≠ [] ∧ lexer.endCommand.commands = commands) := by
  unfold Lexer.finish at finished
  split at finished
  next => exact absurd finished (by simp)
  next unquoted =>
    refine ⟨by simpa using unquoted, ?_⟩
    split at finished
    next empty => exact .inl ⟨empty, Option.some.inj finished⟩
    next nonempty => exact .inr ⟨nonempty, Option.some.inj finished⟩

theorem Lexer.All.of_finish {property : Word → Prop} {commands : List (List Word)}
    (finished : lexer.finish = some commands)
    (every : ∀ command ∈ commands, ∀ word ∈ command, property word) : lexer.All property := by
  have noCurrent : lexer.endWord.word = none := by
    unfold Lexer.endWord
    split
    next none => exact none
    next => rfl
  have kept : lexer.endWord.commands = lexer.commands := by
    unfold Lexer.endWord
    split <;> rfl
  refine .of_endWord ⟨?_, ?_, by simp [noCurrent]⟩
  · rw [kept]
    rcases (Lexer.finish_cases finished).2 with ⟨-, rfl⟩ | ⟨-, rfl⟩
    · exact every
    · intro command membership
      exact every command (List.mem_append_left _ (kept ▸ membership))
  · rcases (Lexer.finish_cases finished).2 with ⟨empty, -⟩ | ⟨-, rfl⟩
    · simp [empty]
    · exact every _ (by simp [Lexer.endCommand])

theorem Shadow.finish {commands : List (List Word)} (shadow : Shadow first bare inner)
    (finished : bare.finish = some commands)
    (plain : bare.All (fun word => isPlainWord word = true)) :
    inner.finish = some (first :: commands) := by
  obtain ⟨ended, -⟩ := shadow.endWord plain
  rcases (Lexer.finish_cases finished).2 with ⟨empty, rfl⟩ | ⟨nonempty, rfl⟩
  · simp [Lexer.finish, shadow.unquoted, ended.words, empty, shadow.commands]
  · simp [Lexer.finish, shadow.unquoted, ended.words, nonempty, (shadow.endCommand plain).commands]

/-- A line of plain words between the outer quotes: the outer shell reads one
script, which runs the same commands after its opening one. -/
theorem nested_simpleCommands {line opening : List Char} {commands : List (List Word)}
    (head : List Word) (opens : run lexStep {} opening = some { commands := [first] })
    (named : namesProgram first = true) (read : simpleCommands line = some commands)
    (plain : ∀ command ∈ commands, ∀ word ∈ command, isPlainWord word = true) :
    ∃ script, run lexStep (outside head opening true) line = some (outside head script true) ∧
      simpleCommands script = some (first :: commands) := by
  obtain ⟨⟨final, taken, finished⟩, allNamed⟩ := simpleCommands_finish read
  have allPlain : final.All (fun word => isPlainWord word = true) := .of_finish finished plain
  have initial : Shadow first {} { commands := [first] } := ⟨rfl, rfl, rfl, .inl rfl⟩
  obtain ⟨part, inner, outer, innerTaken, shadow⟩ :=
    nested_run head opening line taken (.of_all allPlain) initial
  have unquoted : final.quoted = false := (Lexer.finish_cases finished).1
  refine ⟨opening ++ part, by simpa [unquoted] using outer, ?_⟩
  have whole : run lexStep {} (opening ++ part) = some inner := by
    rw [run_append, opens, Option.bind_some, innerTaken]
  simpa [simpleCommands, whole, shadow.finish finished allPlain, named] using allNamed

def Lexer.after (earlier : List (List Word)) (lexer : Lexer) : Lexer :=
  { lexer with commands := earlier ++ lexer.commands }

@[simp]
theorem Lexer.after_put (earlier : List (List Word)) (lexer : Lexer) (c : Char) :
    (lexer.after earlier).put c = (lexer.put c).after earlier := rfl

@[simp]
theorem Lexer.after_endWord (earlier : List (List Word)) (lexer : Lexer) :
    (lexer.after earlier).endWord = lexer.endWord.after earlier := by
  obtain ⟨commands, words, word, quoted⟩ := lexer
  cases word <;> rfl

@[simp]
theorem Lexer.after_endCommand (earlier : List (List Word)) (lexer : Lexer) :
    (lexer.after earlier).endCommand = lexer.endCommand.after earlier := by
  unfold Lexer.endCommand
  rw [Lexer.after_endWord]
  simp [Lexer.after]

theorem lexStep_after (earlier : List (List Word)) (lexer : Lexer) (c : Char) :
    lexStep (lexer.after earlier) c = (lexStep lexer c).map (Lexer.after earlier) := by
  have quoted : (lexer.after earlier).quoted = lexer.quoted := rfl
  have word : (lexer.after earlier).word = lexer.word := rfl
  have words : (lexer.endWord.after earlier).words = lexer.endWord.words := rfl
  unfold lexStep
  simp only [quoted, word, Lexer.after_endWord, words, Lexer.after_endCommand, Lexer.after_put]
  repeat' split
  all_goals rfl

theorem run_after (earlier : List (List Word)) (lexer : Lexer) (line : List Char) :
    (run lexStep (lexer.after earlier) line).bind Lexer.finish =
      ((run lexStep lexer line).bind Lexer.finish).map fun commands => earlier ++ commands := by
  induction line generalizing lexer with
  | nil =>
      have quoted : (lexer.after earlier).quoted = lexer.quoted := rfl
      have words : (lexer.endWord.after earlier).words = lexer.endWord.words := rfl
      simp only [run_nil, Option.bind_some, Lexer.finish, Lexer.after_endWord, quoted, words,
        Lexer.after_endCommand]
      repeat' split
      all_goals rfl
  | cons c rest inductionHypothesis =>
      simp only [run, lexStep_after]
      cases lexStep lexer c with
      | none => rfl
      | some next => exact inductionHypothesis next

theorem outside_closed (head : List Word) (script : Word) {rest : List Char}
    {commands : List (List Word)} (read : (run lexStep {} rest).bind Lexer.finish = some commands) :
    (run lexStep (outside head script true) ('\'' :: ';' :: rest)).bind Lexer.finish =
      some ((head ++ [script]) :: commands) := by
  have close : lexStep (outside head script true) '\'' = some (outside head script false) := rfl
  have separate : lexStep (outside head script false) ';' =
      some (Lexer.after [head ++ [script]] {}) := by
    refine lexStep_separator rfl rfl ?_
    simp [outside, Lexer.endWord]
  simp only [run, close, separate, Option.bind_some, run_after, read, Option.map_some,
    List.singleton_append]

end VpnMgr.Shell
