import VpnMgr.Shell.Blanks

/-!
# Texts that only add arguments

A text that is read behind a program's name as more words of the same command,
whatever stands before it.
-/

namespace VpnMgr.Shell

open Machine

/-- Behind a finished first word the text adds to the command: no second
command, no open quote, no expansion. -/
def Arguments (text : List Char) : Prop :=
  ∀ (lexer : Lexer) (name : Word) (more : List Word), lexer.quoted = false →
    lexer.words = name :: more →
      ∃ final, run lexStep lexer text = some final ∧ final.quoted = false ∧
        final.commands = lexer.commands ∧ ∃ added, final.words = name :: added

def isHarmless (c : Char) : Bool := isBare c || isBlank c

namespace Arguments

variable {first second text : List Char} {c : Char}

theorem nil : Arguments [] := fun lexer _ more unquoted words =>
  ⟨lexer, rfl, unquoted, rfl, more, words⟩

theorem append (arguments : Arguments first) (continued : Arguments second) :
    Arguments (first ++ second) := by
  intro lexer name more unquoted words
  obtain ⟨middle, taken, closed, sameCommands, added, isAdded⟩ :=
    arguments lexer name more unquoted words
  obtain ⟨final, takenMore, closedMore, same, addedMore, isAddedMore⟩ :=
    continued middle name added closed isAdded
  refine ⟨final, ?_, closedMore, same.trans sameCommands, addedMore, isAddedMore⟩
  rw [run_append, taken, Option.bind_some, takenMore]

theorem blank (isBlank : isBlank c = true) : Arguments [c] := by
  intro lexer name more unquoted words
  refine ⟨lexer.endWord, ?_, ?_, ?_, ?_⟩
  · rw [run, lexStep_blank unquoted isBlank, Option.bind_some, run_nil]
  · rwa [Lexer.endWord_quoted]
  · unfold Lexer.endWord
    split <;> rfl
  · unfold Lexer.endWord
    split
    next => exact ⟨more, words⟩
    next word current => exact ⟨more ++ [word], by simp [words]⟩

theorem bare (isBare : isBare c = true) : Arguments [c] := by
  intro lexer name more unquoted words
  simp only [Shell.isBare, Bool.and_eq_true, Bool.not_eq_true'] at isBare
  refine ⟨lexer.put c, ?_, unquoted, rfl, more, words⟩
  rw [run, lexStep_inert unquoted isBare.1 fun _ => isBare.2, Option.bind_some, run_nil]

theorem of_harmless (harmless : ∀ c ∈ text, isHarmless c = true) : Arguments text := by
  induction text with
  | nil => exact nil
  | cons c rest inductionHypothesis =>
      have here : Arguments [c] := by
        rcases Bool.or_eq_true_iff.mp (harmless c List.mem_cons_self) with isBare | isBlank
        · exact bare isBare
        · exact blank isBlank
      exact here.append (inductionHypothesis fun d inside => harmless d (List.mem_cons_of_mem _ inside))

/-- Everything but a quote is read as it is between quotes. -/
theorem quoted (noQuote : '\'' ∉ text) : Arguments ('\'' :: text ++ ['\'']) := by
  have inside : ∀ (rest : List Char) (lexer : Lexer), '\'' ∉ rest → lexer.quoted = true →
      ∃ final, run lexStep lexer rest = some final ∧ final.quoted = true ∧
        final.commands = lexer.commands ∧ final.words = lexer.words := by
    intro rest
    induction rest with
    | nil => exact fun lexer _ quoted => ⟨lexer, rfl, quoted, rfl, rfl⟩
    | cons c rest inductionHypothesis =>
        intro lexer noQuote quoted
        simp only [List.mem_cons, not_or] at noQuote
        obtain ⟨final, taken, stillQuoted, commands, words⟩ :=
          inductionHypothesis (lexer.put c) noQuote.2 quoted
        refine ⟨final, ?_, stillQuoted, commands, words⟩
        rw [run, lexStep_literal quoted (Ne.symm noQuote.1), Option.bind_some, taken]
  intro lexer name more unquoted words
  obtain ⟨final, taken, stillQuoted, sameCommands, sameWords⟩ :=
    inside text { lexer with word := some (lexer.word.getD []), quoted := true } noQuote rfl
  have opened : lexStep lexer '\'' =
      some { lexer with word := some (lexer.word.getD []), quoted := true } := by
    simp [lexStep, unquoted]
  have closed : lexStep final '\'' = some { final with quoted := false } := by
    simp [lexStep, stillQuoted]
  refine ⟨{ final with quoted := false }, ?_, rfl, sameCommands, more, sameWords.trans words⟩
  rw [List.cons_append, run, opened, Option.bind_some, run_append, taken, Option.bind_some, run,
    closed, Option.bind_some, run_nil]

end Arguments

/-- A program's name and such a text are one command of this program. -/
theorem simpleCommands_arguments {name : Word} {text : List Char}
    (plain : isPlainWord name = true) (named : namesProgram [name] = true)
    (arguments : Arguments text) :
    ∃ added, simpleCommands (name ++ ' ' :: text) = some [name :: added] := by
  obtain ⟨final, taken, unquoted, noCommands, added, words⟩ :=
    arguments { words := [name] } name [] rfl rfl
  have started : run lexStep {} (name ++ ' ' :: text) = some final := by
    rw [run_append, run_plain [] [] plain, Option.bind_some, run]
    exact taken
  obtain ⟨all, ended⟩ : ∃ all, final.endWord.words = name :: all := by
    unfold Lexer.endWord
    split
    next => exact ⟨added, words⟩
    next word current => exact ⟨added ++ [word], by simp [words]⟩
  have sameCommands : final.endWord.commands = [] := by
    unfold Lexer.endWord
    split <;> exact noCommands
  have finished : final.finish = some [name :: all] := by
    simp [Lexer.finish, unquoted, ended, Lexer.endCommand, sameCommands]
  have alsoNamed : namesProgram (name :: all) = true := named
  exact ⟨all, by simp [simpleCommands, started, finished, alsoNamed]⟩

end VpnMgr.Shell
