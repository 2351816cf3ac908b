import VpnMgr.Machine.Run

/-!
# Words of a shell line

How a POSIX shell splits a line into simple commands and words, as far as
blanks, `;`, newlines and single quotes decide it.  A line with any other
active character has no words here.
-/

namespace VpnMgr.Shell

open Machine

abbrev Word := List Char

def isBlank (c : Char) : Bool := c = ' ' || c = '\t'

def isSeparator (c : Char) : Bool := c = ';' || c = '\n'

/-- Operators, expansions, patterns and the other quoting characters. -/
def isActive (c : Char) : Bool :=
  ['|', '&', '<', '>', '(', ')', '$', '`', '\\', '"', '*', '?', '['].contains c

/-- Characters with a meaning only at the start of a word. -/
def isLeader (c : Char) : Bool := c = '#' || c = '~'

/-- Characters that stand for themselves wherever they are. -/
def isInert (c : Char) : Bool :=
  !isBlank c && !isSeparator c && !isActive c && c != '\''

/-- The commands and words read so far, the word being read, and whether a
single quote is open. -/
structure Lexer where
  commands : List (List Word) := []
  words : List Word := []
  word : Option Word := none
  quoted : Bool := false
  deriving DecidableEq

namespace Lexer

def put (lexer : Lexer) (c : Char) : Lexer :=
  { lexer with word := some (lexer.word.getD [] ++ [c]) }

def endWord (lexer : Lexer) : Lexer :=
  match lexer.word with
  | none => lexer
  | some word => { lexer with words := lexer.words ++ [word], word := none }

def endCommand (lexer : Lexer) : Lexer :=
  let lexer := lexer.endWord
  { lexer with commands := lexer.commands ++ [lexer.words], words := [] }

end Lexer

def lexStep (lexer : Lexer) (c : Char) : Option Lexer :=
  if lexer.quoted then
    if c = '\'' then some { lexer with quoted := false } else some (lexer.put c)
  else if c = '\'' then some { lexer with word := some (lexer.word.getD []), quoted := true }
  else if isBlank c then some lexer.endWord
  else if isSeparator c then
    if lexer.endWord.words = [] then
      if c = ';' then none else some lexer.endWord
    else some lexer.endCommand
  else if isActive c || (lexer.word.isNone && isLeader c) then none
  else some (lexer.put c)

/-- The commands at the end of the line; an open quote has none. -/
def Lexer.finish (lexer : Lexer) : Option (List (List Word)) :=
  if lexer.quoted then none
  else if lexer.endWord.words = [] then some lexer.commands
  else some lexer.endCommand.commands

def reservedWords : List Word :=
  ["!", "\x7b", "\x7d", "case", "do", "done", "elif", "else", "esac", "fi", "for", "if", "in", "then",
    "until", "while"].map String.toList

/-- A command that neither starts with a reserved word nor with an assignment. -/
def namesProgram (command : List Word) : Bool :=
  match command with
  | [] => false
  | name :: _ => !reservedWords.contains name && !name.contains '='

def simpleCommands (line : List Char) : Option (List (List Word)) :=
  ((run lexStep {} line).bind Lexer.finish).filter fun commands => commands.all namesProgram

/-! ## What a step does -/

inductive LexStep (lexer : Lexer) (c : Char) : Lexer → Prop where
  | close (quoted : lexer.quoted = true) (quote : c = '\'') :
      LexStep lexer c { lexer with quoted := false }
  | literal (quoted : lexer.quoted = true) (notQuote : c ≠ '\'') : LexStep lexer c (lexer.put c)
  | openQuote (unquoted : lexer.quoted = false) (quote : c = '\'') :
      LexStep lexer c { lexer with word := some (lexer.word.getD []), quoted := true }
  | blank (unquoted : lexer.quoted = false) (blank : isBlank c = true) :
      LexStep lexer c lexer.endWord
  | blankLine (unquoted : lexer.quoted = false) (newline : c = '\n')
      (empty : lexer.endWord.words = []) : LexStep lexer c lexer.endWord
  | separator (unquoted : lexer.quoted = false) (separator : isSeparator c = true)
      (nonempty : lexer.endWord.words ≠ []) : LexStep lexer c lexer.endCommand
  | inert (unquoted : lexer.quoted = false) (inert : isInert c = true)
      (inside : lexer.word = none → isLeader c = false) : LexStep lexer c (lexer.put c)

variable {lexer next : Lexer} {c : Char}

theorem lexStep_sound (stepped : lexStep lexer c = some next) : LexStep lexer c next := by
  unfold lexStep at stepped
  by_cases quoted : lexer.quoted = true
  · rw [if_pos quoted] at stepped
    by_cases quote : c = '\''
    · rw [if_pos quote] at stepped
      obtain rfl := Option.some.inj stepped
      exact .close quoted quote
    · rw [if_neg quote] at stepped
      obtain rfl := Option.some.inj stepped
      exact .literal quoted quote
  have unquoted : lexer.quoted = false := by simpa using quoted
  rw [if_neg quoted] at stepped
  by_cases quote : c = '\''
  · rw [if_pos quote] at stepped
    obtain rfl := Option.some.inj stepped
    exact .openQuote unquoted quote
  rw [if_neg quote] at stepped
  by_cases blank : isBlank c = true
  · rw [if_pos blank] at stepped
    obtain rfl := Option.some.inj stepped
    exact .blank unquoted blank
  rw [if_neg blank] at stepped
  by_cases separator : isSeparator c = true
  · rw [if_pos separator] at stepped
    by_cases empty : lexer.endWord.words = []
    · rw [if_pos empty] at stepped
      by_cases semicolon : c = ';'
      · rw [if_pos semicolon] at stepped
        exact absurd stepped (by simp)
      · rw [if_neg semicolon] at stepped
        obtain rfl := Option.some.inj stepped
        have newline : c = '\n' := by simpa [isSeparator, semicolon] using separator
        exact .blankLine unquoted newline empty
    · rw [if_neg empty] at stepped
      obtain rfl := Option.some.inj stepped
      exact .separator unquoted separator empty
  rw [if_neg separator] at stepped
  by_cases active : (isActive c || (lexer.word.isNone && isLeader c)) = true
  · rw [if_pos active] at stepped
    exact absurd stepped (by simp)
  rw [if_neg active] at stepped
  obtain rfl := Option.some.inj stepped
  simp only [Bool.or_eq_true, Bool.and_eq_true, not_or, not_and, Bool.not_eq_true] at active
  refine .inert unquoted ?_ fun none => active.2 (by simp [none])
  simp [isInert, blank, separator, active.1, quote]

theorem not_quote_of_isInert (inert : isInert c = true) : c ≠ '\'' := by
  simp only [isInert, Bool.and_eq_true, bne_iff_ne] at inert
  exact inert.2

theorem lexStep_inert (unquoted : lexer.quoted = false) (inert : isInert c = true)
    (inside : lexer.word = none → isLeader c = false) :
    lexStep lexer c = some (lexer.put c) := by
  have parts := inert
  simp only [isInert, Bool.and_eq_true, Bool.not_eq_true', bne_iff_ne] at parts
  obtain ⟨⟨⟨notBlank, notSeparator⟩, notActive⟩, notQuote⟩ := parts
  have notLeader : (lexer.word.isNone && isLeader c) = false := by
    cases shape : lexer.word with
    | none => simp [inside shape]
    | some word => rfl
  simp [lexStep, unquoted, notQuote, notBlank, notSeparator, notActive, notLeader]

theorem lexStep_literal (quoted : lexer.quoted = true) (notQuote : c ≠ '\'') :
    lexStep lexer c = some (lexer.put c) := by
  simp [lexStep, quoted, notQuote]

theorem not_quote_of_isBlank (blank : isBlank c = true) : c ≠ '\'' := by
  rintro rfl
  exact absurd blank (by decide)

theorem not_quote_of_isSeparator (separator : isSeparator c = true) : c ≠ '\'' := by
  rintro rfl
  exact absurd separator (by decide)

theorem not_isBlank_of_isSeparator (separator : isSeparator c = true) : isBlank c = false := by
  simp only [isSeparator, Bool.or_eq_true, decide_eq_true_eq] at separator
  rcases separator with rfl | rfl <;> decide

theorem lexStep_blank (unquoted : lexer.quoted = false) (blank : isBlank c = true) :
    lexStep lexer c = some lexer.endWord := by
  simp [lexStep, unquoted, not_quote_of_isBlank blank, blank]

theorem lexStep_separator (unquoted : lexer.quoted = false) (separator : isSeparator c = true)
    (nonempty : lexer.endWord.words ≠ []) : lexStep lexer c = some lexer.endCommand := by
  simp [lexStep, unquoted, not_quote_of_isSeparator separator,
    not_isBlank_of_isSeparator separator, separator, nonempty]

theorem lexStep_blankLine (unquoted : lexer.quoted = false)
    (empty : lexer.endWord.words = []) : lexStep lexer '\n' = some lexer.endWord := by
  have notQuote : '\n' ≠ '\'' := by decide
  have notBlank : isBlank '\n' = false := by decide
  have separator : isSeparator '\n' = true := by decide
  have notSemicolon : '\n' ≠ ';' := by decide
  simp [lexStep, unquoted, notQuote, notBlank, separator, empty, notSemicolon]

structure Lexer.All (property : Word → Prop) (lexer : Lexer) : Prop where
  commands : ∀ command ∈ lexer.commands, ∀ word ∈ command, property word
  words : ∀ word ∈ lexer.words, property word
  word : ∀ word, lexer.word = some word → property word

variable {property : Word → Prop}

theorem Lexer.All.endWord (all : lexer.All property) : lexer.endWord.All property := by
  unfold Lexer.endWord
  split
  next => exact all
  next word current =>
    refine ⟨all.commands, fun other membership => ?_, by simp⟩
    rcases List.mem_append.mp membership with before | last
    · exact all.words other before
    · obtain rfl := List.mem_singleton.mp last
      exact all.word _ current

theorem Lexer.All.endCommand (all : lexer.All property) : lexer.endCommand.All property := by
  have ended := all.endWord
  refine ⟨fun command membership => ?_, by simp [Lexer.endCommand], fun word current => ?_⟩
  · rcases List.mem_append.mp membership with before | last
    · exact ended.commands command before
    · obtain rfl := List.mem_singleton.mp last
      exact ended.words
  · exact ended.word word current

theorem Lexer.All.put (all : lexer.All property)
    (extended : property (lexer.word.getD [] ++ [c])) : (lexer.put c).All property :=
  ⟨all.commands, all.words, fun _ current => Option.some.inj current ▸ extended⟩

theorem Lexer.All.finish {commands : List (List Word)} (all : lexer.All property)
    (finished : lexer.finish = some commands) :
    ∀ command ∈ commands, ∀ word ∈ command, property word := by
  unfold Lexer.finish at finished
  split at finished
  next => exact absurd finished (by simp)
  next =>
    split at finished
    next =>
      obtain rfl := Option.some.inj finished
      exact all.commands
    next =>
      obtain rfl := Option.some.inj finished
      exact all.endCommand.commands

theorem simpleCommands_finish {line : List Char} {commands : List (List Word)}
    (read : simpleCommands line = some commands) :
    (∃ final, run lexStep {} line = some final ∧ final.finish = some commands) ∧
      commands.all namesProgram = true := by
  rw [simpleCommands, Option.filter_eq_some_iff] at read
  obtain ⟨finished, named⟩ := read
  exact ⟨Option.bind_eq_some_iff.mp finished, named⟩

end VpnMgr.Shell
