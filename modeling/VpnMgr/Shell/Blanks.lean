import VpnMgr.Shell.Nesting

/-!
# Words between blanks

A text without quotes and active characters is read as the parts between its
blanks.
-/

namespace VpnMgr.Shell

open Machine

/-- A character that is read as it is, also at the start of a word. -/
def isBare (c : Char) : Bool := isInert c && !isLeader c

def blankWords (text : List Char) : List Word := (text.splitOn ' ').filter (· ≠ [])

theorem blankWords_append_blank (first second : List Char) :
    blankWords (first ++ ' ' :: second) = blankWords first ++ blankWords second := by
  rw [blankWords, List.splitOn_append_cons_self, List.filter_append]
  rfl

@[simp]
theorem blankWords_cons_blank (text : List Char) : blankWords (' ' :: text) = blankWords text :=
  blankWords_append_blank [] text

@[simp]
theorem blankWords_append_blanks (text : List Char) (n : Nat) :
    blankWords (text ++ List.replicate n ' ') = blankWords text := by
  induction n generalizing text with
  | zero => simp
  | succ n inductionHypothesis =>
      rw [List.replicate_succ, blankWords_append_blank, ← List.nil_append (List.replicate n ' '),
        inductionHypothesis]
      simp [blankWords]

theorem blankWords_word {word : Word} (nonempty : word ≠ []) (noBlank : ' ' ∉ word) :
    blankWords word = [word] := by
  rw [blankWords, List.splitOn_eq_singleton noBlank]
  simp [nonempty]

theorem first_word (text : List Char) :
    ' ' ∉ text ∨ ∃ word rest, text = word ++ ' ' :: rest ∧ ' ' ∉ word := by
  by_cases member : ' ' ∈ text
  · exact .inr (List.eq_append_cons_of_mem member)
  · exact .inl member

theorem isPlainWord_of_bare {word : Word} (nonempty : word ≠ [])
    (bare : ∀ c ∈ word, isBare c = true) : isPlainWord word = true := by
  simp only [isBare, Bool.and_eq_true, Bool.not_eq_eq_eq_not, Bool.not_true] at bare
  exact (isPlainWord_iff word).mpr ⟨nonempty, fun c member => (bare c member).1,
    fun c head => (bare c (List.mem_of_head? head)).2⟩

def IsWord (word : Word) : Prop := word ≠ [] ∧ ∀ c ∈ word, isBare c = true

theorem IsWord.noBlank {word : Word} (isWord : IsWord word) : ' ' ∉ word := fun member =>
  absurd (isWord.2 ' ' member) (by decide)

theorem blankWords_intercalate {words : List Word} (areWords : ∀ word ∈ words, IsWord word) :
    blankWords ([' '].intercalate words) = words := by
  induction words with
  | nil => rfl
  | cons word rest inductionHypothesis =>
      have first := areWords word List.mem_cons_self
      have later := inductionHypothesis fun other member =>
        areWords other (List.mem_cons_of_mem _ member)
      cases rest with
      | nil => rw [List.intercalate_singleton, blankWords_word first.1 first.noBlank]
      | cons next rest =>
          rw [List.intercalate_cons_cons, List.append_assoc, List.singleton_append,
            blankWords_append_blank, later, blankWords_word first.1 first.noBlank,
            List.singleton_append]

theorem bare_intercalate {words : List Word} (areWords : ∀ word ∈ words, IsWord word) :
    ∀ c ∈ [' '].intercalate words, c = ' ' ∨ isBare c = true := by
  induction words with
  | nil => exact fun c member => absurd member List.not_mem_nil
  | cons word rest inductionHypothesis =>
      have first := areWords word List.mem_cons_self
      have later := inductionHypothesis fun other member =>
        areWords other (List.mem_cons_of_mem _ member)
      intro c member
      cases rest with
      | nil =>
          rw [List.intercalate_singleton] at member
          exact .inr (first.2 c member)
      | cons next rest =>
          rw [List.intercalate_cons_cons, List.append_assoc] at member
          rcases List.mem_append.mp member with inFirst | inRest
          · exact .inr (first.2 c inFirst)
          · rcases List.mem_append.mp inRest with blank | inLater
            · exact .inl (List.mem_singleton.mp blank)
            · exact later c inLater

/-- The induction is on the words of the text. -/
theorem run_blankWords {text : List Char} (bare : ∀ c ∈ text, c = ' ' ∨ isBare c = true)
    (commands : List (List Word)) (words : List Word) :
    ∃ final, run lexStep { commands, words } text = some final ∧ final.quoted = false ∧
      final.endWord = { commands, words := words ++ blankWords text } := by
  induction measured : text.length using Nat.strongRecOn generalizing text words with
  | ind length inductionHypothesis =>
      have plain : ∀ word : Word, ' ' ∉ word → (∀ c ∈ word, c ∈ text) → word ≠ [] →
          isPlainWord word = true := by
        intro word noBlank inside nonempty
        refine isPlainWord_of_bare nonempty fun c member => ?_
        exact (bare c (inside c member)).resolve_left fun blank => noBlank (blank ▸ member)
      rcases first_word text with single | ⟨word, rest, rfl, noBlank⟩
      · by_cases empty : text = []
        · exact ⟨_, by rw [empty, run_nil], rfl, by simp [empty, Lexer.endWord, blankWords]⟩
        · refine ⟨_, run_plain commands words (plain text single (fun _ => id) empty), rfl, ?_⟩
          rw [blankWords_word empty single]
          rfl
      · have shorter : rest.length < length := by
          rw [← measured, List.length_append, List.length_cons]
          omega
        have bareRest : ∀ c ∈ rest, c = ' ' ∨ isBare c = true := fun c member =>
          bare c (List.mem_append_right _ (List.mem_cons_of_mem _ member))
        by_cases empty : word = []
        · obtain ⟨final, taken, unquoted, ended⟩ :=
            inductionHypothesis _ shorter bareRest words rfl
          refine ⟨final, ?_, unquoted, ?_⟩
          · rw [empty, List.nil_append, run]
            exact taken
          · rw [ended, empty, List.nil_append, blankWords_cons_blank]
        · obtain ⟨final, taken, unquoted, ended⟩ :=
            inductionHypothesis _ shorter bareRest (words ++ [word]) rfl
          refine ⟨final, ?_, unquoted, ?_⟩
          · rw [run_append, run_plain commands words (plain word noBlank (fun c member =>
              List.mem_append_left _ member) empty), Option.bind_some, run]
            exact taken
          · rw [ended, blankWords_append_blank, blankWords_word empty noBlank, List.append_assoc]

theorem simpleCommands_blankWords {name : Word} {text : List Char}
    (plain : isPlainWord name = true) (named : namesProgram [name] = true)
    (bare : ∀ c ∈ text, c = ' ' ∨ isBare c = true) :
    simpleCommands (name ++ ' ' :: text) = some [name :: blankWords text] := by
  obtain ⟨final, taken, unquoted, ended⟩ := run_blankWords bare [] [name]
  have started : run lexStep {} (name ++ ' ' :: text) = some final := by
    rw [run_append, run_plain [] [] plain, Option.bind_some, run]
    exact taken
  have alsoNamed : namesProgram (name :: blankWords text) = true := named
  have finished : final.finish = some [name :: blankWords text] := by
    simp [Lexer.finish, unquoted, ended, Lexer.endCommand]
  simp [simpleCommands, started, finished, alsoNamed]

/-- A shell, whatever it makes of other lines, that reads a command of bare
words as these words. -/
def SplitsAtBlanks (shell : List Char → Option (List (List Word))) : Prop :=
  ∀ name text, isPlainWord name = true → namesProgram [name] = true →
    (∀ c ∈ text, c = ' ' ∨ isBare c = true) →
      shell (name ++ ' ' :: text) = some [name :: blankWords text]

theorem simpleCommands_splitsAtBlanks : SplitsAtBlanks simpleCommands :=
  fun _ _ => simpleCommands_blankWords

/-- A first argument and the words of a text. -/
theorem SplitsAtBlanks.argument {shell : List Char → Option (List (List Word))}
    (splits : SplitsAtBlanks shell) {name first : Word} {text : List Char}
    (plain : isPlainWord name = true) (named : namesProgram [name] = true)
    (nonempty : first ≠ []) (bareFirst : first.all isBare = true)
    (bare : ∀ c ∈ text, c = ' ' ∨ isBare c = true) :
    shell (name ++ ' ' :: (first ++ ' ' :: text)) = some [name :: first :: blankWords text] := by
  have solid := List.all_eq_true.mp bareFirst
  have noBlank : ' ' ∉ first := fun member => absurd (solid ' ' member) (by decide)
  have words : blankWords (first ++ ' ' :: text) = first :: blankWords text :=
    (blankWords_append_blank first text).trans
      (congrArg (· ++ blankWords text) (blankWords_word nonempty noBlank))
  rw [← words]
  refine splits name _ plain named fun c member => ?_
  rcases List.mem_append.mp member with inFirst | later
  · exact .inr (solid c inFirst)
  · rcases List.mem_cons.mp later with blank | inText
    · exact .inl blank
    · exact bare c inText

end VpnMgr.Shell
