import VpnMgr.Shell.Words

/-!
# Words of a generated line

The words of a line between blanks, single quotes taken off, with every other
character standing for itself; and how the words of a line that is put together
from parts are those of the parts.
-/

namespace VpnMgr.Shell

open Machine

def wordStep (lexer : Lexer) (c : Char) : Lexer :=
  if lexer.quoted then
    if c = '\'' then { lexer with quoted := false } else lexer.put c
  else if c = '\'' then { lexer with word := some (lexer.word.getD []), quoted := true }
  else if isBlank c then lexer.endWord
  else lexer.put c

def lineWords (line : List Char) : List Word := (line.foldl wordStep {}).endWord.words

/-- The same reading with more words and commands read before. -/
def Lexer.behind (before lexer : Lexer) : Lexer :=
  { lexer with commands := before.commands ++ lexer.commands, words := before.words ++ lexer.words }

theorem Lexer.endWord_behind (before lexer : Lexer) :
    (before.behind lexer).endWord = before.behind lexer.endWord := by
  cases word : lexer.word <;> simp [Lexer.behind, Lexer.endWord, word]

theorem wordStep_behind (before lexer : Lexer) (c : Char) :
    wordStep (before.behind lexer) c = before.behind (wordStep lexer c) := by
  have sameQuote : (before.behind lexer).quoted = lexer.quoted := rfl
  simp only [wordStep, sameQuote, Lexer.endWord_behind]
  split
  · split <;> rfl
  · split
    · rfl
    · split <;> rfl

theorem foldl_wordStep_behind (before lexer : Lexer) (line : List Char) :
    line.foldl wordStep (before.behind lexer) = before.behind (line.foldl wordStep lexer) := by
  induction line generalizing lexer with
  | nil => rfl
  | cons c line inductionHypothesis =>
      rw [List.foldl_cons, List.foldl_cons, wordStep_behind, inductionHypothesis]

theorem lineWords_from (before : Lexer) (between : before.word = none)
    (unquoted : before.quoted = false) (line : List Char) :
    (line.foldl wordStep before).endWord.words = before.words ++ lineWords line := by
  have same : before.behind {} = before := by
    cases before
    simp_all [Lexer.behind]
  have read := congrArg (fun lexer => lexer.endWord.words) (foldl_wordStep_behind before {} line)
  rw [same] at read
  exact read.trans (by rw [Lexer.endWord_behind]; rfl)

@[simp]
theorem lineWords_blank (line : List Char) : lineWords (' ' :: line) = lineWords line := rfl

def Separate (tail : List Char) : Prop := tail = [] ∨ tail.head? = some ' '

theorem Separate.append {tail : List Char} (separate : Separate tail) {behind : List Char}
    (separateBehind : Separate behind) : Separate (tail ++ behind) := by
  rcases separate with rfl | blank
  · simpa using separateBehind
  · cases tail with
    | nil => simp at blank
    | cons c tail => exact .inr (by simpa using blank)

def Renders (text : List Char) (words : List Word) : Prop :=
  ∀ tail, Separate tail → lineWords (text ++ tail) = words ++ lineWords tail

namespace Renders

variable {text next : List Char} {words more : List Word}

theorem lineWords_eq (renders : Renders text words) : lineWords text = words := by
  simpa [lineWords, Lexer.endWord] using renders [] (.inl rfl)

theorem nil : Renders [] [] := fun _ _ => rfl

theorem append (renders : Renders text words) (continued : Renders next more)
    (separate : Separate next) : Renders (text ++ next) (words ++ more) := by
  intro tail ends
  rw [List.append_assoc, renders _ (separate.append ends), continued tail ends, List.append_assoc]

theorem blank (renders : Renders text words) : Renders (' ' :: text) words := fun tail ends => by
  rw [List.cons_append, lineWords_blank, renders tail ends]

theorem trailing (renders : Renders text words) : Renders (text ++ [' ']) words :=
  fun tail _ => by
    rw [List.append_assoc, List.singleton_append, renders (' ' :: tail) (.inr rfl), lineWords_blank]

/-- A text that leaves no quote open. -/
theorem of_closed (closed : (text.foldl wordStep {}).quoted = false) :
    Renders text (lineWords text) := by
  intro tail ends
  have ended : (text.foldl wordStep {}).endWord.word = none := by
    cases word : (text.foldl wordStep {}).word <;> simp [Lexer.endWord, word]
  have unquoted : (text.foldl wordStep {}).endWord.quoted = false := by
    cases word : (text.foldl wordStep {}).word <;> simpa [Lexer.endWord, word] using closed
  rcases ends with rfl | blankNext
  · simp [lineWords, Lexer.endWord]
  · cases tail with
    | nil => simp at blankNext
    | cons c tail =>
        obtain rfl : c = ' ' := by simpa using blankNext
        have stepped :
            wordStep (text.foldl wordStep {}) ' ' = (text.foldl wordStep {}).endWord := by
          simp [wordStep, closed, isBlank]
        rw [lineWords, List.foldl_append, List.foldl_cons, stepped,
          lineWords_from _ ended unquoted, lineWords_blank]
        rfl

end Renders

def Literal (quoted : Bool) (text : List Char) : Prop :=
  ∀ c ∈ text, c ≠ '\'' ∧ (isBlank c = true → quoted = true)

theorem foldl_literal {quoted : Bool} {text : List Char} (literal : Literal quoted text)
    (lexer : Lexer) (mode : lexer.quoted = quoted) :
    text.foldl wordStep lexer = text.foldl Lexer.put lexer := by
  induction text generalizing lexer with
  | nil => rfl
  | cons c text inductionHypothesis =>
      obtain ⟨notQuote, inQuotes⟩ := literal c (by simp)
      have stepped : wordStep lexer c = lexer.put c := by
        cases quoted with
        | true => simp [wordStep, mode, notQuote]
        | false => simp [wordStep, mode, notQuote, show isBlank c = false by simpa using inQuotes]
      rw [List.foldl_cons, List.foldl_cons, stepped]
      exact inductionHypothesis (fun d inside => literal d (by simp [inside])) _ mode

theorem foldl_put (text : List Char) (lexer : Lexer) (read : Word)
    (reading : lexer.word = some read) :
    text.foldl Lexer.put lexer = { lexer with word := some (read ++ text) } := by
  induction text generalizing lexer read with
  | nil => simp [← reading]
  | cons c text inductionHypothesis =>
      rw [List.foldl_cons, inductionHypothesis (lexer.put c) (read ++ [c])
        (by simp [Lexer.put, reading])]
      simp [Lexer.put]

namespace Renders

theorem word {text : Word} (literal : Literal false text) (nonempty : text ≠ []) :
    Renders text [text] := by
  have read : text.foldl wordStep {} = { word := some text } := by
    cases text with
    | nil => exact absurd rfl nonempty
    | cons c text =>
        rw [foldl_literal literal {} rfl, List.foldl_cons, foldl_put text _ [c] rfl]
        rfl
  have renders : Renders text (lineWords text) := of_closed (by rw [read])
  rwa [show lineWords text = [text] by rw [lineWords, read]; rfl] at renders

theorem quoted {text : Word} (literal : Literal true text) :
    Renders ('\'' :: text ++ ['\'']) [text] := by
  have read : ('\'' :: text ++ ['\'']).foldl wordStep {} = { word := some text } := by
    have opened : wordStep {} '\'' = { word := some [], quoted := true } := rfl
    rw [List.cons_append, List.foldl_cons, List.foldl_append, opened, foldl_literal literal _ rfl,
      foldl_put text _ [] rfl]
    rfl
  have renders : Renders ('\'' :: text ++ ['\'']) (lineWords ('\'' :: text ++ ['\''])) :=
    of_closed (by rw [read])
  rwa [show lineWords ('\'' :: text ++ ['\'']) = [text] by rw [lineWords, read]; rfl] at renders

end Renders

def EndsBetween (text : List Char) (words : List Word) : Prop :=
  text.foldl wordStep {} = { words := words }

instance (text : List Char) (words : List Word) : Decidable (EndsBetween text words) :=
  inferInstanceAs (Decidable (_ = _))

theorem Renders.after {text next : List Char} {words more : List Word}
    (fixed : EndsBetween text words) (renders : Renders next more) :
    Renders (text ++ next) (words ++ more) := by
  intro tail ends
  rw [lineWords, List.append_assoc, List.foldl_append, fixed, lineWords_from _ rfl rfl,
    renders tail ends, List.append_assoc]

structure Segment (text : List Char) (words : List Word) : Prop where
  renders : Renders text words
  separate : Separate text

namespace Segment

variable {text next : List Char} {words more : List Word}

theorem nil : Segment [] [] := ⟨.nil, .inl rfl⟩

theorem append (segment : Segment text words) (continued : Segment next more) :
    Segment (text ++ next) (words ++ more) :=
  ⟨segment.renders.append continued.renders continued.separate,
    segment.separate.append continued.separate⟩

theorem fixed (ends : EndsBetween text words) (blank : text.head? = some ' ') :
    Segment text words := by
  refine ⟨?_, .inr blank⟩
  simpa using Renders.after ends .nil

theorem after (ends : EndsBetween text words) (blank : text.head? = some ' ')
    (renders : Renders next more) : Segment (text ++ next) (words ++ more) := by
  refine ⟨renders.after ends, .inr ?_⟩
  cases text with
  | nil => simp at blank
  | cons c text => simpa using blank

end Segment

end VpnMgr.Shell
