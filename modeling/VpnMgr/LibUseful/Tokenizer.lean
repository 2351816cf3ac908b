import VpnMgr.LibUseful.Strings

/-!
# The libUseful tokenizer

`GetToken` with the flag words the tool passes: none, `GETTOKEN_HONOR_QUOTES`
and `GETTOKEN_QUOTES`.  A pointer into the searched text is the suffix that
starts there, and a pointer difference is a difference of suffix lengths.
-/

namespace VpnMgr.LibUseful

open VpnMgr.Text CString

structure TokenFlags where
  honorQuotes : Bool := false
  stripQuotes : Bool := false
  foundBackslash : Bool := false
  deriving DecidableEq

def noFlags : TokenFlags := {}

/-- `GETTOKEN_HONOR_QUOTES`. -/
def getTokenHonorQuotes : TokenFlags := { honorQuotes := true }

/-- `GETTOKEN_QUOTES`. -/
def getTokenQuotes : TokenFlags := { honorQuotes := true, stripQuotes := true }

/-- `traverse_until`. -/
def traverseUntil (terminator : Char) : CString → CString
  | [] => []
  | c :: rest =>
      if c = terminator then c :: rest
      else match c, rest with
        | '\\', _ :: rest => traverseUntil terminator rest
        | _, rest => traverseUntil terminator rest

/-- `GetTokenStepThru`: the next position to try, and the updated flags. -/
def getTokenStepThru (str : CString) (flags : TokenFlags) : CString × TokenFlags :=
  match str with
  | [] => ([], flags)
  | c :: rest =>
      if c = '\\' then
        (if rest = [] then rest else rest.drop 1, { flags with foundBackslash := true })
      else if (c = '"' || c = '\'') && flags.honorQuotes then
        ((traverseUntil c rest).drop 1, flags)
      else (rest, flags)

/-- One element of a separator pattern. -/
inductive PatternItem where
  /-- A character, `none` for the NUL behind a lone final backslash. -/
  | literal (c : Option Char)
  /-- `\\S`, any run of white space. -/
  | space
  /-- `\\X`, white space or one of `()=!<>`. -/
  | code
  deriving DecidableEq

/-- The pattern as `GetTokenSepMatch` reads it off `pptr`. -/
def patternItems : CString → List PatternItem
  | [] => []
  | '\\' :: 'S' :: pattern => .space :: patternItems pattern
  | '\\' :: 'X' :: pattern => .code :: patternItems pattern
  | '\\' :: c :: pattern => .literal (some c) :: patternItems pattern
  | ['\\'] => [.literal none]
  | c :: pattern => .literal (some c) :: patternItems pattern

/-- Outcome of `GetTokenSepMatch`. -/
inductive SepMatch where
  /-- A match that ends at `stop`. -/
  | matched (stop : CString)
  | failed
  /-- A failure that moves `*start` as well. -/
  | moved (start : CString) (foundBackslash : Bool)

/-- The loop of `GetTokenSepMatch`. -/
def getTokenSepMatch (flags : TokenFlags) : List PatternItem → CString → SepMatch
  | [], eptr => .matched eptr
  | _ :: _, [] => .moved [] false
  | item :: items, c :: rest =>
      if c = '\\' then .moved rest true
      else if (c = '"' || c = '\'') && flags.honorQuotes then .failed
      else match item with
        | .space =>
            if c = ' ' || c = '\t' || c = '\n' || c = '\r' then
              getTokenSepMatch flags items (skipSpace (c :: rest))
            else .failed
        | .code =>
            if c = ' ' || c = '\t' || c = '\n' || c = '\r' then
              getTokenSepMatch flags items (skipSpace (c :: rest))
            else if c = '(' || c = ')' || c = '=' || c = '!' || c = '<' || c = '>' then
              getTokenSepMatch flags items rest
            else .failed
        | .literal expected =>
            if some c = expected then getTokenSepMatch flags items rest else .failed

/-- What `GetTokenFindSeparator` leaves in `SepStart`, `SepEnd` and `Flags`. -/
structure Separator where
  sepStart : CString
  sepEnd : CString
  flags : TokenFlags

/-- `GetTokenFindSeparator`.  Every round consumes at least one character, so
`str.length` rounds are enough. -/
def getTokenFindSeparator (items : List PatternItem) :
    Nat → CString → TokenFlags → Separator
  | 0, str, flags => ⟨str, str, flags⟩
  | _ + 1, [], flags => ⟨[], [], flags⟩
  | fuel + 1, c :: rest, flags =>
      if c = '\\' then
        getTokenFindSeparator items fuel (rest.drop 1) { flags with foundBackslash := true }
      else match getTokenSepMatch flags items (c :: rest) with
        | .matched stop => ⟨c :: rest, stop, flags⟩
        | .failed =>
            let (next, flags) := getTokenStepThru (c :: rest) flags
            getTokenFindSeparator items fuel next flags
        | .moved start found =>
            let flags := { flags with foundBackslash := flags.foundBackslash || found }
            let (next, flags) := getTokenStepThru start flags
            getTokenFindSeparator items fuel next flags

/-- What `GetToken` returns: the pointer, NULL once the text is used up, and
the token. -/
structure Token where
  ptr : CPtr
  text : CString
  deriving DecidableEq

/-- `GetTokenPostProcess`. -/
def getTokenPostProcess (searchStr : CString) (found : Separator) : Token :=
  let raw := searchStr.take (searchStr.length - found.sepStart.length)
  let outerQuotes :=
    found.flags.stripQuotes && (searchStr.head? = some '"' || searchStr.head? = some '\'')
  let text :=
    if outerQuotes && raw.getLast? = searchStr.head? then
      -- a lone quote makes `eptr < sptr`, and the rest of the text is copied
      if raw.length = 1 then searchStr.drop 1 else (raw.drop 1).dropLast
    else raw
  let text :=
    if !outerQuotes && found.flags.stripQuotes && found.flags.foundBackslash then unQuoteStr text
    else text
  ⟨some found.sepEnd, text⟩

/-- `GetToken`. -/
def getToken (searchStr : CPtr) (separator : CString) (flags : TokenFlags) : Token :=
  if !strValid searchStr then ⟨none, []⟩
  else if separator = [] then ⟨none, copyStr searchStr⟩
  else
    let str := copyStr searchStr
    match separator, flags.honorQuotes, flags.stripQuotes with
    | [sep], false, false =>
        match str.dropWhile (· != sep) with
        | [] => ⟨some [], str⟩
        | _ :: rest => ⟨some rest, str.takeWhile (· != sep)⟩
    | _, _, _ =>
        getTokenPostProcess str
          (getTokenFindSeparator (patternItems separator) str.length str flags)

/-- The loop `ptr=GetToken(..); while (ptr) { .. ptr=GetToken(ptr, ..) }`.  A
token uses up at least one character, so the text's length bounds the rounds. -/
def getTokensFrom (separator : CString) (flags : TokenFlags) : Nat → CPtr → List CString
  | 0, _ => []
  | fuel + 1, searchStr =>
      let token := getToken searchStr separator flags
      match token.ptr with
      | none => []
      | some rest => token.text :: getTokensFrom separator flags fuel (some rest)

def getTokens (searchStr : CPtr) (separator : CString) (flags : TokenFlags) : List CString :=
  getTokensFrom separator flags (copyStr searchStr).length searchStr

/-- A name and a value, and where to look for the next pair. -/
structure NameValue where
  ptr : CPtr
  name : CString
  value : CString
  deriving DecidableEq

/-- `GetNameValuePair`. -/
def getNameValuePair (input : CPtr) (pairDelim nameValueDelim : CString) : NameValue :=
  let pair := getToken input pairDelim getTokenHonorQuotes
  if pair.text = [] then ⟨pair.ptr, [], []⟩
  else
    let name := getToken (some pair.text) nameValueDelim getTokenQuotes
    ⟨pair.ptr, name.text, stripQuotes (copyStr name.ptr)⟩

theorem getToken_append_sep {pre : CString} {sep : Char} (rest : CString)
    (absent : sep ∉ pre) :
    getToken (some (pre ++ sep :: rest)) [sep] noFlags = ⟨some rest, pre⟩ := by
  have kept : ∀ c ∈ pre, (c != sep) = true := by
    intro c membership
    simpa using fun equality : c = sep => absent (equality ▸ membership)
  have valid : strValid (some (pre ++ sep :: rest)) = true := by
    simp [strValid_some_iff]
  simp [getToken, valid, noFlags, List.dropWhile_append_of_pos kept,
    List.takeWhile_append_of_pos kept]

theorem getToken_no_sep {s : CString} {sep : Char} (nonempty : s ≠ []) (absent : sep ∉ s) :
    getToken (some s) [sep] noFlags = ⟨some [], s⟩ := by
  have kept : ∀ c ∈ s, (c != sep) = true := by
    intro c membership
    simpa using fun equality : c = sep => absent (equality ▸ membership)
  have valid : strValid (some s) = true := (strValid_some_iff s).mpr nonempty
  simp [getToken, valid, noFlags, List.dropWhile_eq_nil_iff.mpr kept]

@[simp]
theorem getToken_nil (separator : CString) (flags : TokenFlags) :
    getToken (some []) separator flags = ⟨none, []⟩ := by
  simp [getToken]

/-- A nonempty text is either one last token or a token, a separator and the
remaining text. -/
theorem getToken_cases (s : CString) (sep : Char) (nonempty : s ≠ []) :
    (sep ∉ s ∧ getToken (some s) [sep] noFlags = ⟨some [], s⟩) ∨
      ∃ pre rest, s = pre ++ sep :: rest ∧ sep ∉ pre ∧
        getToken (some s) [sep] noFlags = ⟨some rest, pre⟩ := by
  by_cases present : sep ∈ s
  · obtain ⟨pre, rest, rfl, absent⟩ := List.eq_append_cons_of_mem present
    exact Or.inr ⟨pre, rest, rfl, absent, getToken_append_sep rest absent⟩
  · exact Or.inl ⟨present, getToken_no_sep nonempty present⟩

@[simp]
theorem getTokensFrom_nil (separator : CString) (flags : TokenFlags) (fuel : Nat) :
    getTokensFrom separator flags fuel (some []) = [] := by
  cases fuel <;> simp [getTokensFrom]

/-- The length of the text is fuel enough. -/
theorem getTokensFrom_fuel {sep : Char} (fuel : Nat) (s : CString) (enough : s.length ≤ fuel) :
    getTokensFrom [sep] noFlags fuel (some s) = getTokens (some s) [sep] noFlags := by
  induction fuel using Nat.strong_induction_on generalizing s with
  | _ fuel inductionHypothesis =>
      rcases s with _ | ⟨c, tail⟩
      · rw [getTokensFrom_nil, getTokens, getTokensFrom_nil]
      obtain ⟨less, rfl⟩ := Nat.exists_eq_add_of_le' (Nat.one_le_iff_ne_zero.mpr (by
        rintro rfl; simp at enough : fuel ≠ 0))
      rw [getTokens, copyStr_some, List.length_cons, getTokensFrom, getTokensFrom]
      rcases getToken_cases (c :: tail) sep (by simp) with ⟨_, last⟩ | ⟨pre, rest, split, _, token⟩
      · simp only [last, getTokensFrom_nil]
      · have shorter : rest.length ≤ tail.length := by
          have length := congrArg List.length split
          simp only [List.length_cons, List.length_append] at length
          omega
        have small : tail.length ≤ less := by simpa using enough
        simp only [token, inductionHypothesis less (Nat.lt_succ_self _) rest (shorter.trans small),
          inductionHypothesis tail.length (by omega) rest shorter]

theorem getTokens_append_sep {pre : CString} {sep : Char} (rest : CString) (absent : sep ∉ pre) :
    getTokens (some (pre ++ sep :: rest)) [sep] noFlags =
      pre :: getTokens (some rest) [sep] noFlags := by
  have length : (pre ++ sep :: rest).length = (pre.length + rest.length) + 1 := by
    simp [Nat.add_assoc]
  rw [getTokens, copyStr_some, length, getTokensFrom, getToken_append_sep rest absent]
  exact congrArg (pre :: ·) (getTokensFrom_fuel _ rest (by omega))

theorem getTokens_no_sep {s : CString} {sep : Char} (nonempty : s ≠ []) (absent : sep ∉ s) :
    getTokens (some s) [sep] noFlags = [s] := by
  obtain ⟨fuel, length⟩ := Nat.exists_eq_succ_of_ne_zero (mt List.length_eq_zero_iff.mp nonempty)
  rw [getTokens, copyStr_some, length, getTokensFrom, getToken_no_sep nonempty absent]
  cases fuel <;> simp [getTokensFrom]

/-! ## Tokens that honor quotes, on text without quotes -/

def isUnquoted (c : Char) : Bool := c != '"' && c != '\'' && c != '\\'

theorem isUnquoted_of_isPlain {c : Char} (plain : isPlain c = true) : isUnquoted c = true := by
  simp [isPlain, isUnquoted] at *
  tauto

theorem getTokenFindSeparator_skip {sep : Char} {pre : CString} (tail : CString)
    (flags : TokenFlags) (fuel : Nat)
    (skipped : ∀ c ∈ pre, isUnquoted c = true ∧ c ≠ sep) :
    getTokenFindSeparator [.literal (some sep)] (pre.length + fuel) (pre ++ tail) flags =
      getTokenFindSeparator [.literal (some sep)] fuel tail flags := by
  induction pre with
  | nil => simp
  | cons c pre inductionHypothesis =>
      have head := skipped c (by simp)
      have notQuote : c ≠ '"' ∧ c ≠ '\'' ∧ c ≠ '\\' := by
        simpa [isUnquoted, and_assoc] using head.1
      have rest := inductionHypothesis fun d membership => skipped d (by simp [membership])
      rw [List.length_cons, Nat.add_right_comm]
      simpa [getTokenFindSeparator, getTokenSepMatch, getTokenStepThru, notQuote, head.2]
        using rest

theorem getTokenFindSeparator_here {sep : Char} (rest : CString) (flags : TokenFlags)
    (fuel : Nat) (unquoted : isUnquoted sep = true) :
    getTokenFindSeparator [.literal (some sep)] (fuel + 1) (sep :: rest) flags =
      ⟨sep :: rest, rest, flags⟩ := by
  have notQuote : sep ≠ '"' ∧ sep ≠ '\'' ∧ sep ≠ '\\' := by
    simpa [isUnquoted, and_assoc] using unquoted
  simp [getTokenFindSeparator, getTokenSepMatch, notQuote]

theorem patternItems_singleton {sep : Char} (unquoted : isUnquoted sep = true) :
    patternItems [sep] = [.literal (some sep)] := by
  have notBackslash : sep ≠ '\\' := by simp_all [isUnquoted]
  simp [patternItems, notBackslash]

theorem getTokenPostProcess_unquoted {pre tail stop : CString} (flags : TokenFlags)
    (unquoted : ∀ c ∈ pre, isUnquoted c = true) (nonempty : pre ≠ [])
    (noBackslash : flags.foundBackslash = false) :
    getTokenPostProcess (pre ++ tail) ⟨tail, stop, flags⟩ = ⟨some stop, pre⟩ := by
  cases pre with
  | nil => exact absurd rfl nonempty
  | cons c pre =>
      have head := unquoted c (by simp)
      have notQuote : c ≠ '"' ∧ c ≠ '\'' ∧ c ≠ '\\' := by
        simpa [isUnquoted, and_assoc] using head
      have raw : ((c :: pre) ++ tail).take (((c :: pre) ++ tail).length - tail.length) =
          c :: pre := by
        rw [List.length_append, Nat.add_sub_cancel, List.take_left]
      simp only [getTokenPostProcess, raw]
      simp [notQuote, noBackslash]

theorem getToken_eq_postProcess {s : CString} {sep : Char} {flags : TokenFlags}
    (nonempty : s ≠ []) (honor : flags.honorQuotes = true) (unquoted : isUnquoted sep = true) :
    getToken (some s) [sep] flags =
      getTokenPostProcess s
        (getTokenFindSeparator [.literal (some sep)] s.length s flags) := by
  have valid : strValid (some s) = true := (strValid_some_iff s).mpr nonempty
  simp [getToken, valid, honor, patternItems_singleton unquoted]

/-- Honoring quotes changes nothing on a text that has none: here the
separator is found. -/
theorem getToken_honor_append_sep {pre : CString} {sep : Char} {flags : TokenFlags}
    (rest : CString) (nonempty : pre ≠ []) (honor : flags.honorQuotes = true)
    (noBackslash : flags.foundBackslash = false) (sepUnquoted : isUnquoted sep = true)
    (skipped : ∀ c ∈ pre, isUnquoted c = true ∧ c ≠ sep) :
    getToken (some (pre ++ sep :: rest)) [sep] flags = ⟨some rest, pre⟩ := by
  rw [getToken_eq_postProcess (by simp) honor sepUnquoted, List.length_append,
    getTokenFindSeparator_skip _ _ _ skipped, List.length_cons,
    getTokenFindSeparator_here _ _ _ sepUnquoted]
  exact getTokenPostProcess_unquoted flags (fun c membership => (skipped c membership).1)
    nonempty noBackslash

theorem getToken_honor_no_sep {s : CString} {sep : Char} {flags : TokenFlags}
    (nonempty : s ≠ []) (honor : flags.honorQuotes = true)
    (noBackslash : flags.foundBackslash = false) (sepUnquoted : isUnquoted sep = true)
    (skipped : ∀ c ∈ s, isUnquoted c = true ∧ c ≠ sep) :
    getToken (some s) [sep] flags = ⟨some [], s⟩ := by
  have search := getTokenFindSeparator_skip [] flags 0 skipped
  simp only [List.append_nil, Nat.add_zero, getTokenFindSeparator] at search
  rw [getToken_eq_postProcess nonempty honor sepUnquoted, search]
  have processed : getTokenPostProcess (s ++ []) ⟨[], [], flags⟩ = ⟨some [], s⟩ :=
    getTokenPostProcess_unquoted flags (fun c membership => (skipped c membership).1) nonempty
      noBackslash
  simpa using processed

/-- Texts with separators between them are split again. -/
theorem getTokensFrom_intercalate {sep : Char} {flags : TokenFlags}
    (honor : flags.honorQuotes = true) (noBackslash : flags.foundBackslash = false)
    (sepUnquoted : isUnquoted sep = true) {items : List CString}
    (nonempty : ∀ item ∈ items, item ≠ [])
    (skipped : ∀ item ∈ items, ∀ c ∈ item, isUnquoted c = true ∧ c ≠ sep) (fuel : Nat)
    (enough : ([sep].intercalate items).length ≤ fuel) :
    getTokensFrom [sep] flags fuel (some ([sep].intercalate items)) = items := by
  induction items generalizing fuel with
  | nil => exact getTokensFrom_nil _ _ _
  | cons item rest inductionHypothesis =>
      have first := nonempty item List.mem_cons_self
      have plain := skipped item List.mem_cons_self
      cases rest with
      | nil =>
          rw [List.intercalate_singleton] at enough ⊢
          obtain ⟨less, rfl⟩ := Nat.exists_eq_succ_of_ne_zero
            (Nat.ne_zero_of_lt ((List.length_pos_iff.mpr first).trans_le enough))
          rw [getTokensFrom, getToken_honor_no_sep first honor noBackslash sepUnquoted plain]
          simp only [getTokensFrom_nil]
      | cons next rest =>
          have whole : [sep].intercalate (item :: next :: rest) =
              item ++ sep :: [sep].intercalate (next :: rest) := by
            simp [List.intercalate_cons_cons]
          rw [whole] at enough ⊢
          rw [List.length_append, List.length_cons] at enough
          obtain ⟨less, rfl⟩ : ∃ less, fuel = less + 1 := ⟨fuel - 1, by omega⟩
          rw [getTokensFrom,
            getToken_honor_append_sep _ first honor noBackslash sepUnquoted plain]
          refine congrArg (item :: ·) (inductionHypothesis ?_ ?_ less (by omega))
          · exact fun other member => nonempty other (List.mem_cons_of_mem _ member)
          · exact fun other member => skipped other (List.mem_cons_of_mem _ member)

def isWordChar (c : Char) : Bool := !isSpace c && c != '\\'

theorem isWordChar_iff (c : Char) :
    isWordChar c = true ↔ isSpace c = false ∧ c ≠ '\\' := by
  simp [isWordChar]

theorem getTokenFindSeparator_word {word : CString} (tail : CString) (fuel : Nat)
    (chars : ∀ c ∈ word, isWordChar c = true) :
    getTokenFindSeparator [.space] (word.length + fuel) (word ++ tail) noFlags =
      getTokenFindSeparator [.space] fuel tail noFlags := by
  induction word with
  | nil => simp
  | cons c word inductionHypothesis =>
      obtain ⟨notSpace, notBackslash⟩ := (isWordChar_iff c).mp (chars c (by simp))
      have notBlank : c ≠ ' ' ∧ c ≠ '\t' ∧ c ≠ '\n' ∧ c ≠ '\r' := by
        simp only [isSpace, Bool.or_eq_false_iff, decide_eq_false_iff_not] at notSpace
        tauto
      have rest := inductionHypothesis fun d membership => chars d (by simp [membership])
      rw [List.length_cons, Nat.add_right_comm]
      simpa [getTokenFindSeparator, getTokenSepMatch, getTokenStepThru, notBackslash, notBlank,
        noFlags] using rest

theorem getToken_space (s : CString) (nonempty : s ≠ []) :
    getToken (some s) "\\S".toList noFlags =
      getTokenPostProcess s (getTokenFindSeparator [.space] s.length s noFlags) := by
  have valid : strValid (some s) = true := (strValid_some_iff s).mpr nonempty
  simp [getToken, valid, noFlags, patternItems]

theorem getToken_word_blank {word : CString} (rest : CString)
    (chars : ∀ c ∈ word, isWordChar c = true) :
    getToken (some (word ++ ' ' :: rest)) "\\S".toList noFlags =
      ⟨some (skipSpace rest), word⟩ := by
  have found : getTokenFindSeparator [.space] (' ' :: rest).length (' ' :: rest) noFlags =
      ⟨' ' :: rest, skipSpace rest, noFlags⟩ := by
    simp [getTokenFindSeparator, getTokenSepMatch, skipSpace, isSpace]
  rw [getToken_space _ (by simp), List.length_append, getTokenFindSeparator_word _ _ chars, found]
  simp [getTokenPostProcess, noFlags]

/-! ## Escapes in words -/

/-- A text that the search for white space walks over: no blank in it but
behind a backslash. -/
inductive Unbroken : CString → Prop where
  | nil : Unbroken []
  | char {c : Char} {rest : CString} (word : isWordChar c = true) (tail : Unbroken rest) :
      Unbroken (c :: rest)
  | escaped {c : Char} {rest : CString} (tail : Unbroken rest) : Unbroken ('\\' :: c :: rest)

theorem Unbroken.append {first second : CString} (before : Unbroken first)
    (behind : Unbroken second) : Unbroken (first ++ second) := by
  induction before with
  | nil => exact behind
  | char word tail inductionHypothesis => exact .char word inductionHypothesis
  | escaped tail inductionHypothesis => exact .escaped inductionHypothesis

theorem Unbroken.of_chars {word : CString} (chars : ∀ c ∈ word, isWordChar c = true) :
    Unbroken word := by
  induction word with
  | nil => exact .nil
  | cons c word inductionHypothesis =>
      exact .char (chars c (by simp))
        (inductionHypothesis fun d inside => chars d (by simp [inside]))

/-- The last backslash escapes the character behind the text. -/
def escapesNext : CString → Bool
  | [] => false
  | ['\\'] => true
  | '\\' :: _ :: rest => escapesNext rest
  | _ :: rest => escapesNext rest

theorem unbroken_of_solid (word : CString) (solid : ∀ c ∈ word, isSpace c = false) :
    if escapesNext word = true then ∀ c, Unbroken (word ++ [c]) else Unbroken word := by
  fun_induction escapesNext word with
  | case1 => simpa using Unbroken.nil
  | case2 => simpa using fun c => Unbroken.escaped Unbroken.nil
  | case3 c rest inductionHypothesis =>
      have rest := inductionHypothesis fun d inside => solid d (by simp [inside])
      split <;> simp_all [Unbroken.escaped]
  | case4 c rest notLast notEscape inductionHypothesis =>
      have notBackslash : c ≠ '\\' := by
        rintro rfl
        cases rest with
        | nil => exact notLast rfl rfl
        | cons d rest => exact notEscape d rest rfl rfl
      have word : isWordChar c = true := (isWordChar_iff c).mpr ⟨solid c (by simp), notBackslash⟩
      have rest := inductionHypothesis fun d inside => solid d (by simp [inside])
      split <;> simp_all [Unbroken.char]

theorem getTokenFindSeparator_unbroken {word : CString} (walk : Unbroken word) (tail : CString) :
    ∀ fuel flags, flags.honorQuotes = false → (word ++ tail).length ≤ fuel →
      ∃ left found, tail.length ≤ left ∧
        getTokenFindSeparator [.space] fuel (word ++ tail) flags =
          getTokenFindSeparator [.space] left tail { flags with foundBackslash := found } := by
  induction walk with
  | nil => exact fun fuel flags _ enough => ⟨fuel, flags.foundBackslash, enough, rfl⟩
  | @char c rest word tail inductionHypothesis =>
      intro fuel flags noQuotes enough
      obtain ⟨notSpace, notBackslash⟩ := (isWordChar_iff c).mp word
      have notBlank : c ≠ ' ' ∧ c ≠ '\t' ∧ c ≠ '\n' ∧ c ≠ '\r' := by
        simp only [isSpace, Bool.or_eq_false_iff, decide_eq_false_iff_not] at notSpace
        tauto
      cases fuel with
      | zero => simp at enough
      | succ fuel =>
          have shorter := inductionHypothesis fuel flags noQuotes (by simpa using enough)
          simpa [getTokenFindSeparator, getTokenSepMatch, getTokenStepThru, notBackslash, notBlank,
            noQuotes] using shorter
  | @escaped c rest tail inductionHypothesis =>
      intro fuel flags noQuotes enough
      cases fuel with
      | zero => simp at enough
      | succ fuel =>
          obtain ⟨left, found, bound, same⟩ := inductionHypothesis fuel
            { flags with foundBackslash := true } noQuotes (by simp at enough ⊢; omega)
          exact ⟨left, found, bound, by simpa [getTokenFindSeparator] using same⟩

theorem getToken_unbroken {word : CString} {blank : Char} (isBlank : blank = ' ' ∨ blank = '\t')
    (walk : Unbroken word) (rest : CString) :
    getToken (some (word ++ blank :: rest)) "\\S".toList noFlags =
      ⟨some (skipSpace rest), word⟩ := by
  obtain ⟨left, found, bound, walked⟩ :=
    getTokenFindSeparator_unbroken walk (blank :: rest) _ noFlags rfl (le_refl _)
  have here : getTokenFindSeparator [.space] left (blank :: rest) ⟨false, false, found⟩ =
      ⟨blank :: rest, skipSpace rest, ⟨false, false, found⟩⟩ := by
    cases left with
    | zero => simp at bound
    | succ left =>
        rcases isBlank with rfl | rfl <;>
          simp [getTokenFindSeparator, getTokenSepMatch, skipSpace, isSpace]
  rw [getToken_space _ (by simp), walked]
  simp only [noFlags, here]
  simp [getTokenPostProcess]

/-- The search for white space does not end in a text that has none. -/
theorem getTokenFindSeparator_solid (fuel : Nat) {word : CString} (flags : TokenFlags)
    (solid : ∀ c ∈ word, isSpace c = false) (noQuotes : flags.honorQuotes = false)
    (enough : word.length ≤ fuel) :
    ∃ found, getTokenFindSeparator [.space] fuel word flags =
      ⟨[], [], { flags with foundBackslash := found }⟩ := by
  induction fuel generalizing word flags with
  | zero =>
      obtain rfl := List.length_eq_zero_iff.mp (Nat.le_zero.mp enough)
      exact ⟨flags.foundBackslash, rfl⟩
  | succ fuel inductionHypothesis =>
      cases word with
      | nil => exact ⟨flags.foundBackslash, rfl⟩
      | cons c rest =>
          have shorter : rest.length ≤ fuel := by simpa using enough
          by_cases backslash : c = '\\'
          · obtain ⟨found, ended⟩ := @inductionHypothesis (rest.drop 1)
              { flags with foundBackslash := true }
              (fun d inside => solid d (List.mem_cons_of_mem _ (List.mem_of_mem_drop inside)))
              noQuotes (by rw [List.length_drop]; omega)
            exact ⟨found, by simpa [getTokenFindSeparator, backslash] using ended⟩
          · have notSpace := solid c List.mem_cons_self
            have notBlank : c ≠ ' ' ∧ c ≠ '\t' ∧ c ≠ '\n' ∧ c ≠ '\r' := by
              simp only [isSpace, Bool.or_eq_false_iff, decide_eq_false_iff_not] at notSpace
              tauto
            obtain ⟨found, ended⟩ := @inductionHypothesis rest flags
              (fun d inside => solid d (List.mem_cons_of_mem _ inside)) noQuotes shorter
            refine ⟨found, ?_⟩
            simpa [getTokenFindSeparator, getTokenSepMatch, getTokenStepThru, backslash, notBlank,
              noQuotes] using ended

theorem getToken_solid_last {word : CString} (nonempty : word ≠ [])
    (solid : ∀ c ∈ word, isSpace c = false) :
    getToken (some word) "\\S".toList noFlags = ⟨some [], word⟩ := by
  obtain ⟨found, ended⟩ := getTokenFindSeparator_solid word.length noFlags solid rfl le_rfl
  rw [getToken_space _ nonempty, ended]
  simp [getTokenPostProcess, noFlags]

/-- What is left to search gets shorter. -/
theorem getTokenFindSeparator_space_length (fuel : Nat) (s : CString) {flags : TokenFlags}
    (plain : flags.honorQuotes = false) :
    (getTokenFindSeparator [.space] fuel s flags).sepEnd.length ≤ s.length ∧
      (fuel ≠ 0 → s ≠ [] →
        (getTokenFindSeparator [.space] fuel s flags).sepEnd.length < s.length) := by
  induction fuel generalizing s flags with
  | zero => simp [getTokenFindSeparator]
  | succ fuel inductionHypothesis =>
      cases s with
      | nil => simp [getTokenFindSeparator]
      | cons c rest =>
          suffices shorter :
              (getTokenFindSeparator [.space] (fuel + 1) (c :: rest) flags).sepEnd.length ≤
                rest.length by
            exact ⟨Nat.le_succ_of_le shorter, fun _ _ => Nat.lt_succ_of_le shorter⟩
          by_cases backslash : c = '\\'
          · simp only [getTokenFindSeparator, backslash, if_true]
            have further := (@inductionHypothesis (rest.drop 1)
              { flags with foundBackslash := true } plain).1
            exact further.trans (by simp)
          by_cases blank : c = ' ' ∨ c = '\t' ∨ c = '\n' ∨ c = '\r'
          · have blanks : (skipSpace rest).length ≤ rest.length :=
              (List.dropWhile_suffix isSpace).length_le
            have matched : getTokenSepMatch flags [.space] (c :: rest) =
                .matched (skipSpace rest) := by
              rcases blank with rfl | rfl | rfl | rfl <;>
                simp [getTokenSepMatch, skipSpace, isSpace]
            simpa only [getTokenFindSeparator, if_neg backslash, matched] using blanks
          · have failed : getTokenSepMatch flags [.space] (c :: rest) = .failed := by
              simp only [not_or] at blank
              simp [getTokenSepMatch, backslash, plain, blank]
            have further := (@inductionHypothesis rest flags plain).1
            simpa [getTokenFindSeparator, backslash, failed, getTokenStepThru, plain] using further

theorem getToken_space_shorter {s : CString} (nonempty : s ≠ []) :
    (copyStr (getToken (some s) "\\S".toList noFlags).ptr).length < s.length := by
  rw [getToken_space s nonempty]
  exact (getTokenFindSeparator_space_length s.length s rfl).2 (by simpa using nonempty) nonempty

end VpnMgr.LibUseful
