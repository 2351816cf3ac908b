import VpnMgr.LibUseful.Tokenizer

/-!
# Tokens that honor quotes, on any text

A separator ends a token where it stands outside quotes and no backslash
escapes it.
-/

namespace VpnMgr.LibUseful

open VpnMgr.Text CString

/-- A separator that no backslash and no quote protects; `quote` is the quote
that is open. -/
def exposed (sep : Char) : Option Char → CString → Bool
  | _, [] => false
  | quote, c :: rest =>
      if c = '\\' then
        match rest with
        | [] => false
        | _ :: rest => exposed sep quote rest
      else match quote with
        | some q => exposed sep (if c = q then none else some q) rest
        | none => c == sep || exposed sep (if c = '"' || c = '\'' then some c else none) rest

variable {sep : Char}

theorem exposed_escape (quote : Option Char) (c : Char) (rest : CString) :
    exposed sep quote ('\\' :: c :: rest) = exposed sep quote rest := by
  cases quote <;> rfl

theorem exposed_quote {q c : Char} (rest : CString) (noEscape : c ≠ '\\') :
    exposed sep (some q) (c :: rest) = exposed sep (if c = q then none else some q) rest := by
  cases rest <;> simp [exposed, noEscape]

theorem exposed_plain {c : Char} (rest : CString) (noEscape : c ≠ '\\') :
    exposed sep none (c :: rest) =
      (c == sep || exposed sep (if c = '"' || c = '\'' then some c else none) rest) := by
  cases rest <;> simp [exposed, noEscape]

theorem exposed_quoted {q : Char} (s : CString) (quote : q ≠ '\\') :
    exposed sep (some q) s = exposed sep none ((traverseUntil q s).drop 1) := by
  fun_induction traverseUntil q s with
  | case1 => rfl
  | case2 rest => simp [exposed_quote rest quote]
  | case3 c rest noQuote inductionHypothesis =>
      rw [exposed_escape, inductionHypothesis]
  | case4 c noQuote rest noEscape inductionHypothesis =>
      by_cases backslash : c = '\\'
      · cases rest with
        | nil => simp [exposed, backslash, traverseUntil]
        | cons d rest => exact absurd rfl (noEscape d rest backslash)
      · rw [exposed_quote rest backslash, if_neg noQuote, inductionHypothesis]

/-- Where a search for `sep` may end, and what it may leave in the flags. -/
inductive Found (sep : Char) (s : CString) (flags : TokenFlags) : Separator → Prop where
  | here (pre rest : CString) (found : TokenFlags) : s = pre ++ sep :: rest →
      exposed sep none s = true → found.stripQuotes = flags.stripQuotes →
      Found sep s flags ⟨sep :: rest, rest, found⟩
  | nowhere (found : TokenFlags) : exposed sep none s = false →
      found.stripQuotes = flags.stripQuotes → Found sep s flags ⟨[], [], found⟩

theorem Found.skip {s tail : CString} {flags next : TokenFlags} {separator : Separator}
    (found : Found sep tail next separator) (suffix : tail <:+ s)
    (same : exposed sep none s = exposed sep none tail)
    (kept : next.stripQuotes = flags.stripQuotes) : Found sep s flags separator := by
  obtain ⟨skipped, rfl⟩ := suffix
  cases found with
  | here pre rest found shape seen strip =>
      exact .here (skipped ++ pre) rest found (by simp [shape]) (same.trans seen)
        (strip.trans kept)
  | nowhere found unseen strip => exact .nowhere found (same.trans unseen) (strip.trans kept)

theorem traverseUntil_suffix (q : Char) (s : CString) : traverseUntil q s <:+ s := by
  fun_induction traverseUntil q s with
  | case1 => exact List.suffix_refl _
  | case2 rest => exact List.suffix_refl _
  | case3 c rest noQuote inductionHypothesis =>
      exact inductionHypothesis.trans ((List.suffix_cons _ _).trans (List.suffix_cons _ _))
  | case4 c noQuote rest noEscape inductionHypothesis =>
      exact inductionHypothesis.trans (List.suffix_cons _ _)

/-- `GetTokenFindSeparator` finds the first exposed separator. -/
theorem getTokenFindSeparator_found (plain : isUnquoted sep = true) (fuel : Nat) (s : CString)
    (flags : TokenFlags) (enough : s.length ≤ fuel) (honor : flags.honorQuotes = true) :
    Found sep s flags (getTokenFindSeparator [.literal (some sep)] fuel s flags) := by
  have noQuote : sep ≠ '"' ∧ sep ≠ '\'' ∧ sep ≠ '\\' := by
    simpa [isUnquoted, and_assoc] using plain
  induction fuel generalizing s flags with
  | zero =>
      obtain rfl : s = [] := by simpa using enough
      exact .nowhere flags rfl rfl
  | succ fuel inductionHypothesis =>
      cases s with
      | nil => exact .nowhere flags rfl rfl
      | cons c rest =>
          have shorter : rest.length ≤ fuel := by simpa using enough
          by_cases escape : c = '\\'
          · subst escape
            have dropped : rest.drop 1 <:+ '\\' :: rest :=
              (List.drop_suffix 1 rest).trans (List.suffix_cons _ _)
            have later := inductionHypothesis (rest.drop 1) { flags with foundBackslash := true }
              ((List.drop_suffix 1 rest).length_le.trans shorter) honor
            have same : exposed sep none ('\\' :: rest) = exposed sep none (rest.drop 1) := by
              cases rest <;> rfl
            have moved : Found sep ('\\' :: rest) flags _ := later.skip dropped same rfl
            simpa only [getTokenFindSeparator, if_true] using moved
          · by_cases here : c = sep
            · subst here
              have seen : exposed c none (c :: rest) = true := by
                rw [exposed_plain rest escape]
                simp
              have stops : getTokenFindSeparator [.literal (some c)] (fuel + 1) (c :: rest) flags =
                  ⟨c :: rest, rest, flags⟩ := getTokenFindSeparator_here rest flags fuel plain
              rw [stops]
              exact .here [] rest flags rfl seen rfl
            · have noMatch : getTokenSepMatch flags [.literal (some sep)] (c :: rest) = .failed := by
                by_cases quote : c = '"' ∨ c = '\'' <;>
                  simp [getTokenSepMatch, escape, quote, honor, here]
              simp only [getTokenFindSeparator, if_neg escape, noMatch]
              by_cases quote : c = '"' ∨ c = '\''
              · have stepped : getTokenStepThru (c :: rest) flags =
                    ((traverseUntil c rest).drop 1, flags) := by
                  simp [getTokenStepThru, escape, quote, honor]
                have behind : (traverseUntil c rest).drop 1 <:+ rest :=
                  (List.drop_suffix 1 _).trans (traverseUntil_suffix c rest)
                have same : exposed sep none (c :: rest) =
                    exposed sep none ((traverseUntil c rest).drop 1) := by
                  rw [exposed_plain rest escape, ← exposed_quoted rest escape]
                  simp [here, quote]
                rw [stepped]
                exact (inductionHypothesis _ flags (behind.length_le.trans shorter) honor).skip
                  (behind.trans (List.suffix_cons _ _)) same rfl
              · have stepped : getTokenStepThru (c :: rest) flags = (rest, flags) := by
                  simp [getTokenStepThru, escape, quote]
                have same : exposed sep none (c :: rest) = exposed sep none rest := by
                  rw [exposed_plain rest escape]
                  simp [here, quote]
                rw [stepped]
                exact (inductionHypothesis rest flags shorter honor).skip
                  (List.suffix_cons _ _) same rfl

theorem getToken_exposed (plain : isUnquoted sep = true) {s : CString}
    (seen : exposed sep none s = true) :
    ∃ pre rest, s = pre ++ sep :: rest ∧
      getToken (some s) [sep] getTokenHonorQuotes = ⟨some rest, pre⟩ := by
  have nonempty : s ≠ [] := by
    rintro rfl
    exact absurd seen (by simp [exposed])
  rw [getToken_eq_postProcess nonempty rfl plain]
  have found := getTokenFindSeparator_found plain s.length s getTokenHonorQuotes le_rfl rfl
  generalize getTokenFindSeparator _ _ _ _ = separator at found
  cases found with
  | here pre rest found shape _ strip =>
      refine ⟨pre, rest, shape, ?_⟩
      have noStrip : found.stripQuotes = false := strip
      simp [getTokenPostProcess, noStrip, shape]
  | nowhere found unseen _ => exact absurd seen (by simp [unseen])

theorem getToken_unexposed (plain : isUnquoted sep = true) {s : CString} (nonempty : s ≠ [])
    (unseen : exposed sep none s = false) :
    getToken (some s) [sep] getTokenHonorQuotes = ⟨some [], s⟩ := by
  rw [getToken_eq_postProcess nonempty rfl plain]
  have found := getTokenFindSeparator_found plain s.length s getTokenHonorQuotes le_rfl rfl
  generalize getTokenFindSeparator _ _ _ _ = separator at found
  cases found with
  | here pre rest found shape seen strip => exact absurd seen (by simp [unseen])
  | nowhere found _ strip =>
      have noStrip : found.stripQuotes = false := strip
      simp [getTokenPostProcess, noStrip]

/-! ## How much text a pair uses up -/

theorem unQuoteLoop_length (fuel : Nat) (s : CString) (buffer : UnQuoteBuffer) :
    (unQuoteLoop fuel s buffer).text.length ≤ buffer.text.length + s.length := by
  have added : ∀ (buffer : UnQuoteBuffer) (c : Char),
      (buffer.add c).text.length ≤ buffer.text.length + 1 := by
    intro buffer c
    unfold UnQuoteBuffer.add
    split_ifs <;> simp
  have addedUnicode : ∀ (buffer : UnQuoteBuffer) (code : Nat),
      (buffer.addUnicode code).text.length ≤ buffer.text.length + 1 := by
    intro buffer code
    simp only [UnQuoteBuffer.addUnicode]
    split_ifs <;> simp
  fun_induction unQuoteLoop fuel s buffer
  all_goals grind [List.length_drop, List.length_cons]

theorem unQuoteStr_length (s : CString) : (unQuoteStr s).length ≤ s.length := by
  simpa [unQuoteStr] using unQuoteLoop_length (s.length + 1) s {}

theorem stripTrailingWhitespace_length (s : CString) :
    (stripTrailingWhitespace s).length ≤ s.length :=
  (List.rdropWhile_prefix isSpace s).length_le

theorem stripQuotes_length (s : CString) : (stripQuotes s).length ≤ s.length := by
  have stripped := stripTrailingWhitespace_length s
  have skipped : (skipSpace (stripTrailingWhitespace s)).length ≤
      (stripTrailingWhitespace s).length := (List.dropWhile_suffix isSpace).length_le
  simp only [stripQuotes]
  split
  · exact stripped
  next c rest shape =>
    rw [shape] at skipped
    split
    · simp only [List.length_dropLast, List.length_cons] at *
      omega
    · exact stripped

theorem getTokenPostProcess_length (s : CString) (separator : Separator) :
    (getTokenPostProcess s separator).text.length ≤ s.length := by
  simp only [getTokenPostProcess]
  split_ifs
  all_goals
    first
    | (refine (unQuoteStr_length _).trans ?_)
    | skip
    simp
  all_goals omega

/-- A name leaves less than the pair it is taken from, unless there is no value. -/
theorem getToken_name (plain : isUnquoted sep = true) {s : CString} (nonempty : s ≠ []) :
    (getToken (some s) [sep] getTokenQuotes).text.length ≤ s.length ∧
      ∃ rest, (getToken (some s) [sep] getTokenQuotes).ptr = some rest ∧
        (rest = [] ∨ (getToken (some s) [sep] getTokenQuotes).text = [] ∨
          rest.length + 2 ≤ s.length) := by
  rw [getToken_eq_postProcess nonempty rfl plain]
  refine ⟨getTokenPostProcess_length s _, ?_⟩
  have found := getTokenFindSeparator_found plain s.length s getTokenQuotes le_rfl rfl
  generalize getTokenFindSeparator _ _ _ _ = separator at found
  cases found with
  | nowhere found _ _ => exact ⟨[], rfl, .inl rfl⟩
  | here pre rest found shape _ _ =>
      refine ⟨rest, rfl, .inr ?_⟩
      cases pre with
      | nil =>
          left
          have noQuote : sep ≠ '"' ∧ sep ≠ '\'' ∧ sep ≠ '\\' := by
            simpa [isUnquoted, and_assoc] using plain
          simp [getTokenPostProcess, shape, noQuote, unQuoteStr, unQuoteLoop]
      | cons c pre =>
          right
          simp only [shape, List.length_append, List.length_cons]
          omega

/-- What a pair with a name of two characters or more leaves of the text. -/
theorem getNameValuePair_length {s rest : CString}
    (more : (getNameValuePair (some s) [' '] ['=']).ptr = some rest) :
    rest.length ≤ s.length ∧
      (2 ≤ (getNameValuePair (some s) [' '] ['=']).name.length →
        (getNameValuePair (some s) [' '] ['=']).value.length + 2 + rest.length ≤ s.length) := by
  have nonempty : s ≠ [] := by
    rintro rfl
    simp [getNameValuePair] at more
  obtain ⟨pair, token, short⟩ : ∃ pair,
      getToken (some s) [' '] getTokenHonorQuotes = ⟨some rest, pair⟩ ∧
        pair.length + rest.length ≤ s.length := by
    cases seen : exposed ' ' none s with
    | true =>
        obtain ⟨pre, behind, shape, token⟩ := getToken_exposed (by decide) seen
        have same : behind = rest := by
          simp only [getNameValuePair, token] at more
          split at more <;> simpa using more
        subst same
        refine ⟨pre, token, ?_⟩
        simp only [shape, List.length_append, List.length_cons]
        omega
    | false =>
        have token := getToken_unexposed (by decide) nonempty seen
        have same : [] = rest := by
          simp only [getNameValuePair, token] at more
          split at more <;> simpa using more
        exact ⟨s, same ▸ token, by simp [← same]⟩
  refine ⟨by omega, fun named => ?_⟩
  by_cases empty : pair = []
  · simp [getNameValuePair, token, empty] at named
  obtain ⟨nameLength, value, behind, cases⟩ := @getToken_name '=' (by decide) pair empty
  simp only [getNameValuePair, token, empty, if_false, behind, copyStr_some] at named ⊢
  have stripped := stripQuotes_length value
  rcases cases with none | none | some
  · simp only [none, List.length_nil] at stripped ⊢
    omega
  · simp [none] at named
  · omega

end VpnMgr.LibUseful
