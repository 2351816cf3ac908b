import VpnMgr.LibUseful.QuotedTokens

/-!
# The characters of tokens

A token of a text without backslashes has only characters of the text.
-/

namespace VpnMgr.LibUseful

open VpnMgr.Text CString

def SepMatch.Within (s : CString) : SepMatch → Prop
  | .matched stop => stop <:+ s
  | .failed => True
  | .moved start found => start <:+ s ∧ (found = true → '\\' ∈ s)

theorem SepMatch.Within.grow {s t : CString} {outcome : SepMatch} (within : outcome.Within s)
    (suffix : s <:+ t) : outcome.Within t := by
  cases outcome with
  | matched stop => exact within.trans suffix
  | failed => trivial
  | moved start found => exact ⟨within.1.trans suffix, fun isFound => suffix.subset (within.2 isFound)⟩

theorem getTokenSepMatch_within (flags : TokenFlags) (items : List PatternItem) (s : CString) :
    (getTokenSepMatch flags items s).Within s := by
  have spaces (rest : CString) : skipSpace rest <:+ rest := List.dropWhile_suffix _
  fun_induction getTokenSepMatch flags items s with
  | case1 eptr => exact List.suffix_refl eptr
  | case2 => exact ⟨List.suffix_refl [], by simp⟩
  | case3 item items rest => exact ⟨List.suffix_cons _ _, by simp⟩
  | case4 => trivial
  | case5 items c rest notEscape notQuote isBlank inductionHypothesis =>
      exact inductionHypothesis.grow (spaces _)
  | case6 => trivial
  | case7 items c rest notEscape notQuote isBlank inductionHypothesis =>
      exact inductionHypothesis.grow (spaces _)
  | case8 items c rest notEscape notQuote notBlank isCode inductionHypothesis =>
      exact inductionHypothesis.grow (List.suffix_cons _ _)
  | case9 => trivial
  | case10 items c rest notEscape notQuote inductionHypothesis =>
      exact inductionHypothesis.grow (List.suffix_cons _ _)
  | case11 => trivial

theorem getTokenStepThru_suffix (s : CString) (flags : TokenFlags) :
    (getTokenStepThru s flags).1 <:+ s := by
  unfold getTokenStepThru
  split
  next => exact List.suffix_refl _
  next c rest =>
    split
    · split
      · exact List.suffix_cons _ _
      · exact (List.drop_suffix _ _).trans (List.suffix_cons _ _)
    · split
      · exact (List.drop_suffix _ _).trans
          ((traverseUntil_suffix c rest).trans (List.suffix_cons _ _))
      · exact List.suffix_cons _ _

theorem getTokenStepThru_flags {s : CString} (noEscape : '\\' ∉ s) (flags : TokenFlags) :
    (getTokenStepThru s flags).2 = flags := by
  unfold getTokenStepThru
  split
  next => rfl
  next c rest =>
    have solid : c ≠ '\\' := fun isEscape => noEscape (isEscape ▸ List.mem_cons_self)
    rw [if_neg solid]
    split <;> rfl

/-- The text behind the separator is an end of the text. -/
theorem getTokenFindSeparator_suffix (items : List PatternItem) (fuel : Nat) {s : CString}
    (noEscape : '\\' ∉ s) (flags : TokenFlags) :
    (getTokenFindSeparator items fuel s flags).sepEnd <:+ s ∧
      (getTokenFindSeparator items fuel s flags).flags = flags := by
  induction fuel generalizing s with
  | zero => exact ⟨List.suffix_refl _, rfl⟩
  | succ fuel inductionHypothesis =>
      cases s with
      | nil => exact ⟨List.suffix_refl _, rfl⟩
      | cons c rest =>
          have within := getTokenSepMatch_within flags items (c :: rest)
          have goesOn {next : CString} (suffix : next <:+ c :: rest) :
              (getTokenFindSeparator items fuel next flags).sepEnd <:+ c :: rest ∧
                (getTokenFindSeparator items fuel next flags).flags = flags := by
            have later := inductionHypothesis fun inside => noEscape (suffix.subset inside)
            exact ⟨later.1.trans suffix, later.2⟩
          have solid : c ≠ '\\' := fun isEscape => noEscape (isEscape ▸ List.mem_cons_self)
          rw [getTokenFindSeparator, if_neg solid]
          cases outcome : getTokenSepMatch flags items (c :: rest) with
          | matched stop =>
              rw [outcome] at within
              exact ⟨within, rfl⟩
          | failed =>
              simp only [getTokenStepThru_flags noEscape]
              exact goesOn (getTokenStepThru_suffix _ _)
          | moved start found =>
              rw [outcome] at within
              have same : (flags.foundBackslash || found) = flags.foundBackslash := by
                cases found with
                | false => exact Bool.or_false _
                | true => exact absurd (within.2 rfl) noEscape
              have noEscapeLater : '\\' ∉ start := fun inside => noEscape (within.1.subset inside)
              simp only [same, getTokenStepThru_flags noEscapeLater]
              exact goesOn ((getTokenStepThru_suffix _ _).trans within.1)

theorem getTokenPostProcess_chars {s : CString} {found : Separator} (suffix : found.sepEnd <:+ s)
    (noEscape : found.flags.foundBackslash = false) {c : Char}
    (inside : c ∈ (getTokenPostProcess s found).text ∨
      c ∈ copyStr (getTokenPostProcess s found).ptr) : c ∈ s := by
  have taken (n : Nat) {d : Char} (member : d ∈ s.take n) : d ∈ s :=
    (List.take_prefix _ _).subset member
  rcases inside with inText | inRest
  · simp only [getTokenPostProcess, noEscape, Bool.and_false, Bool.false_eq_true, if_false] at inText
    split at inText
    case isTrue =>
      split at inText
      · exact (List.drop_suffix _ _).subset inText
      · exact taken _ ((List.drop_suffix _ _).subset ((List.dropLast_prefix _).subset inText))
    case isFalse => exact taken _ inText
  · exact suffix.subset inRest

/-- Both the token and what is left of the text consist of its characters. -/
theorem getToken_chars {p : CPtr} (noEscape : '\\' ∉ copyStr p) (separator : CString)
    {flags : TokenFlags} (fresh : flags.foundBackslash = false) {c : Char}
    (inside : c ∈ (getToken p separator flags).text ∨
      c ∈ copyStr (getToken p separator flags).ptr) : c ∈ copyStr p := by
  unfold getToken at inside
  split at inside
  case isTrue => simp [copyStr] at inside
  split at inside
  case isTrue => simpa [copyStr] using inside
  simp only at inside
  split at inside
  next =>
    split at inside
    next => simpa [copyStr] using inside
    next found rest shape =>
      have suffix : found :: rest <:+ copyStr p := shape ▸ List.dropWhile_suffix _
      rcases inside with inText | inRest
      · exact (List.takeWhile_prefix _).subset inText
      · exact suffix.subset (List.mem_cons_of_mem _ inRest)
  next =>
    have search (items : List PatternItem) :=
      getTokenFindSeparator_suffix items (copyStr p).length noEscape flags
    refine getTokenPostProcess_chars (search _).1 ?_ inside
    rw [(search _).2, fresh]

theorem getTokens_chars {p : CPtr} (noEscape : '\\' ∉ copyStr p) (separator : CString)
    {flags : TokenFlags} (fresh : flags.foundBackslash = false) {token : CString}
    (member : token ∈ getTokens p separator flags) {c : Char} (inside : c ∈ token) :
    c ∈ copyStr p := by
  unfold getTokens at member
  generalize (copyStr p).length = fuel at member
  induction fuel generalizing p with
  | zero => exact absurd member List.not_mem_nil
  | succ fuel inductionHypothesis =>
      have here := @getToken_chars p noEscape separator flags fresh c
      rw [getTokensFrom] at member
      split at member
      next => exact absurd member List.not_mem_nil
      next rest shape =>
        rw [shape] at here
        rcases List.mem_cons.mp member with rfl | later
        · exact here (.inl inside)
        · refine here (.inr (inductionHypothesis (fun escape => ?_) later))
          refine noEscape (@getToken_chars p noEscape separator flags fresh '\\' (.inr ?_))
          rwa [shape]

end VpnMgr.LibUseful
