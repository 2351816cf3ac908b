import VpnMgr.LibUseful.Tokenizer

/-!
# Separated lists of strings

The tokens of a list under a one-character separator are its items, except
that the end of the text does not open another, empty item.
-/

namespace VpnMgr.LibUseful

open VpnMgr.Text CString

/-- `InStringList`. -/
def inStringList (item list separator : CString) : Bool :=
  (getTokens (some list) separator noFlags).any (· == item)

@[simp]
theorem inStringList_iff (item list separator : CString) :
    inStringList item list separator = true ↔
      item ∈ getTokens (some list) separator noFlags := by
  simp [inStringList]

/-- Every token is one of the items between separators. -/
theorem mem_splitOn_of_mem_getTokensFrom {sep : Char} {item : CString} (fuel : Nat) (s : CString)
    (membership : item ∈ getTokensFrom [sep] noFlags fuel (some s)) :
    item ∈ s.splitOn sep := by
  induction fuel generalizing s with
  | zero => simp [getTokensFrom] at membership
  | succ fuel inductionHypothesis =>
      by_cases empty : s = []
      · simp [empty] at membership
      rcases getToken_cases s sep empty with ⟨absent, token⟩ | ⟨pre, rest, rfl, absent, token⟩
      · simp only [getTokensFrom, token, getTokensFrom_nil, List.mem_singleton] at membership
        subst item
        rw [List.splitOn_eq_singleton absent]
        exact List.mem_singleton_self _
      · rw [List.splitOn_append_cons_self_of_not_mem absent]
        simp only [getTokensFrom, token, List.mem_cons] at membership
        rcases membership with rfl | later
        · exact List.mem_cons_self
        · exact List.mem_cons_of_mem _ (inductionHypothesis rest later)

theorem mem_splitOn_of_inStringList {sep : Char} {item list : CString}
    (found : inStringList item list [sep] = true) : item ∈ list.splitOn sep :=
  mem_splitOn_of_mem_getTokensFrom _ _ ((inStringList_iff item list [sep]).mp found)

/-- Every item but an empty one is a token. -/
theorem mem_getTokensFrom_of_mem_splitOn {sep : Char} {item : CString} (nonempty : item ≠ [])
    (fuel : Nat) (s : CString) (enough : s.length ≤ fuel) (membership : item ∈ s.splitOn sep) :
    item ∈ getTokensFrom [sep] noFlags fuel (some s) := by
  have given : s ≠ [] := by
    rintro rfl
    rw [List.splitOn_nil, List.mem_singleton] at membership
    exact nonempty membership
  induction fuel generalizing s with
  | zero => exact absurd (List.eq_nil_of_length_eq_zero (Nat.le_zero.mp enough)) given
  | succ fuel inductionHypothesis =>
      rcases getToken_cases s sep given with ⟨absent, token⟩ | ⟨pre, rest, rfl, absent, token⟩
      · rw [List.splitOn_eq_singleton absent, List.mem_singleton] at membership
        simp [getTokensFrom, token, membership]
      · rw [List.splitOn_append_cons_self_of_not_mem absent] at membership
        simp only [getTokensFrom, token, List.mem_cons]
        refine (List.mem_cons.mp membership).imp id fun later => ?_
        refine inductionHypothesis rest ?_ later ?_
        · rw [List.length_append, List.length_cons] at enough
          omega
        · rintro rfl
          rw [List.splitOn_nil, List.mem_singleton] at later
          exact nonempty later

theorem inStringList_of_mem_splitOn {sep : Char} {item list : CString} (nonempty : item ≠ [])
    (listed : item ∈ list.splitOn sep) : inStringList item list [sep] = true :=
  (inStringList_iff item list [sep]).mpr
    (mem_getTokensFrom_of_mem_splitOn nonempty _ _ le_rfl listed)

end VpnMgr.LibUseful
