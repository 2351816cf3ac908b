import Mathlib.Data.List.Induction
import Mathlib.Tactic.Common

/-!
# The last write wins

A run of operations on a state, and what is read of it at one place: if every
operation either gives the place a value or leaves it alone, the last value
given is read at the end.
-/

namespace VpnMgr.Machine

variable {State Operation Value : Type*} (run : State → Operation → State)
  (read : State → Value) (gives : Operation → Option Value)

def lastGiven (operations : List Operation) : Option Value :=
  (operations.filterMap gives).getLast?

theorem lastGiven_concat (operations : List Operation) (operation : Operation) :
    lastGiven gives (operations ++ [operation]) =
      (gives operation).or (lastGiven gives operations) := by
  cases given : gives operation <;> simp [lastGiven, given]

theorem lastGiven_eq_none_iff (operations : List Operation) :
    lastGiven gives operations = none ↔ ∀ operation ∈ operations, gives operation = none := by
  rw [lastGiven, List.getLast?_eq_none_iff, List.filterMap_eq_nil_iff]

theorem exists_of_lastGiven {operations : List Operation} {value : Value}
    (isLast : lastGiven gives operations = some value) :
    ∃ operation ∈ operations, gives operation = some value :=
  List.mem_filterMap.mp (List.mem_of_getLast? isLast)

theorem read_foldl
    (step : ∀ state operation, read (run state operation) = (gives operation).getD (read state))
    (operations : List Operation) (state : State) :
    read (operations.foldl run state) = (lastGiven gives operations).getD (read state) := by
  induction operations using List.reverseRecOn with
  | nil => rfl
  | append_singleton operations operation inductionHypothesis =>
      rw [List.foldl_append, List.foldl_cons, List.foldl_nil, step, lastGiven_concat,
        inductionHypothesis]
      cases gives operation <;> rfl

end VpnMgr.Machine
