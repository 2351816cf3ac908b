import Mathlib.Data.List.Induction
import Mathlib.Tactic.Common

/-!
# Runs of a state machine

A machine steps from a state by an event, or refuses the event.  A property
of all runs follows from what one step preserves.
-/

namespace VpnMgr.Machine

universe u v

variable {State : Type u} {Event : Type v}

/-- The state after a list of events, if each of them is possible. -/
def run (step : State → Event → Option State) : State → List Event → Option State
  | state, [] => some state
  | state, event :: rest => (step state event).bind fun next => run step next rest

/-- Every event is taken in a state that meets the condition. -/
def EachStep (step : State → Event → Option State) (condition : State → Event → Prop) :
    State → List Event → Prop
  | _, [] => True
  | state, event :: rest =>
      condition state event ∧ ∀ next, step state event = some next →
        EachStep step condition next rest

@[simp]
theorem run_nil (step : State → Event → Option State) (state : State) :
    run step state [] = some state := rfl

theorem run_cons {step : State → Event → Option State} {state final : State} {event : Event}
    {rest : List Event} (taken : run step state (event :: rest) = some final) :
    ∃ next, step state event = some next ∧ run step next rest = some final :=
  Option.bind_eq_some_iff.mp taken

theorem run_append (step : State → Event → Option State) (state : State)
    (first second : List Event) :
    run step state (first ++ second) =
      (run step state first).bind fun middle => run step middle second := by
  induction first generalizing state with
  | nil => rfl
  | cons event rest inductionHypothesis =>
      simp only [List.cons_append, run, Option.bind_assoc, inductionHypothesis]

theorem run_split {step : State → Event → Option State} {state final : State} {event : Event}
    {front behind : List Event} (taken : run step state (front ++ event :: behind) = some final) :
    ∃ here next, run step state front = some here ∧ step here event = some next ∧
      run step next behind = some final := by
  rw [run_append] at taken
  obtain ⟨here, reached, rest⟩ := Option.bind_eq_some_iff.mp taken
  obtain ⟨next, stepped, remaining⟩ := run_cons rest
  exact ⟨here, next, reached, stepped, remaining⟩

theorem run_history {step : State → Event → Option State} {invariant : List Event → State → Prop}
    {start : State} (initial : invariant [] start)
    (preserved : ∀ events state event next, step state event = some next →
      invariant events state → invariant (events ++ [event]) next)
    {final : State} (events : List Event) (taken : run step start events = some final) :
    invariant events final := by
  induction events using List.reverseRecOn generalizing final with
  | nil =>
      obtain rfl := Option.some.inj taken
      exact initial
  | append_singleton events event inductionHypothesis =>
      obtain ⟨here, next, reached, stepped, ended⟩ := run_split taken
      obtain rfl := Option.some.inj ended
      exact preserved events here event next stepped (inductionHypothesis reached)

theorem run_invariant {step : State → Event → Option State}
    {condition : State → Event → Prop} {invariant : State → Prop}
    (preserved : ∀ state event next, step state event = some next → condition state event →
      invariant state → invariant next)
    {state final : State} (events : List Event) (taken : run step state events = some final)
    (conditions : EachStep step condition state events) (initial : invariant state) :
    invariant final := by
  induction events generalizing state with
  | nil =>
      obtain rfl := Option.some.inj taken
      exact initial
  | cons event rest inductionHypothesis =>
      obtain ⟨next, stepped, remaining⟩ := run_cons taken
      exact inductionHypothesis remaining (conditions.2 next stepped)
        (preserved state event next stepped conditions.1 initial)

theorem EachStep.of_forall {step : State → Event → Option State}
    {condition : State → Event → Prop} (always : ∀ state event, condition state event)
    (state : State) (events : List Event) : EachStep step condition state events := by
  induction events generalizing state with
  | nil => trivial
  | cons event rest inductionHypothesis =>
      exact ⟨always state event, fun next _ => inductionHypothesis next⟩

theorem run_invariant_of_step {step : State → Event → Option State} {invariant : State → Prop}
    (preserved : ∀ state event next, step state event = some next → invariant state →
      invariant next)
    {state final : State} (events : List Event) (taken : run step state events = some final)
    (initial : invariant state) : invariant final := by
  have conditions : EachStep step (fun _ _ => True) state events :=
    EachStep.of_forall (fun _ _ => trivial) state events
  exact run_invariant (fun state event next stepped _ => preserved state event next stepped)
    events taken conditions initial

/-- Where the condition is exactly what a step needs to keep the invariant, it
holds in every step of a run if and only if the invariant holds in every state
reached on the way. -/
theorem run_prefixes_iff {step : State → Event → Option State} {support invariant : State → Prop}
    {condition : State → Event → Prop}
    (supported : ∀ state event next, step state event = some next → support state → support next)
    (exact : ∀ state event next, step state event = some next → support state →
      invariant state → (invariant next ↔ condition state event))
    {state final : State} (events : List Event) (taken : run step state events = some final)
    (support : support state) (initial : invariant state) :
    (∀ before after middle, events = before ++ after →
      run step state before = some middle → invariant middle) ↔
        EachStep step condition state events := by
  induction events generalizing state with
  | nil =>
      refine iff_of_true (fun before after middle split reached => ?_) trivial
      obtain ⟨rfl, -⟩ := List.append_eq_nil_iff.mp split.symm
      obtain rfl := Option.some.inj reached
      exact initial
  | cons event rest inductionHypothesis =>
      obtain ⟨next, stepped, remaining⟩ := run_cons taken
      have supportNext := supported state event next stepped support
      have needed := exact state event next stepped support initial
      constructor
      · intro always
        have afterFirst : invariant next := by
          refine always [event] rest next rfl ?_
          simp [run, stepped]
        refine ⟨needed.mp afterFirst, fun next' stepped' => ?_⟩
        obtain rfl := Option.some.inj (stepped.symm.trans stepped')
        refine (inductionHypothesis remaining supportNext afterFirst).mp ?_
        intro before after middle split reached
        refine always (event :: before) after middle (by rw [split, List.cons_append]) ?_
        rw [run, stepped, Option.bind_some, reached]
      · rintro ⟨first, later⟩ before after middle split reached
        cases before with
        | nil =>
            obtain rfl := Option.some.inj reached
            exact initial
        | cons head before =>
            obtain ⟨rfl, splitRest⟩ := List.cons.inj split
            obtain ⟨next', stepped', reachedNext⟩ := run_cons reached
            obtain rfl := Option.some.inj (stepped.symm.trans stepped')
            exact (inductionHypothesis remaining supportNext (needed.mpr first)).mpr
              (later next stepped) before after middle splitRest reachedNext

end VpnMgr.Machine
