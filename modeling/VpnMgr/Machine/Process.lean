import Mathlib.Tactic.Common

/-!
# Processes that ask an environment

A process makes calls one after the other and goes on with the answers.  The
environment may answer in any way, also depending on all that came before, so
a property of every environment is one of every run.
-/

namespace VpnMgr.Machine

variable {Call : Type} {Answer : Call → Type} {α β σ : Type}

abbrev History (Answer : Call → Type) := List (Sigma Answer)

abbrev Environment (Answer : Call → Type) := History Answer → (call : Call) → Answer call

/-- How a process ends: with a result, or by exiting on the spot. -/
inductive Ending (α : Type) where
  | returned (result : α)
  | exited
  deriving DecidableEq

def Ending.map (f : α → β) : Ending α → Ending β
  | .returned result => .returned (f result)
  | .exited => .exited

/-- The ending and the history after, or `none` for a process that has not
ended within its fuel. -/
def Process (Answer : Call → Type) (α : Type) :=
  Environment Answer → History Answer → Option (Ending α × History Answer)

namespace Process

instance : Monad (Process Answer) where
  pure result := fun _ history => some (.returned result, history)
  bind process next := fun env history =>
    match process env history with
    | some (.returned result, reached) => next result env reached
    | some (.exited, reached) => some (.exited, reached)
    | none => none

def ask (call : Call) : Process Answer (Answer call) := fun env history =>
  some (.returned (env history call), history ++ [⟨call, env history call⟩])

def exit : Process Answer α := fun _ history => some (.exited, history)

/-- Repeat until the body gives a result. -/
def loop (body : σ → Process Answer (σ ⊕ α)) : Nat → σ → Process Answer α
  | 0, _ => fun _ _ => none
  | fuel + 1, state => do
      match ← body state with
      | .inl next => loop body fuel next
      | .inr result => pure result

/-- At most so many rounds: the state reached, or the result. -/
def rounds (body : σ → Process Answer (σ ⊕ α)) : Nat → σ → Process Answer (σ ⊕ α)
  | 0, state => pure (.inl state)
  | n + 1, state => do
      match ← body state with
      | .inl next => rounds body n next
      | .inr result => pure (.inr result)

def when (condition : Bool) (process : Process Answer Unit) : Process Answer Unit :=
  if condition then process else pure ()

/-- Do the same for every item of a list. -/
def each (items : List β) (body : β → Process Answer Unit) : Process Answer Unit :=
  match items with
  | [] => pure ()
  | item :: rest => do
      body item
      each rest body

/-! ## Specifications -/

/-- Whenever the process returns, the result and the calls it made meet the
first condition; whenever it exits, the calls meet the second. -/
def Ends (process : Process Answer α) (post : α → History Answer → Prop)
    (gone : History Answer → Prop) : Prop :=
  ∀ env before ending after, process env before = some (ending, after) →
    ∃ made, after = before ++ made ∧
      match ending with
      | .returned result => post result made
      | .exited => gone made

def Yields (process : Process Answer α) (post : α → History Answer → Prop) : Prop :=
  process.Ends post fun _ => True

variable {process : Process Answer α} {next : α → Process Answer β}
  {post first : α → History Answer → Prop} {last : β → History Answer → Prop}
  {gone : History Answer → Prop}

theorem Yields.returned (yields : process.Yields post) {env : Environment Answer} {result : α}
    {made : History Answer} (run : process env [] = some (.returned result, made)) :
    post result made := by
  obtain ⟨_, rfl, held⟩ := yields env [] _ made run
  simpa using held

theorem Ends.mono {goneFirst : History Answer → Prop} (ends : process.Ends first goneFirst)
    (weaker : ∀ result made, first result made → post result made)
    (weakerGone : ∀ made, goneFirst made → gone made) : process.Ends post gone := by
  intro env before ending after ended
  obtain ⟨made, rfl, held⟩ := ends env before ending after ended
  refine ⟨made, rfl, ?_⟩
  cases ending with
  | returned result => exact weaker result made held
  | exited => exact weakerGone made held

theorem Ends.yields (ends : process.Ends post gone) : process.Yields post :=
  Ends.mono ends (fun _ _ held => held) fun _ _ => trivial

theorem Yields.mono (yields : process.Yields first)
    (weaker : ∀ result made, first result made → post result made) : process.Yields post :=
  Ends.mono yields weaker fun _ _ => trivial

theorem Ends.and {other : α → History Answer → Prop} {goneOther : History Answer → Prop}
    (ends : process.Ends post gone) (endsOther : process.Ends other goneOther) :
    process.Ends (fun result made => post result made ∧ other result made)
      fun made => gone made ∧ goneOther made := by
  intro env before ending after ended
  obtain ⟨made, rfl, held⟩ := ends env before ending after ended
  obtain ⟨same, split, heldOther⟩ := endsOther env before ending _ ended
  obtain rfl := List.append_cancel_left split
  refine ⟨made, rfl, ?_⟩
  cases ending with
  | returned => exact ⟨held, heldOther⟩
  | exited => exact ⟨held, heldOther⟩

theorem Ends.pure {result : α} (held : post result []) :
    (pure result : Process Answer α).Ends post gone := by
  intro env before ending after ended
  obtain ⟨rfl, rfl⟩ := Prod.mk.inj (Option.some.inj ended)
  exact ⟨[], by simp, held⟩

theorem Ends.exit (held : gone []) : (exit : Process Answer α).Ends post gone := by
  intro env before ending after ended
  obtain ⟨rfl, rfl⟩ := Prod.mk.inj (Option.some.inj ended)
  exact ⟨[], by simp, held⟩

theorem Ends.ask {call : Call} {post : Answer call → History Answer → Prop}
    (held : ∀ answer, post answer [⟨call, answer⟩]) : (ask call).Ends post gone := by
  intro env before ending after ended
  obtain ⟨rfl, rfl⟩ := Prod.mk.inj (Option.some.inj ended)
  exact ⟨_, rfl, held _⟩

theorem Ends.asked (call : Call) :
    (Process.ask call).Ends (fun answer (made : History Answer) => made = [⟨call, answer⟩]) gone :=
  Ends.ask fun _ => rfl

theorem bind_run (process : Process Answer α) (next : α → Process Answer β)
    (env : Environment Answer) (before : History Answer) :
    (process >>= next) env before = match process env before with
      | some (.returned result, reached) => next result env reached
      | some (.exited, reached) => some (.exited, reached)
      | none => none := rfl

theorem Ends.bind (ends : process.Ends first gone)
    (continued : ∀ result made, first result made →
      (next result).Ends (fun final more => last final (made ++ more))
        fun more => gone (made ++ more)) :
    (process >>= next).Ends last gone := by
  intro env before ending after ended
  rw [bind_run] at ended
  rcases reached : process env before with _ | ⟨result | _, history⟩
  · rw [reached] at ended
    cases ended
  · rw [reached] at ended
    obtain ⟨made, rfl, held⟩ := ends env before _ history reached
    obtain ⟨more, rfl, final⟩ := continued result made held env _ ending after ended
    refine ⟨made ++ more, by simp, ?_⟩
    cases ending with
    | returned => exact final
    | exited => exact final
  · rw [reached] at ended
    obtain ⟨rfl, rfl⟩ := Prod.mk.inj (Option.some.inj ended)
    exact ends env before _ history reached

theorem Ends.ite {condition : Prop} [Decidable condition] {yes no : Process Answer α}
    (endsYes : condition → yes.Ends post gone) (endsNo : ¬ condition → no.Ends post gone) :
    (if condition then yes else no).Ends post gone := by
  split
  case isTrue holds => exact endsYes holds
  case isFalse fails => exact endsNo fails

/-- What holds before a round of the loop and after it holds at its end. -/
theorem Ends.loop {body : σ → Process Answer (σ ⊕ α)} {invariant : σ → History Answer → Prop}
    (round : ∀ state made, invariant state made → (body state).Ends (fun next more =>
      match next with
      | .inl state => invariant state (made ++ more)
      | .inr result => post result (made ++ more)) fun more => gone (made ++ more))
    (fuel : Nat) {state : σ} (initial : invariant state []) :
    (loop body fuel state).Ends post gone := by
  have rounds : ∀ (fuel : Nat) (state : σ) (made : History Answer), invariant state made →
      (Process.loop body fuel state).Ends (fun result more => post result (made ++ more))
        fun more => gone (made ++ more) := by
    intro fuel
    induction fuel with
    | zero =>
        intro state made _ env before ending after ended
        exact absurd ended (by simp [Process.loop])
    | succ fuel inductionHypothesis =>
        intro state made held
        refine (round state made held).bind fun next more after => ?_
        cases next with
        | inl state =>
            refine (inductionHypothesis state (made ++ more) after).mono ?_ ?_
            · exact fun _ _ => by rw [List.append_assoc]; exact id
            · exact fun _ => by rw [List.append_assoc]; exact id
        | inr result => exact .pure (by simpa using after)
  simpa using rounds fuel state [] initial

/-- A specification of the whole loop, read off its first round. -/
theorem Ends.loop_from {body : σ → Process Answer (σ ⊕ α)}
    {spec : σ → α → History Answer → Prop} {goneFrom : σ → History Answer → Prop}
    (round : ∀ state, (body state).Ends (fun next made =>
      match next with
      | .inl later =>
          (∀ result more, spec later result more → spec state result (made ++ more)) ∧
            ∀ more, goneFrom later more → goneFrom state (made ++ more)
      | .inr result => spec state result made) (goneFrom state))
    (fuel : Nat) (state : σ) :
    (Process.loop body fuel state).Ends (spec state) (goneFrom state) := by
  induction fuel generalizing state with
  | zero =>
      intro env before ending after ended
      exact absurd ended (by simp [Process.loop])
  | succ fuel inductionHypothesis =>
      refine (round state).bind fun next made after => ?_
      cases next with
      | inl later => exact (inductionHypothesis later).mono (fun _ _ => after.1 _ _) (after.2 ·)
      | inr result => exact .pure (by simpa using after)

/-- The same for a number of rounds. -/
theorem Ends.rounds_from {body : σ → Process Answer (σ ⊕ α)}
    {spec : σ → σ ⊕ α → History Answer → Prop} {goneFrom : σ → History Answer → Prop}
    (start : ∀ state, spec state (.inl state) [])
    (round : ∀ state, (body state).Ends (fun next made =>
      match next with
      | .inl later =>
          (∀ result more, spec later result more → spec state result (made ++ more)) ∧
            ∀ more, goneFrom later more → goneFrom state (made ++ more)
      | .inr result => spec state (.inr result) made) (goneFrom state))
    (n : Nat) (state : σ) :
    (Process.rounds body n state).Ends (spec state) (goneFrom state) := by
  induction n generalizing state with
  | zero => exact .pure (start state)
  | succ n inductionHypothesis =>
      refine (round state).bind fun next made after => ?_
      cases next with
      | inl later => exact (inductionHypothesis later).mono (fun _ _ => after.1 _ _) (after.2 ·)
      | inr result => exact .pure (by simpa using after)

/-- A loop that has ended has taken no more rounds than its fuel. -/
theorem rounds_of_loop {body : σ → Process Answer (σ ⊕ α)} {fuel : Nat} {state : σ}
    {env : Environment Answer} {before after : History Answer} {ending : Ending α}
    (ended : loop body fuel state env before = some (ending, after)) :
    rounds body fuel state env before = some (ending.map .inr, after) := by
  induction fuel generalizing state before with
  | zero => exact absurd ended (by simp [Process.loop])
  | succ fuel inductionHypothesis =>
      rw [loop, bind_run] at ended
      rw [rounds, bind_run]
      rcases reached : body state env before with _ | ⟨(next | result) | _, history⟩
      · rw [reached] at ended
        cases ended
      · rw [reached] at ended
        exact inductionHypothesis ended
      · rw [reached] at ended
        obtain ⟨rfl, rfl⟩ := Prod.mk.inj (Option.some.inj ended)
        rfl
      · rw [reached] at ended
        obtain ⟨rfl, rfl⟩ := Prod.mk.inj (Option.some.inj ended)
        rfl

/-- A property of histories that survives their composition, and one for the
histories of processes that exit. -/
structure Composable (property gone : History Answer → Prop) : Prop where
  nil : property []
  append : ∀ first second, property first → property second → property (first ++ second)
  exits : ∀ first second, property first → gone second → gone (first ++ second)

/-- The calls of the process have the property, whatever its result. -/
def Makes (process : Process Answer α) (property gone : History Answer → Prop) : Prop :=
  process.Ends (fun _ made => property made) gone

variable {property : History Answer → Prop}

theorem Makes.ended (makes : process.Makes property property) {env : Environment Answer}
    {ending : Ending α} {made : History Answer} (run : process env [] = some (ending, made)) :
    property made := by
  obtain ⟨_, rfl, held⟩ := makes env [] _ made run
  cases ending with
  | returned => simpa using held
  | exited => simpa using held

theorem Makes.pure (composable : Composable property gone) (result : α) :
    (pure result : Process Answer α).Makes property gone := Ends.pure composable.nil

theorem Makes.ask {call : Call} (held : ∀ answer, property [⟨call, answer⟩]) :
    (ask call).Makes property gone := Ends.ask held

theorem Makes.bind (composable : Composable property gone) (makes : process.Makes property gone)
    (continued : ∀ result, (next result).Makes property gone) :
    (process >>= next).Makes property gone :=
  Ends.bind makes fun result made held =>
    (continued result).mono (fun _ more heldMore => composable.append made more held heldMore)
      fun more heldMore => composable.exits made more held heldMore

theorem Makes.bind_yields (composable : Composable property gone)
    (makes : process.Makes property gone) (yields : process.Yields post)
    (continued : ∀ result made, post result made → (next result).Makes property gone) :
    (process >>= next).Makes property gone := by
  have both : process.Ends (fun result made => property made ∧ post result made) gone :=
    Ends.mono (Ends.and makes yields) (fun _ _ held => held) fun _ held => held.1
  exact both.bind fun result made held => (continued result made held.2).mono
    (fun _ more heldMore => composable.append made more held.1 heldMore)
    fun more heldMore => composable.exits made more held.1 heldMore

theorem Makes.when (composable : Composable property gone) {condition : Bool}
    {process : Process Answer Unit} (makes : process.Makes property gone) :
    (when condition process).Makes property gone := by
  unfold Process.when
  split
  · exact makes
  · exact .pure composable ()

theorem Makes.ite {condition : Prop} [Decidable condition] {yes no : Process Answer α}
    (makesYes : yes.Makes property gone) (makesNo : no.Makes property gone) :
    (if condition then yes else no).Makes property gone := by
  split
  · exact makesYes
  · exact makesNo

theorem Makes.loop (composable : Composable property gone) {body : σ → Process Answer (σ ⊕ α)}
    (round : ∀ state, (body state).Makes property gone) (fuel : Nat) (state : σ) :
    (loop body fuel state).Makes property gone := by
  refine @Ends.loop _ _ _ _ _ _ _ (fun _ made => property made) (fun state made held => ?_)
    fuel state composable.nil
  refine (round state).mono (fun next more heldMore => ?_)
    fun more heldMore => composable.exits made more held heldMore
  cases next with
  | inl => exact composable.append made more held heldMore
  | inr => exact composable.append made more held heldMore

theorem Makes.rounds (composable : Composable property gone) {body : σ → Process Answer (σ ⊕ α)}
    (round : ∀ state, (body state).Makes property gone) (n : Nat) (state : σ) :
    (rounds body n state).Makes property gone := by
  refine @Ends.rounds_from _ _ _ _ _ (fun _ _ made => property made) (fun _ => gone)
    (fun _ => composable.nil) (fun state => ?_) n state
  refine (round state).mono (fun next made held => ?_) fun _ held => held
  cases next with
  | inl => exact ⟨fun _ more => composable.append made more held,
      fun more => composable.exits made more held⟩
  | inr => exact held

theorem Makes.each (composable : Composable property gone) {items : List β}
    {body : β → Process Answer Unit} (makes : ∀ item ∈ items, (body item).Makes property gone) :
    (each items body).Makes property gone := by
  induction items with
  | nil => exact .pure composable ()
  | cons item rest inductionHypothesis =>
      refine (makes item List.mem_cons_self).bind composable fun _ => ?_
      exact inductionHypothesis fun other member => makes other (List.mem_cons_of_mem _ member)

def Only (allowed : Call → Bool) (made : History Answer) : Prop :=
  ∀ interaction ∈ made, allowed interaction.1 = true

variable {allowed wider : Call → Bool}

theorem Only.append {first second : History Answer} (onlyFirst : Only allowed first)
    (onlySecond : Only allowed second) : Only allowed (first ++ second) := by
  intro interaction member
  rcases List.mem_append.mp member with inFirst | inSecond
  · exact onlyFirst interaction inFirst
  · exact onlySecond interaction inSecond

theorem composable_only (allowed : Call → Bool) :
    Composable (Only allowed) (Only allowed : History Answer → Prop) where
  nil := fun _ member => absurd member List.not_mem_nil
  append _ _ := Only.append
  exits _ _ := Only.append

def Uses (allowed : Call → Bool) (process : Process Answer α) : Prop :=
  process.Makes (Only allowed) (Only allowed)

theorem Uses.yields (uses : process.Uses allowed) :
    process.Yields fun _ made => Only allowed made :=
  Ends.mono uses (fun _ _ only => only) fun _ _ => trivial

theorem Uses.mono (uses : process.Uses allowed)
    (inclusion : ∀ call, allowed call = true → wider call = true) : process.Uses wider :=
  Ends.mono uses (fun _ _ only interaction member => inclusion _ (only interaction member))
    fun _ only interaction member => inclusion _ (only interaction member)

theorem Uses.before (uses : process.Uses allowed)
    (absorbs : ∀ result before made, Only allowed before → last result made →
      last result (before ++ made))
    (rest : ∀ result, (next result).Yields last) : (process >>= next).Yields last :=
  uses.yields.bind fun result before only =>
    (rest result).mono fun final made => absorbs final before made only

theorem Uses.before_ends (uses : process.Uses allowed)
    (absorbs : ∀ result before made, Only allowed before → last result made →
      last result (before ++ made))
    (absorbsGone : ∀ before made, Only allowed before → gone made → gone (before ++ made))
    (exits : ∀ made, Only allowed made → gone made)
    (rest : ∀ result, (next result).Ends last gone) : (process >>= next).Ends last gone :=
  Ends.bind (Ends.mono uses (fun _ _ only => only) exits) fun result before only =>
    (rest result).mono (fun final made => absorbs final before made only)
      fun made => absorbsGone before made only

theorem Uses.pure (result : α) : (pure result : Process Answer α).Uses allowed :=
  Makes.pure (composable_only allowed) result

theorem Uses.exit : (exit : Process Answer α).Uses allowed := Ends.exit (composable_only allowed).nil

theorem Uses.ask {call : Call} (isAllowed : allowed call = true) :
    (ask call : Process Answer _).Uses allowed :=
  Makes.ask fun _ _ member => List.mem_singleton.mp member ▸ isAllowed

theorem Uses.bind (uses : process.Uses allowed) (continued : ∀ result, (next result).Uses allowed) :
    (process >>= next).Uses allowed :=
  Makes.bind (composable_only allowed) uses continued

theorem Uses.when {condition : Bool} {process : Process Answer Unit}
    (uses : process.Uses allowed) : (when condition process).Uses allowed :=
  Makes.when (composable_only allowed) uses

theorem Uses.ite {condition : Prop} [Decidable condition] {yes no : Process Answer α}
    (usesYes : yes.Uses allowed) (usesNo : no.Uses allowed) :
    (if condition then yes else no).Uses allowed := Makes.ite usesYes usesNo

theorem Uses.each {items : List β} {body : β → Process Answer Unit}
    (uses : ∀ item, (body item).Uses allowed) : (each items body).Uses allowed :=
  Makes.each (composable_only allowed) fun item _ => uses item

theorem Uses.loop {body : σ → Process Answer (σ ⊕ α)} (round : ∀ state, (body state).Uses allowed)
    (fuel : Nat) (state : σ) : (loop body fuel state).Uses allowed :=
  Makes.loop (composable_only allowed) round fuel state

end Process

end VpnMgr.Machine
