import VpnMgr.Machine.Process

/-!
# Processes that end

A loop goes on only after certain answers.  Where the environment gives no more
than a number of these, the number bounds the rounds of every loop, so one more
is fuel enough.
-/

namespace VpnMgr.Machine

variable {Call : Type} {Answer : Call → Type} {α β σ : Type}

/-- Once so many answers have kept a loop going, no other does. -/
def KeepsGoing (continues : Sigma Answer → Bool) (limit : Nat) (env : Environment Answer) : Prop :=
  ∀ history call, history.countP continues = limit → continues ⟨call, env history call⟩ = false

namespace Process

/-- In such an environment the process ends, and its result and calls meet the
condition. -/
def Halts (continues : Sigma Answer → Bool) (limit : Nat) (process : Process Answer α)
    (post : α → History Answer → Prop) : Prop :=
  ∀ env, KeepsGoing continues limit env → ∀ before : History Answer,
    before.countP continues ≤ limit → ∃ ending made,
      process env before = some (ending, before ++ made) ∧
        (before ++ made).countP continues ≤ limit ∧
        ∀ result, ending = .returned result → post result made

def Moves (continues : Sigma Answer → Bool) (next : σ ⊕ α) (made : History Answer) : Prop :=
  next.isLeft = true → 0 < made.countP continues

theorem Moves.after {continues : Sigma Answer → Bool} {next : σ ⊕ α} {made : History Answer}
    (moves : Moves continues next made) (before : History Answer) :
    Moves continues next (before ++ made) := fun isLeft => by
  rw [List.countP_append]
  exact Nat.lt_of_lt_of_le (moves isLeft) (Nat.le_add_left _ _)

def Stops (continues : Sigma Answer → Bool) (limit : Nat) (process : Process Answer α) : Prop :=
  Halts continues limit process fun _ _ => True

variable {continues : Sigma Answer → Bool} {limit : Nat} {process : Process Answer α}
  {next : α → Process Answer β} {post first : α → History Answer → Prop}
  {last : β → History Answer → Prop}

namespace Halts

theorem mono (halts : Halts continues limit process first)
    (weaker : ∀ result made, first result made → post result made) :
    Halts continues limit process post := by
  intro env bounded before few
  obtain ⟨ending, made, ended, stillFew, held⟩ := halts env bounded before few
  exact ⟨ending, made, ended, stillFew, fun result returned =>
    weaker result made (held result returned)⟩

theorem pure {result : α} (held : post result []) :
    Halts continues limit (pure result : Process Answer α) post := by
  intro env bounded before few
  refine ⟨.returned result, [], by simp; rfl, by simpa using few, fun other returned => ?_⟩
  obtain rfl := Ending.returned.inj returned
  exact held

theorem exit : Halts continues limit (exit : Process Answer α) post := by
  intro env bounded before few
  exact ⟨.exited, [], by simp; rfl, by simpa using few, fun _ returned => by cases returned⟩

theorem ask {call : Call} {post : Answer call → History Answer → Prop}
    (held : ∀ answer, post answer [⟨call, answer⟩]) : Halts continues limit (ask call) post := by
  intro env bounded before few
  refine ⟨.returned (env before call), [⟨call, env before call⟩], rfl, ?_, fun other returned => ?_⟩
  · rw [List.countP_append, List.countP_singleton]
    by_cases reached : before.countP continues = limit
    · simp [bounded before call reached, few]
    · split <;> omega
  · obtain rfl := Ending.returned.inj returned
    exact held _

theorem asked (call : Call) : Halts continues limit (Process.ask call) fun answer made =>
    made = [(⟨call, answer⟩ : Sigma Answer)] :=
  ask fun _ => rfl

theorem bind (halts : Halts continues limit process first)
    (continued : ∀ result made, first result made →
      Halts continues limit (next result) fun final more => last final (made ++ more)) :
    Halts continues limit (process >>= next) last := by
  intro env bounded before few
  obtain ⟨ending, made, ended, stillFew, held⟩ := halts env bounded before few
  rw [bind_run, ended]
  cases ending with
  | exited => exact ⟨.exited, made, rfl, stillFew, fun _ returned => by cases returned⟩
  | returned result =>
      obtain ⟨final, more, finished, fewAtEnd, heldAtEnd⟩ :=
        continued result made (held result rfl) env bounded (before ++ made) stillFew
      refine ⟨final, made ++ more, ?_, ?_, heldAtEnd⟩
      · rw [← List.append_assoc]
        exact finished
      · rwa [← List.append_assoc]

theorem ite {condition : Prop} [Decidable condition] {yes no : Process Answer α}
    (haltsYes : condition → Halts continues limit yes post)
    (haltsNo : ¬ condition → Halts continues limit no post) :
    Halts continues limit (if condition then yes else no) post := by
  split
  case isTrue holds => exact haltsYes holds
  case isFalse fails => exact haltsNo fails

/-- The number of answers that keep loops going, counted down, is the measure. -/
theorem loop {body : σ → Process Answer (σ ⊕ α)}
    (round : ∀ state, Halts continues limit (body state) (Moves continues))
    {fuel : Nat} (enough : limit < fuel) (state : σ) :
    Stops continues limit (loop body fuel state) := by
  have rounds : ∀ (fuel : Nat) (state : σ) (env : Environment Answer),
      KeepsGoing continues limit env → ∀ before : History Answer,
        before.countP continues ≤ limit → limit - before.countP continues < fuel →
          ∃ ending made, Process.loop body fuel state env before = some (ending, before ++ made) ∧
            (before ++ made).countP continues ≤ limit := by
    intro fuel
    induction fuel with
    | zero => exact fun _ _ _ _ _ little => absurd little (by omega)
    | succ fuel inductionHypothesis =>
        intro state env bounded before few rest
        obtain ⟨ending, made, ended, stillFew, moved⟩ := round state env bounded before few
        rw [Process.loop, bind_run, ended]
        rcases ending with (later | result) | _
        · have progress : 0 < made.countP continues := moved _ rfl rfl
          have grown : (before ++ made).countP continues =
              before.countP continues + made.countP continues := List.countP_append
          obtain ⟨final, more, finished, fewAtEnd⟩ :=
            inductionHypothesis later env bounded (before ++ made) stillFew (by omega)
          exact ⟨final, made ++ more, by rw [← List.append_assoc]; exact finished,
            by rwa [← List.append_assoc]⟩
        · exact ⟨.returned result, made, rfl, stillFew⟩
        · exact ⟨.exited, made, rfl, stillFew⟩
  intro env bounded before few
  obtain ⟨ending, made, ended, stillFew⟩ := rounds fuel state env bounded before few (by omega)
  exact ⟨ending, made, ended, stillFew, fun _ _ => trivial⟩

end Halts

namespace Stops

theorem bind (stops : Stops continues limit process)
    (continued : ∀ result, Halts continues limit (next result) last)
    (absorbs : ∀ result before made, last result made → last result (before ++ made)) :
    Halts continues limit (process >>= next) last :=
  Halts.bind stops fun result made _ =>
    (continued result).mono fun final more => absorbs final made more

theorem before {next : α → Process Answer (σ ⊕ β)} (stops : Stops continues limit process)
    (continued : ∀ result, Halts continues limit (next result) (Moves continues)) :
    Halts continues limit (process >>= next) (Moves continues) :=
  stops.bind continued fun _ earlier _ moves => moves.after earlier

theorem moving {process : Process Answer (σ ⊕ α)} {entry : Sigma Answer}
    (going : continues entry = true) (stops : Stops continues limit process) :
    Halts continues limit process fun next made => Moves continues next (entry :: made) :=
  stops.mono fun _ _ _ _ => by
    rw [List.countP_cons_of_pos going]
    exact Nat.succ_pos _

theorem andThen (stops : Stops continues limit process)
    (continued : ∀ result, Stops continues limit (next result)) :
    Stops continues limit (process >>= next) :=
  stops.bind continued fun _ _ _ => id

theorem pure (result : α) : Stops continues limit (pure result : Process Answer α) :=
  Halts.pure trivial

theorem ask (call : Call) : Stops continues limit (ask call : Process Answer (Answer call)) :=
  Halts.ask fun _ => trivial

theorem when {condition : Bool} {process : Process Answer Unit}
    (stops : Stops continues limit process) : Stops continues limit (when condition process) := by
  unfold Process.when
  exact Halts.ite (fun _ => stops) fun _ => Halts.pure trivial

theorem each {items : List β} {body : β → Process Answer Unit}
    (stops : ∀ item, Stops continues limit (body item)) :
    Stops continues limit (each items body) := by
  induction items with
  | nil => exact .pure ()
  | cons item rest inductionHypothesis =>
      exact (stops item).andThen fun _ => inductionHypothesis

theorem ended (stops : Stops continues limit process) {env : Environment Answer}
    (bounded : KeepsGoing continues limit env) : ∃ ending made,
      process env [] = some (ending, made) := by
  obtain ⟨ending, made, ended, -⟩ := stops env bounded [] (Nat.zero_le _)
  exact ⟨ending, made, ended⟩

end Stops

end Process

end VpnMgr.Machine
