import VpnMgr.Machine.Process
import VpnMgr.Machine.Run

/-!
# Watched processes

A monitor follows the calls of a process from state to state and refuses a
call that breaks its rules.  What the process computes may depend on what the
monitor has seen.
-/

namespace VpnMgr.Machine

namespace Process

variable {Call : Type} {Answer : Call → Type} {α β σ μ : Type}

/-- From every state that meets the precondition the monitor accepts all calls,
and a result comes in a state that meets the postcondition. -/
def Follows (monitor : μ → Sigma Answer → Option μ) (pre : μ → Prop)
    (process : Process Answer α) (post : α → μ → Prop) : Prop :=
  ∀ state, pre state →
    process.Ends (fun result made => ∃ final, run monitor state made = some final ∧ post result final)
      fun made => ∃ final, run monitor state made = some final

variable {monitor : μ → Sigma Answer → Option μ} {pre : μ → Prop}
  {process : Process Answer α} {next : α → Process Answer β}
  {post first : α → μ → Prop} {last : β → μ → Prop}

namespace Follows

theorem mono {weaker : μ → Prop} {stronger : α → μ → Prop}
    (follows : process.Follows monitor weaker stronger) (before : ∀ state, pre state → weaker state)
    (after : ∀ result state, stronger result state → post result state) :
    process.Follows monitor pre post := by
  intro state held
  refine (follows state (before state held)).mono ?_ fun made => id
  rintro result made ⟨final, taken, reached⟩
  exact ⟨final, taken, after result final reached⟩

theorem pure {result : α} (held : ∀ state, pre state → post result state) :
    (pure result : Process Answer α).Follows monitor pre post :=
  fun state isPre => .pure ⟨state, rfl, held state isPre⟩

theorem exit : (exit : Process Answer α).Follows monitor pre post :=
  fun state _ => .exit ⟨state, rfl⟩

theorem ask {call : Call} {post : Answer call → μ → Prop}
    (accepted : ∀ state answer, pre state →
      ∃ final, monitor state ⟨call, answer⟩ = some final ∧ post answer final) :
    (ask call).Follows monitor pre post := by
  intro state held
  refine .ask fun answer => ?_
  obtain ⟨final, taken, reached⟩ := accepted state answer held
  exact ⟨final, by rw [run, taken, Option.bind_some, run_nil], reached⟩

theorem bind (follows : process.Follows monitor pre first)
    (continued : ∀ result, (next result).Follows monitor (first result) last) :
    (process >>= next).Follows monitor pre last := by
  have whole {state middle : μ} {made more : History Answer}
      (taken : run monitor state made = some middle) :
      run monitor state (made ++ more) = run monitor middle more := by
    rw [run_append, taken, Option.bind_some]
  intro state held
  have ends : process.Ends
      (fun result made => ∃ final, run monitor state made = some final ∧ first result final)
      fun made => ∃ final, run monitor state made = some final := follows state held
  refine ends.bind fun result made reached => ?_
  obtain ⟨middle, taken, heldThere⟩ := reached
  refine (continued result middle heldThere).mono ?_ ?_
  · rintro final more ⟨ended, takenMore, reachedMore⟩
    exact ⟨ended, (whole taken).trans takenMore, reachedMore⟩
  · rintro more ⟨ended, takenMore⟩
    exact ⟨ended, (whole taken).trans takenMore⟩

theorem bind_yields {fact : α → Prop} (follows : process.Follows monitor pre first)
    (yields : process.Yields fun result _ => fact result)
    (continued : ∀ result, fact result → (next result).Follows monitor (first result) last) :
    (process >>= next).Follows monitor pre last := by
  have both : process.Follows monitor pre fun result state => first result state ∧ fact result := by
    intro state held
    refine (Ends.and (follows state held) yields).mono ?_ fun made => And.left
    rintro result made ⟨⟨final, taken, reached⟩, isFact⟩
    exact ⟨final, taken, reached, isFact⟩
  refine both.bind fun result state reached => ?_
  exact continued result reached.2 state reached.1

theorem ite {condition : Prop} [Decidable condition] {yes no : Process Answer α}
    (followsYes : condition → yes.Follows monitor pre post)
    (followsNo : ¬ condition → no.Follows monitor pre post) :
    (if condition then yes else no).Follows monitor pre post := by
  split
  case isTrue holds => exact followsYes holds
  case isFalse fails => exact followsNo fails

theorem when {condition : Bool} {process : Process Answer Unit}
    (follows : condition = true → process.Follows monitor pre fun _ => pre) :
    (when condition process).Follows monitor pre fun _ => pre := by
  unfold Process.when
  exact .ite follows fun _ => .pure fun _ => id

theorem each {items : List β} {body : β → Process Answer Unit}
    (follows : ∀ item ∈ items, (body item).Follows monitor pre fun _ => pre) :
    (each items body).Follows monitor pre fun _ => pre := by
  induction items with
  | nil => exact .pure fun _ => id
  | cons item rest inductionHypothesis =>
      refine (follows item List.mem_cons_self).bind fun _ => ?_
      exact inductionHypothesis fun other member => follows other (List.mem_cons_of_mem _ member)

theorem loop {body : σ → Process Answer (σ ⊕ α)} {invariant : σ → μ → Prop}
    (round : ∀ state, (body state).Follows monitor (invariant state) fun next =>
      match next with
      | .inl later => invariant later
      | .inr result => post result)
    (fuel : Nat) (state : σ) :
    (loop body fuel state).Follows monitor (invariant state) post := by
  induction fuel generalizing state with
  | zero =>
      intro watched _ env before ending after ended
      exact absurd ended (by simp [Process.loop])
  | succ fuel inductionHypothesis =>
      refine (round state).bind fun next => ?_
      cases next with
      | inl later => exact inductionHypothesis later
      | inr result => exact .pure fun _ => id

/-- A process whose calls are all accepted where the condition holds and keep it. -/
theorem of_uses {allowed : Call → Bool} (uses : process.Uses allowed)
    (accepted : ∀ state interaction, allowed interaction.1 = true → pre state →
      ∃ later, monitor state interaction = some later ∧ pre later) :
    process.Follows monitor pre fun _ => pre := by
  have whole : ∀ (made : History Answer) (state : μ), Only allowed made → pre state →
      ∃ final, run monitor state made = some final ∧ pre final := by
    intro made
    induction made with
    | nil => exact fun state _ held => ⟨state, rfl, held⟩
    | cons interaction rest inductionHypothesis =>
        intro state only held
        obtain ⟨later, taken, kept⟩ :=
          accepted state interaction (only interaction List.mem_cons_self) held
        obtain ⟨final, takenMore, keptMore⟩ := inductionHypothesis later
          (fun other member => only other (List.mem_cons_of_mem _ member)) kept
        exact ⟨final, by rw [run, taken, Option.bind_some, takenMore], keptMore⟩
  intro state held
  refine Ends.mono uses (fun _ made only => whole made state only held) fun made only => ?_
  obtain ⟨final, taken, -⟩ := whole made state only held
  exact ⟨final, taken⟩

theorem frame {kept : μ → Prop}
    (lost : ∀ state interaction next, monitor state interaction = some next → kept next → kept state)
    (follows : process.Follows monitor pre post) (fact : Prop) :
    process.Follows monitor (fun state => pre state ∧ (kept state → fact))
      fun result state => post result state ∧ (kept state → fact) := by
  intro state held
  refine (follows state held.1).mono ?_ fun made => id
  rintro result made ⟨final, taken, reached⟩
  have before : kept final → kept state :=
    @run_invariant_of_step _ _ _ (fun reached => kept reached → kept state)
      (fun _ _ _ stepped earlier now => earlier (lost _ _ _ stepped now)) _ _ made taken id
  exact ⟨final, taken, reached, fun now => held.2 (before now)⟩

theorem ended (follows : process.Follows monitor pre post) {env : Environment Answer}
    {ending : Ending α} {made : History Answer} (taken : process env [] = some (ending, made))
    (state : μ) (start : pre state) :
    ∃ final, run monitor state made = some final ∧
      ∀ result, ending = .returned result → post result final := by
  obtain ⟨same, split, held⟩ := follows state start env [] ending made taken
  obtain rfl : made = same := by simpa using split
  cases ending with
  | returned result =>
      obtain ⟨final, accepted, reached⟩ := held
      refine ⟨final, accepted, fun other isResult => ?_⟩
      obtain rfl := Ending.returned.inj isResult
      exact reached
  | exited =>
      obtain ⟨final, accepted⟩ := held
      exact ⟨final, accepted, fun other isResult => absurd isResult (by simp)⟩

end Follows

end Process

end VpnMgr.Machine
