import VpnMgr.Client.PppRelay

/-!
# What ends the relay of pppd

The loop of `PPPDProcess` goes on for as long as there is data to read.
-/

namespace VpnMgr.Client

open Machine Text CString LibUseful Command Process

/-- What a call has to do with the end of the relay. -/
inductive Signal where
  | read (bytes : List UInt8)
  /-- `FLAG_EXIT` is set. -/
  | exit
  | close
  deriving DecidableEq

def signalOf : Sigma Answer → Option Signal
  | ⟨.streamReadBytes _, bytes⟩ => some (.read bytes)
  | ⟨.flagExit, true⟩ => some .exit
  | ⟨.streamClose stream, _⟩ => if isSide stream then some .close else none
  | _ => none

def signals (made : History Answer) : List Signal := made.filterMap signalOf

inductive RelayCourse : Bool → List Signal → Prop where
  | goesOn : RelayCourse false []
  | moves {bytes : List UInt8} {ended : Bool} {later : List Signal} (data : bytes ≠ [])
      (course : RelayCourse ended later) : RelayCourse ended (.read bytes :: later)
  | told : RelayCourse true [.exit]
  | nothing : RelayCourse true [.read []]

@[simp]
theorem signals_append (first second : History Answer) :
    signals (first ++ second) = signals first ++ signals second :=
  List.filterMap_append

theorem signals_offRelay {made : History Answer} (only : Only offRelay made) :
    signals made = [] := by
  refine List.filterMap_eq_nil_iff.mpr fun interaction member => ?_
  have off := only interaction member
  rcases interaction with ⟨call, answer⟩
  cases call with
  | streamClose stream => cases stream <;> first | rfl | exact absurd off Bool.false_ne_true
  | _ => first | rfl | exact absurd off Bool.false_ne_true

def Moves (made : List Signal) : Prop := made = [] ∨ ∃ bytes, bytes ≠ [] ∧ made = [.read bytes]

theorem Moves.course {made later : List Signal} {ended : Bool} (moves : Moves made)
    (course : RelayCourse ended later) : RelayCourse ended (made ++ later) := by
  rcases moves with rfl | ⟨bytes, data, rfl⟩
  · exact course
  · exact .moves data course

section Rounds

variable {settings : Settings} {vpn : TVpn}

theorem before_signals {α β : Type} {process : Driver α} {next : α → Driver β}
    (post : β → List Signal → Prop) (gone : List Signal → Prop) (uses : process.Uses offRelay)
    (exits : gone [])
    (rest : ∀ result, (next result).Ends (fun final made => post final (signals made))
      fun made => gone (signals made)) :
    (process >>= next).Ends (fun final made => post final (signals made))
      fun made => gone (signals made) := by
  refine Uses.before_ends uses (fun _ before made only held => ?_)
    (fun before made only held => ?_) (fun made only => ?_) rest
  · simpa [signals_offRelay only] using held
  · simpa [signals_offRelay only] using held
  · rwa [signals_offRelay only]

def ReadyCourse (ready : Bool) (made : List Signal) : Prop :=
  if ready then Moves made else made = [.read []]

theorem pppdRelay_signals (source target : StreamId) :
    (pppdRelay source target).Ends (fun ready made => ReadyCourse ready (signals made))
      fun made => Moves (signals made) := by
  refine (Ends.asked _).bind fun bytes made isMade => ?_
  obtain rfl := isMade
  split
  case isTrue nothing =>
    obtain rfl := nothing
    have cleanUp : ∀ isPppd : Bool, Process.Ends (do
        Process.when isPppd (ask (.runCommandCleanUp 0))
        pure false) (fun ready made => ready = false ∧ Only offRelay made) fun _ => False := by
      intro isPppd
      cases isPppd with
      | false => exact Ends.pure ⟨rfl, (composable_only offRelay).nil⟩
      | true =>
          refine (Ends.asked (Call.runCommandCleanUp 0)).bind fun _ made isMade => ?_
          obtain rfl := isMade
          refine Ends.pure ⟨rfl, ?_⟩
          exact fun _ member => List.mem_singleton.mp member ▸ rfl
    refine (cleanUp _).mono (fun ready made held => ?_) fun _ never => never.elim
    obtain ⟨rfl, only⟩ := held
    have quiet := signals_offRelay only
    exact congrArg (Signal.read [] :: ·) quiet
  case isFalse data =>
    refine (Ends.asked _).bind fun _ made isMade => ?_
    obtain rfl := isMade
    exact Ends.pure (.inr ⟨bytes, data, rfl⟩)

theorem pppdReady_signals (selected : Option StreamId) :
    (pppdReady selected).Ends (fun ready made => ReadyCourse ready (signals made))
      fun made => Moves (signals made) :=
  .ite (fun _ => pppdRelay_signals _ _) fun _ =>
    .ite (fun _ => pppdRelay_signals _ _) fun _ => Ends.pure (.inl rfl)

def RoundCourse (next : Bool ⊕ Unit) (made : List Signal) : Prop :=
  if next.isRight then made = [.exit] ∨ made = [.read []] else Moves made

theorem pppdTryConfigureEndpoint_offRelay :
    (pppdTryConfigureEndpoint settings vpn).Uses offRelay := by
  refine Uses.bind (Uses.ask rfl) fun table => .ite ?_ (.pure _)
  exact Uses.bind (vpnUp_offRelay _) fun _ => .pure _

theorem pppdRound_signals (configured : Bool) :
    (pppdRound settings vpn configured).Ends (fun next made => RoundCourse next (signals made))
      fun made => Moves (signals made) := by
  refine before_signals RoundCourse Moves (Uses.ask rfl) (.inl rfl) fun selected => ?_
  refine (Ends.asked _).bind fun told made isMade => ?_
  obtain rfl := isMade
  cases told with
  | true => exact Ends.pure (.inl rfl)
  | false =>
      refine (pppdReady_signals selected).bind fun ready made course => ?_
      have unheard : ∀ more, signals ([⟨.flagExit, false⟩] ++ (made ++ more)) =
          signals made ++ signals more := fun more => by
        rw [signals_append, signals_append]
        rfl
      cases ready with
      | false =>
          refine Ends.pure (.inr ?_)
          rw [unheard]
          exact (congrArg (· ++ []) course).trans rfl
      | true =>
          have moves : ∀ more, Only offRelay more →
              Moves (signals ([⟨.flagExit, false⟩] ++ (made ++ more))) := by
            intro more only
            rw [unheard, signals_offRelay only, List.append_nil]
            exact course
          refine Ends.ite (fun _ => Ends.ite (fun _ => ?_) fun _ => ?_) fun no => absurd rfl no
          · exact Ends.pure (moves [] (composable_only offRelay).nil)
          refine Ends.bind (Ends.mono pppdTryConfigureEndpoint_offRelay (fun _ _ only => only) moves)
            fun found more only => Ends.pure ?_
          rw [List.append_nil]
          exact moves more only

theorem pppdRounds_signals (n : Nat) (configured : Bool) :
    (Process.rounds (pppdRound settings vpn) n configured).Ends
      (fun next made => RelayCourse next.isRight (signals made))
      fun made => RelayCourse false (signals made) := by
  refine @Ends.rounds_from _ _ _ _ _ (fun _ next made => RelayCourse next.isRight (signals made))
    (fun _ made => RelayCourse false (signals made)) (fun _ => .goesOn) (fun configured => ?_)
    n configured
  refine (pppdRound_signals configured).mono (fun next made course => ?_) fun made moves => ?_
  · cases next with
    | inl later =>
        have moves : Moves (signals made) := course
        have after : ∀ more ended, RelayCourse ended (signals more) →
            RelayCourse ended (signals (made ++ more)) := by
          intro more ended rest
          rw [signals_append]
          exact moves.course rest
        exact ⟨fun _ more => after more _, fun more => after more false⟩
    | inr =>
        have last : signals made = [.exit] ∨ signals made = [.read []] := course
        rcases last with told | nothing
        · rw [told]
          exact .told
        · rw [nothing]
          exact .nothing
  · simpa using moves.course .goesOn

/-- A run of `PPPDProcess` closes pppd once the relay is at its end. -/
def RunCourse (made : List Signal) : Prop :=
  RelayCourse false made ∨ ∃ before, made = before ++ [.close] ∧ RelayCourse true before

theorem pppdProcessWithin_signals (rounds : Nat) :
    (pppdProcessWithin settings rounds vpn).Makes (fun made => RunCourse (signals made))
      fun made => RunCourse (signals made) := by
  have launch : Uses offRelay (pppdLaunch vpn) :=
    Uses.bind (runCommandOpen_offRelay _ _) fun _ => .pure _
  refine before_signals (fun _ => RunCourse) RunCourse launch (.inl .goesOn) fun launched => ?_
  refine Ends.ite (fun _ => ?_) fun _ => Ends.pure (.inl .goesOn)
  refine Ends.bind ((pppdRounds_signals rounds false).mono (fun _ _ held => held)
    fun _ course => .inl course) fun next made course => ?_
  cases next with
  | inl =>
      refine Ends.pure (.inl ?_)
      rw [List.append_nil]
      exact course
  | inr =>
      refine Ends.ask fun answer => .inr ⟨signals made, ?_, course⟩
      rw [signals_append]
      rfl

end Rounds

/-! ## The results of the reads -/

def Signal.bytes : Signal → Option (List UInt8)
  | read bytes => some bytes
  | exit => none
  | close => none

/-- What the reads put in the buffer, one after the other. -/
def buffers (made : List Signal) : List (List UInt8) := made.filterMap Signal.bytes

/-- The pair is closed only when `FLAG_EXIT` is set or the last read reported
that its side is closed. -/
def ClosesForCause (results : List ReadResult) (made : List Signal) : Prop :=
  .close ∈ made → .exit ∈ made ∨ results.getLast? = some .closed

theorem relayCourse_goesOn {made : List Signal} (course : RelayCourse false made) :
    .close ∉ made ∧ ∀ buffer ∈ buffers made, buffer ≠ [] := by
  generalize isFalse : false = ended at course
  induction course with
  | goesOn => exact ⟨by simp, by simp [buffers]⟩
  | moves data _ inductionHypothesis =>
      obtain ⟨open', all⟩ := inductionHypothesis isFalse
      exact ⟨by simpa using open', List.forall_mem_cons.mpr ⟨data, all⟩⟩
  | told => cases isFalse
  | nothing => cases isFalse

theorem relayCourse_ended {made : List Signal} (course : RelayCourse true made) :
    (.exit ∈ made ∧ ∀ buffer ∈ buffers made, buffer ≠ []) ∨
      (.exit ∉ made ∧ ∃ before, buffers made = before ++ [[]] ∧ ∀ buffer ∈ before, buffer ≠ []) := by
  generalize isTrue : true = ended at course
  induction course with
  | goesOn => cases isTrue
  | moves data _ inductionHypothesis =>
      rcases inductionHypothesis isTrue with ⟨told, all⟩ | ⟨untold, before, split, all⟩
      · exact .inl ⟨List.mem_cons_of_mem _ told, List.forall_mem_cons.mpr ⟨data, all⟩⟩
      · refine .inr ⟨by simpa using untold, _ :: before, ?_, List.forall_mem_cons.mpr ⟨data, all⟩⟩
        exact congrArg (_ :: ·) split
  | told => exact .inl ⟨by simp, by simp [buffers, Signal.bytes]⟩
  | nothing => exact .inr ⟨by simp, [], rfl, by simp⟩

theorem not_idle_of_buffers {results : List ReadResult}
    (all : ∀ buffer ∈ results.map ReadResult.buffer, buffer ≠ []) :
    ∀ result ∈ results, result.isIdle = false := by
  intro result member
  have data := all _ (List.mem_map_of_mem member)
  by_contra idle
  exact data ((ReadResult.buffer_eq_nil_iff result).mpr (.inl (by simpa using idle)))

theorem RunCourse.closesForCause_iff {made : List Signal} (course : RunCourse made)
    {results : List ReadResult} (answered : results.map ReadResult.buffer = buffers made) :
    ClosesForCause results made ↔ ∀ result ∈ results, result.isIdle = false := by
  rcases course with relaying | ⟨before, rfl, ended⟩
  · obtain ⟨open', all⟩ := relayCourse_goesOn relaying
    exact iff_of_true (absurd · open') (not_idle_of_buffers (answered ▸ all))
  have same : buffers (before ++ [.close]) = buffers before := by
    simp [buffers, Signal.bytes]
  rw [same] at answered
  rcases relayCourse_ended ended with ⟨told, all⟩ | ⟨untold, earlier, split, all⟩
  · exact iff_of_true (fun _ => .inl (List.mem_append_left _ told))
      (not_idle_of_buffers (answered ▸ all))
  rw [split] at answered
  obtain ⟨first, rest, rfl, isFirst, isRest⟩ := List.map_eq_append_iff.mp answered
  obtain ⟨last, rfl, empty⟩ := List.map_eq_singleton_iff.mp isRest
  have fine := not_idle_of_buffers (isFirst ▸ all)
  have cause : ClosesForCause (first ++ [last]) (before ++ [.close]) ↔ last = .closed := by
    simp [ClosesForCause, untold]
  have whole : (∀ result ∈ first ++ [last], result.isIdle = false) ↔ last.isIdle = false := by
    simpa [or_imp, forall_and] using fun _ => fine
  rw [cause, whole]
  rcases (ReadResult.buffer_eq_nil_iff last).mp empty with idle | rfl
  · refine iff_of_false ?_ (by simp [idle])
    rintro rfl
    cases idle
  · exact iff_of_true rfl rfl

theorem pppdRun_closesForCause_iff {settings : Settings} {vpn : TVpn} {env : Environment Answer}
    {made : History Answer} (run : PppdRun settings vpn env made) {results : List ReadResult}
    (answered : results.map ReadResult.buffer = buffers (signals made)) :
    ClosesForCause results (signals made) ↔ ∀ result ∈ results, result.isIdle = false :=
  (run.spec pppdProcessWithin_signals).closesForCause_iff answered

end VpnMgr.Client
