import VpnMgr.Client.ResolvFiles
import VpnMgr.LibUseful.IpAddress
import VpnMgr.Shell.Words

/-!
# Steps of `ResolvChange` that fail

What is left of `/etc/resolv.conf` when each step of `ResolvChange` may work or
fail.
-/

namespace VpnMgr.Client

open Machine Text CString LibUseful Command Process Shell

def trimmed (entry : CString) : CString := (entry.dropWhile isBlank).rdropWhile isBlank

/-- The address of one name server: `IsIPAddress` takes it, and it is one word. -/
def isAddress (text : CString) : Bool := isIPAddress text && text.all fun c => !isSpace c

def listed (nameservers : CPtr) : List CString := getTokens nameservers ",".toList noFlags

def addresses (nameservers : CPtr) : List CString :=
  ((listed nameservers).map trimmed).filter (· ≠ [])

/-- One line for each address of the list, with blanks around it or not. -/
def WellFormedFile (nameservers : CPtr) (text : CString) : Prop :=
  (∀ address ∈ addresses nameservers, isAddress address = true) ∧
    ∃ padded : List CString, padded.map trimmed = addresses nameservers ∧
      text = padded.flatMap fun address => "nameserver ".toList ++ address ++ "\n".toList

/-- The old contents or a complete file, and the old one unless there is a new one. -/
structure Atomic (nameservers : CPtr) (produced : Prop) (before after : Option CString) : Prop where
  intact : after = before ∨ ∃ text, after = some text ∧ WellFormedFile nameservers text
  present : after ≠ none
  kept : ¬ produced → after = before

/-- Whether a step works, or how much of a text reaches the file. -/
inductive Fate where
  | done
  | cut (length : Nat)
  deriving DecidableEq

def Fate.reaches : Fate → CString → CString
  | done, text => text
  | cut length, text => text.take length

/-- What a step with its fate does to the files. -/
def fatedEffect (files : Files CString CString) : Sigma Answer × Fate → Files CString CString
  | (⟨.streamOpen (.file path) _ config, true⟩, _) =>
      if config = "w".toList then files.put path (some []) else files
  | (⟨.streamWriteLine (.file path) text, _⟩, fate) =>
      files.put path ((files path).map (· ++ fate.reaches text))
  | (⟨.runCommand text _, some _⟩, .done) =>
      match moveOf text with
      | some (source, target) => files.move source target
      | none => files
  | _ => files

abbrev Trace := List (Sigma Answer × Fate)

def filesFrom (files : Files CString CString) (trace : Trace) : Files CString CString :=
  trace.foldl fatedEffect files

theorem filesFrom_append (files : Files CString CString) (first second : Trace) :
    filesFrom files (first ++ second) = filesFrom (filesFrom files first) second :=
  List.foldl_append

/-- How the steps of a `ResolvChange` came out. -/
structure Outcome where
  /-- the temporary file could be opened -/
  opened : Bool
  /-- what was written to it -/
  written : CString
  /-- the old file was moved away -/
  away : Bool
  /-- the new file was moved in, if there was one -/
  moved : Bool
  deriving DecidableEq

def stepOpens : Sigma Answer × Fate → Bool
  | (⟨.streamOpen .., opened⟩, _) => opened
  | _ => false

def stepWrites : Sigma Answer × Fate → CString
  | (⟨.streamWriteLine _ text, _⟩, fate) => fate.reaches text
  | _ => []

def stepMoves (source : CString) : Sigma Answer × Fate → Bool
  | (⟨.runCommand text _, some _⟩, .done) => (moveOf text).map Prod.fst = some source
  | _ => false

def outcomeOf (pid : Nat) (trace : Trace) : Outcome where
  opened := trace.any stepOpens
  written := trace.flatMap stepWrites
  away := trace.any (stepMoves resolvConf)
  moved := trace.any (stepMoves (resolvTemp pid))

theorem mem_dropWhile_isBlank {text : CString} {c : Char} (inside : c ∈ text)
    (solid : isBlank c = false) : c ∈ text.dropWhile isBlank := by
  have split : text.takeWhile isBlank ++ text.dropWhile isBlank = text :=
    List.takeWhile_append_dropWhile
  rw [← split] at inside
  rcases List.mem_append.mp inside with blank | later
  · exact absurd (List.mem_takeWhile_imp blank) (by simp [solid])
  · exact later

theorem mem_trimmed {entry : CString} {c : Char} (inside : c ∈ entry) (solid : isBlank c = false) :
    c ∈ trimmed entry := by
  rw [trimmed, List.rdropWhile, List.mem_reverse]
  exact mem_dropWhile_isBlank (List.mem_reverse.mpr (mem_dropWhile_isBlank inside solid)) solid

theorem newline_not_mem {entry : CString}
    (held : trimmed entry = [] ∨ isAddress (trimmed entry) = true) : '\n' ∉ entry := by
  intro inside
  have kept : '\n' ∈ trimmed entry := mem_trimmed inside rfl
  rcases held with empty | address
  · rw [empty] at kept
    exact List.not_mem_nil kept
  · simp only [isAddress, Bool.and_eq_true, List.all_eq_true] at address
    exact absurd (address.2 _ kept) (by decide)

theorem count_newline {entries : List CString} (single : ∀ entry ∈ entries, '\n' ∉ entry) :
    (entries.flatMap fun entry => "nameserver ".toList ++ entry ++ "\n".toList).count '\n' =
      entries.length := by
  induction entries with
  | nil => rfl
  | cons entry entries inductionHypothesis =>
      simp only [List.mem_cons, forall_eq_or_imp] at single
      have word : "nameserver ".toList.count '\n' = 0 := by decide
      have ending : "\n".toList.count '\n' = 1 := by decide
      rw [List.flatMap_cons, List.count_append, inductionHypothesis single.2, List.count_append,
        List.count_append, word, ending, List.count_eq_zero.mpr single.1, List.length_cons]
      omega

theorem nameserverText_eq (nameservers : CPtr) :
    nameserverText nameservers = (listed nameservers).flatMap fun entry =>
      "nameserver ".toList ++ entry ++ "\n".toList := by
  have line : nameserverLine = fun entry => "nameserver ".toList ++ entry ++ "\n".toList := by
    funext entry
    simp [nameserverLine]
  rw [nameserverText, line, listed, List.flatMap_def]

theorem wellFormed_nameserverText_iff (nameservers : CPtr) :
    WellFormedFile nameservers (nameserverText nameservers) ↔
      ∀ entry ∈ listed nameservers, isAddress (trimmed entry) = true := by
  rw [nameserverText_eq]
  constructor
  · rintro ⟨allAddresses, padded, same, text⟩
    have entryHeld : ∀ entry ∈ listed nameservers,
        trimmed entry = [] ∨ isAddress (trimmed entry) = true := by
      intro entry member
      by_cases empty : trimmed entry = []
      · exact .inl empty
      · refine .inr (allAddresses _ ?_)
        exact List.mem_filter.mpr ⟨List.mem_map_of_mem member, by simpa using empty⟩
    have paddedHeld : ∀ entry ∈ padded, '\n' ∉ entry := fun entry member =>
      newline_not_mem (.inr (allAddresses _ (same ▸ List.mem_map_of_mem member)))
    have lines := congrArg (List.count '\n') text
    rw [count_newline fun entry member => newline_not_mem (entryHeld entry member),
      count_newline paddedHeld, ← padded.length_map trimmed, same, addresses,
      ← (listed nameservers).length_map trimmed] at lines
    -- no line was left out, so no entry is blank
    have allKept := List.length_filter_eq_length_iff.mp lines.symm
    intro entry member
    refine (entryHeld entry member).resolve_left ?_
    simpa using allKept _ (List.mem_map_of_mem member)
  · intro held
    have nonempty : ∀ entry ∈ (listed nameservers).map trimmed, entry ≠ [] := by
      intro entry member
      obtain ⟨token, inside, rfl⟩ := List.mem_map.mp member
      intro empty
      have address := held token inside
      rw [empty] at address
      exact absurd address (by decide)
    have kept : addresses nameservers = (listed nameservers).map trimmed :=
      List.filter_eq_self.mpr fun entry member => by simpa using nonempty entry member
    refine ⟨?_, listed nameservers, kept.symm, rfl⟩
    rw [kept]
    intro address member
    obtain ⟨token, inside, rfl⟩ := List.mem_map.mp member
    exact held token inside

def Filling (path : CString) (made : History Answer) : Prop :=
  ∀ interaction ∈ made, interaction = ⟨.streamClose (.file path), ()⟩ ∨
    ∃ text, interaction = ⟨.streamWriteLine (.file path) text, ()⟩

def opening (pid : Nat) (opened : Bool) : Sigma Answer :=
  ⟨.streamOpen (.file (resolvTemp pid)) (resolvTemp pid) "w".toList, opened⟩

def moveAway (status : Option RunCmd) : Sigma Answer :=
  ⟨.runCommand "mv /etc/resolv.conf /etc/vpn_mgr.resolv.save".toList cmdAsRoot, status⟩

def moveIn (pid : Nat) (status : Option RunCmd) : Sigma Answer :=
  ⟨.runCommand (mCopyStr [some "mv -f ".toList, some (resolvTemp pid),
    some " /etc/resolv.conf".toList]) cmdAsRoot, status⟩

def Moving (pid : Nat) (made : History Answer) : Prop :=
  made = [moveAway none] ∨ ∃ first second, made = [moveAway first, moveIn pid second]

/-- The calls of a `ResolvChange`, to its end or up to an exit. -/
def Shape (pid : Nat) (made : History Answer) : Prop :=
  ∃ opened filling moving, Filling (resolvTemp pid) filling ∧ (opened = false → filling = []) ∧
    Moving pid moving ∧ made = opening pid opened :: (filling ++ moving)

theorem command_ends (text : CString) :
    (command text).Ends (fun _ made => ∃ status, made = [⟨.runCommand text cmdAsRoot, some status⟩])
      fun made => made = [⟨.runCommand text cmdAsRoot, none⟩] := by
  have run : (runCommand text cmdAsRoot).Ends
      (fun status made => made = [⟨.runCommand text cmdAsRoot, some status⟩])
      fun made => made = [⟨.runCommand text cmdAsRoot, none⟩] := by
    refine (Ends.asked _).bind fun answer made isMade => ?_
    obtain rfl := isMade
    cases answer with
    | none => exact Ends.exit rfl
    | some status => exact Ends.pure rfl
  refine run.bind fun status made isMade => ?_
  exact Ends.pure ⟨status, by rw [isMade]; rfl⟩

theorem moving_ends (pid : Nat) :
    Makes (do
      command "mv /etc/resolv.conf /etc/vpn_mgr.resolv.save".toList
      command (mCopyStr [some "mv -f ".toList, some (resolvTemp pid), some " /etc/resolv.conf".toList]))
      (Moving pid) (Moving pid) := by
  have first := command_ends "mv /etc/resolv.conf /etc/vpn_mgr.resolv.save".toList
  have away := first.mono (fun _ _ held => held) fun _ isMade => (Or.inl isMade : Moving pid _)
  refine away.bind fun _ made isMade => ?_
  obtain ⟨status, rfl⟩ := isMade
  refine (command_ends _).mono (fun _ more isMore => ?_) fun more isMore => ?_
  · obtain ⟨last, rfl⟩ := isMore
    exact .inr ⟨some status, some last, rfl⟩
  · obtain rfl := isMore
    exact .inr ⟨some status, none, rfl⟩

theorem composable_filling (path : CString) :
    Composable (Filling path) fun _ => False where
  nil := fun _ member => absurd member List.not_mem_nil
  append _ _ heldFirst heldSecond interaction member :=
    (List.mem_append.mp member).elim (heldFirst interaction) (heldSecond interaction)
  exits _ _ _ gone := gone

theorem filling_makes (path : CString) (nameservers : CPtr) :
    Makes (do
      Process.each (getTokens nameservers ",".toList noFlags) fun token =>
        streamWriteLine (.file path) (nameserverLine token)
      streamClose (.file path))
      (Filling path) fun _ => False := by
  refine Makes.bind (composable_filling path) (Makes.each (composable_filling path) fun token _ => ?_)
    fun _ => ?_
  · refine Makes.ask fun _ interaction member => ?_
    exact .inr ⟨_, List.mem_singleton.mp member⟩
  · refine Makes.ask fun _ interaction member => ?_
    exact .inl (List.mem_singleton.mp member)

theorem resolvChange_makes (pid : Nat) (nameservers : CPtr) :
    (resolvChange pid nameservers).Makes (Shape pid) (Shape pid) := by
  refine (Ends.asked _).bind fun opened _ isFirst => ?_
  obtain rfl := isFirst
  have shaped : ∀ filling moving, Filling (resolvTemp pid) filling →
      (opened = false → filling = []) → Moving pid moving →
      Shape pid ([opening pid opened] ++ (filling ++ moving)) :=
    fun filling moving held none moved => ⟨opened, filling, moving, held, none, moved, rfl⟩
  have moves := moving_ends pid
  cases opened with
  | false =>
      have nothing : Filling (resolvTemp pid) [] := fun _ member => absurd member List.not_mem_nil
      exact moves.mono (fun _ moving => shaped [] moving nothing fun _ => rfl)
        fun moving => shaped [] moving nothing fun _ => rfl
  | true =>
      refine Ends.bind (Ends.mono (filling_makes (resolvTemp pid) nameservers) (fun _ _ held => held)
        fun _ gone => gone.elim) fun _ filling held => ?_
      have opened : true = false → filling = [] := fun no => absurd no (by decide)
      exact moves.mono (fun _ moving => shaped filling moving held opened)
        fun moving => shaped filling moving held opened

/-! ## The files in the end -/

def Outcome.arrives (outcome : Outcome) (stale : Option CString) : Option CString :=
  if outcome.moved then if outcome.opened then some outcome.written else stale else none

section Traces

variable {path : CString} {pid : Nat}

theorem filling_silent {filling : Trace} (held : Filling path (filling.map Prod.fst)) :
    filling.any stepOpens = false ∧ ∀ source, filling.any (stepMoves source) = false := by
  have silent : ∀ step ∈ filling, stepOpens step = false ∧ ∀ source, stepMoves source step = false := by
    rintro ⟨call, fate⟩ member
    have inside : call ∈ filling.map Prod.fst := List.mem_map.mpr ⟨_, member, rfl⟩
    obtain rfl | ⟨text, rfl⟩ := held call inside
    · exact ⟨rfl, fun _ => rfl⟩
    · exact ⟨rfl, fun _ => rfl⟩
  constructor
  · exact List.any_eq_false.mpr fun step member => by simp [(silent step member).1]
  · exact fun source => List.any_eq_false.mpr fun step member => by simp [(silent step member).2]

theorem filesFrom_filling {filling : Trace} (held : Filling path (filling.map Prod.fst))
    (files : Files CString CString) (text : CString) :
    filesFrom (files.put path (some text)) filling =
      files.put path (some (text ++ filling.flatMap stepWrites)) := by
  induction filling generalizing text with
  | nil => simp [filesFrom]
  | cons step rest inductionHypothesis =>
      have later := inductionHypothesis fun call member => held call (List.mem_cons_of_mem _ member)
      rcases step with ⟨call, fate⟩
      obtain rfl | ⟨line, rfl⟩ := held call List.mem_cons_self
      · exact later text
      · have step := later (text ++ fate.reaches line)
        simpa [filesFrom, fatedEffect, stepWrites, Files.put_put] using step

theorem fatedEffect_moveAway (files : Files CString CString) (status : Option RunCmd) (fate : Fate) :
    fatedEffect files (moveAway status, fate) =
      if stepMoves resolvConf (moveAway status, fate) then files.move resolvConf resolvSave
      else files := by
  rcases status with _ | status
  · rfl
  · cases fate with
    | done => simp only [fatedEffect, moveAway, stepMoves, moveOf_backup, Option.map_some,
        decide_true, if_true]
    | cut => rfl

theorem fatedEffect_moveIn (files : Files CString CString) (status : Option RunCmd) (fate : Fate) :
    fatedEffect files (moveIn pid status, fate) =
      if stepMoves (resolvTemp pid) (moveIn pid status, fate) then
        files.move (resolvTemp pid) resolvConf
      else files := by
  rcases status with _ | status
  · rfl
  · cases fate with
    | done => simp only [fatedEffect, moveIn, stepMoves, moveOf_install, Option.map_some,
        decide_true, if_true]
    | cut => rfl

theorem stepMoves_moveAway (status : Option RunCmd) (fate : Fate) :
    stepMoves (resolvTemp pid) (moveAway status, fate) = false := by
  rcases status with _ | status
  · rfl
  · cases fate with
    | done => simp only [stepMoves, moveAway, moveOf_backup, Option.map_some, Option.some_inj,
        (apart_resolvTemp pid).1.symm, decide_false]
    | cut => rfl

theorem stepMoves_moveIn (status : Option RunCmd) (fate : Fate) :
    stepMoves resolvConf (moveIn pid status, fate) = false := by
  rcases status with _ | status
  · rfl
  · cases fate with
    | done => simp only [stepMoves, moveIn, moveOf_install, Option.map_some, Option.some_inj,
        (apart_resolvTemp pid).1, decide_false]
    | cut => rfl

theorem move_away_conf (files : Files CString CString) (away : Bool) :
    (if away then files.move resolvConf resolvSave else files) resolvConf =
      if away then none else files resolvConf := by
  cases away with
  | false => rfl
  | true => exact files.move_source resolvConf_ne_resolvSave

theorem move_away_other (files : Files CString CString) (away : Bool) :
    (if away then files.move resolvConf resolvSave else files) (resolvTemp pid) =
      files (resolvTemp pid) := by
  cases away with
  | false => rfl
  | true => exact files.move_other (apart_resolvTemp pid).1 (apart_resolvTemp pid).2

theorem moving_silent {moving : Trace} (held : Moving pid (moving.map Prod.fst)) :
    moving.any stepOpens = false ∧ moving.flatMap stepWrites = [] := by
  have silent : ∀ step ∈ moving, stepOpens step = false ∧ stepWrites step = [] := by
    rintro ⟨call, fate⟩ member
    have inside : call ∈ moving.map Prod.fst := List.mem_map.mpr ⟨_, member, rfl⟩
    have isMove : ∃ text flags status, call = ⟨.runCommand text flags, status⟩ := by
      obtain only | ⟨first, second, both⟩ := held
      · rw [only] at inside
        exact ⟨_, _, _, List.mem_singleton.mp inside⟩
      · rw [both] at inside
        rcases List.mem_cons.mp inside with isFirst | later
        · exact ⟨_, _, _, isFirst⟩
        · exact ⟨_, _, _, List.mem_singleton.mp later⟩
    obtain ⟨text, flags, status, rfl⟩ := isMove
    exact ⟨rfl, rfl⟩
  constructor
  · exact List.any_eq_false.mpr fun step member => by simp [(silent step member).1]
  · exact List.flatMap_eq_nil_iff.mpr fun step member => (silent step member).2

theorem filesFrom_moving {moving : Trace} (held : Moving pid (moving.map Prod.fst))
    (files : Files CString CString) :
    filesFrom files moving resolvConf =
      (if moving.any (stepMoves (resolvTemp pid)) then files (resolvTemp pid) else none).or
        (if moving.any (stepMoves resolvConf) then none else files resolvConf) := by
  obtain only | ⟨first, second, both⟩ := held
  · obtain ⟨⟨call, fate⟩, rfl, rfl⟩ := List.map_eq_singleton_iff.mp only
    rfl
  · obtain ⟨⟨call, fate⟩, rest, rfl, rfl, more⟩ := List.map_eq_cons_iff.mp both
    obtain ⟨⟨last, lastFate⟩, rfl, rfl⟩ := List.map_eq_singleton_iff.mp more
    simp only [filesFrom, List.foldl_cons, List.foldl_nil, List.any_cons, List.any_nil,
      fatedEffect_moveAway, fatedEffect_moveIn, stepMoves_moveAway, stepMoves_moveIn,
      Bool.or_false, Bool.false_or]
    cases stepMoves (resolvTemp pid) (moveIn pid second, lastFate) with
    | false => simpa using move_away_conf files _
    | true =>
        rw [if_pos rfl, if_pos rfl, Files.move_target, move_away_conf, move_away_other]

/-- `/etc/resolv.conf` in the end: what is moved in, else what was not moved away. -/
theorem filesFrom_conf {trace : Trace} (shape : Shape pid (trace.map Prod.fst))
    (files : Files CString CString) :
    filesFrom files trace resolvConf =
      ((outcomeOf pid trace).arrives (files (resolvTemp pid))).or
        (if (outcomeOf pid trace).away then none else files resolvConf) := by
  obtain ⟨opened, filling, moving, fills, unopened, moves, made⟩ := shape
  obtain ⟨⟨call, fate⟩, rest, rfl, rfl, more⟩ := List.map_eq_cons_iff.mp made
  obtain ⟨filled, moved, rfl, rfl, rfl⟩ := List.map_eq_append_iff.mp more
  obtain ⟨noOpens, noMoves⟩ := filling_silent fills
  obtain ⟨noMoreOpens, noWrites⟩ := moving_silent moves
  have effect : filesFrom (filesFrom files [(opening pid opened, fate)]) filled =
      if opened then files.put (resolvTemp pid) (some (filled.flatMap stepWrites)) else files := by
    cases opened with
    | false =>
        rw [List.map_eq_nil_iff.mp (unopened rfl)]
        rfl
    | true => exact filesFrom_filling fills files []
  have opens : stepOpens (opening pid opened, fate) = opened := rfl
  have writesNothing : stepWrites (opening pid opened, fate) = [] := rfl
  have movesNothing : ∀ source, stepMoves source (opening pid opened, fate) = false := fun _ => rfl
  have outcome : outcomeOf pid ((opening pid opened, fate) :: (filled ++ moved)) =
      ⟨opened, filled.flatMap stepWrites, moved.any (stepMoves resolvConf),
        moved.any (stepMoves (resolvTemp pid))⟩ := by
    simp only [outcomeOf, opens, writesNothing, movesNothing, List.any_cons, List.any_append,
      List.flatMap_cons, List.flatMap_append, noOpens, noMoves, noMoreOpens, noWrites,
      Bool.or_false, Bool.false_or, List.append_nil, List.nil_append]
  rw [outcome, Outcome.arrives, ← List.singleton_append, filesFrom_append, filesFrom_append, effect,
    filesFrom_moving moves]
  cases opened with
  | false => rfl
  | true =>
      rw [if_pos rfl, if_pos rfl, Files.put_same, Files.put_other _ _ (apart_resolvTemp pid).1.symm]

end Traces

/-! ## When a change is atomic -/

def Outcome.Produced (outcome : Outcome) (nameservers : CPtr) : Prop :=
  outcome.opened = true ∧ outcome.written = nameserverText nameservers

/-- Either a file was moved in, which has the old contents or is complete and
lists addresses only; or the old file is there and was not moved away. -/
def Outcome.Sound (outcome : Outcome) (nameservers : CPtr) (before stale : Option CString) : Prop :=
  match outcome.arrives stale with
  | some text => before = some text ∨
      outcome.Produced nameservers ∧
        ∀ entry ∈ listed nameservers, isAddress (trimmed entry) = true
  | none => outcome.away = false ∧ before ≠ none

theorem Outcome.arrives_produced {outcome : Outcome} {nameservers : CPtr} {stale : Option CString}
    {text : CString} (arrived : outcome.arrives stale = some text)
    (produced : outcome.Produced nameservers) : text = nameserverText nameservers := by
  rw [arrives, produced.1, produced.2] at arrived
  split at arrived
  · exact (Option.some.inj arrived).symm
  · cases arrived

theorem Outcome.atomic_iff (outcome : Outcome) (nameservers : CPtr) (before stale : Option CString) :
    Atomic nameservers (outcome.Produced nameservers) before
        ((outcome.arrives stale).or (if outcome.away then none else before)) ↔
      outcome.Sound nameservers before stale := by
  unfold Outcome.Sound
  rcases arrived : outcome.arrives stale with _ | text
  · rw [Option.none_or]
    constructor
    · intro atomic
      have stays : outcome.away = false := by
        by_contra away
        exact atomic.present (by simp [away])
      have present := atomic.present
      rw [stays] at present
      exact ⟨stays, present⟩
    · rintro ⟨stays, present⟩
      rw [stays]
      exact ⟨.inl rfl, present, fun _ => rfl⟩
  · rw [Option.some_or]
    constructor
    · intro atomic
      by_cases produced : outcome.Produced nameservers
      · rcases atomic.intact with same | ⟨whole, isWhole, wellFormed⟩
        · exact .inl same.symm
        · obtain rfl := Option.some.inj isWhole
          rw [arrives_produced arrived produced, wellFormed_nameserverText_iff] at wellFormed
          exact .inr ⟨produced, wellFormed⟩
      · exact .inl (atomic.kept produced).symm
    · rintro (same | ⟨produced, addresses⟩)
      · exact ⟨.inl same.symm, Option.some_ne_none _, fun _ => same.symm⟩
      · refine ⟨.inr ⟨text, rfl, ?_⟩, Option.some_ne_none _, fun not => absurd produced not⟩
        rw [arrives_produced arrived produced]
        exact (wellFormed_nameserverText_iff nameservers).mpr addresses

/-- A `ResolvChange` is atomic exactly when its steps came out well together. -/
theorem resolvChange_atomic_iff (pid : Nat) (nameservers : CPtr) (env : Environment Answer)
    (ending : Ending Unit) (made : History Answer)
    (run : resolvChange pid nameservers env [] = some (ending, made)) (trace : Trace)
    (traced : trace.map Prod.fst = made) (files : Files CString CString) :
    Atomic nameservers ((outcomeOf pid trace).Produced nameservers) (files resolvConf)
        (filesFrom files trace resolvConf) ↔
      (outcomeOf pid trace).Sound nameservers (files resolvConf) (files (resolvTemp pid)) := by
  obtain rfl := traced
  have shape := (resolvChange_makes pid nameservers).ended run
  rw [filesFrom_conf shape]
  exact Outcome.atomic_iff _ _ _ _

/-- A change whose steps all work. -/
theorem resolvChange_atomic_all_done :
    ∃ made, resolvChange 1 (some "10.0.0.1".toList) obligingHost [] =
        some (.returned (), made) ∧
      Atomic (some "10.0.0.1".toList)
        ((outcomeOf 1 (made.map fun call => (call, .done))).Produced (some "10.0.0.1".toList))
        (oldResolv resolvConf)
        (filesFrom oldResolv (made.map fun call => (call, .done)) resolvConf) := by
  have run : (resolvChange 1 (some "10.0.0.1".toList) obligingHost []).map (fun ended =>
      (ended.1, outcomeOf 1 (ended.2.map fun call => (call, .done)))) =
      some (.returned (), ⟨true, "nameserver 10.0.0.1\n".toList, true, true⟩) := by decide
  obtain ⟨⟨ending, made⟩, ended, read⟩ := Option.map_eq_some_iff.mp run
  obtain ⟨rfl, outcome⟩ := Prod.mk.inj read
  refine ⟨made, ended, ?_⟩
  refine (resolvChange_atomic_iff 1 _ _ _ made ended _ (by simp [Function.comp_def]) oldResolv).mpr ?_
  rw [outcome]
  exact .inr ⟨⟨rfl, by decide⟩, by decide⟩

def fullHost : Environment Answer
  | _, .streamOpen .. => false
  | history, call => obligingHost history call

/-- The old file is moved away, and there is none to take its place. -/
theorem resolvChange_loses_conf :
    ∃ made, resolvChange 1 (some "10.0.0.1".toList) fullHost [] = some (.returned (), made) ∧
      ¬ Atomic (some "10.0.0.1".toList)
        ((outcomeOf 1 (made.map fun call => (call, .done))).Produced (some "10.0.0.1".toList))
        (oldResolv resolvConf)
        (filesFrom oldResolv (made.map fun call => (call, .done)) resolvConf) := by
  have run : (resolvChange 1 (some "10.0.0.1".toList) fullHost []).map (fun ended =>
      (ended.1, filesFrom oldResolv (ended.2.map fun call => (call, .done)) resolvConf)) =
      some (.returned (), none) := by decide
  obtain ⟨⟨ending, made⟩, ended, read⟩ := Option.map_eq_some_iff.mp run
  obtain ⟨rfl, missing⟩ := Prod.mk.inj read
  exact ⟨made, ended, fun atomic => atomic.present missing⟩

end VpnMgr.Client
