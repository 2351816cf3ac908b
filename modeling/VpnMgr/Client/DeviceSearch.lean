import Mathlib.Data.Set.Function
import VpnMgr.Client.Footprint
import VpnMgr.Machine.Interleaving

/-!
# The search for a device among other clients

`NetDevFindNext` reads the devices anew for every name it tries, and other
clients go on in between.  As long as no device goes away, the search gives
what a single look at the end would give.
-/

namespace VpnMgr.Client

open Machine Text CString LibUseful Process

def look (table : NetTable) : Sigma Answer := ⟨.netLoadDevices, table⟩

def firstFree (stem : CString) (candidates : List Nat) (table : NetTable) : CString :=
  match candidates.find? fun i => !netDevExists table (numbered stem i) with
  | some i => numbered stem i
  | none => []

theorem netDevFindNext_firstFree (table : NetTable) (stem : CString) :
    netDevFindNext table stem = firstFree stem (List.range 999) table := by
  unfold netDevFindNext firstFree
  generalize List.range 999 = candidates
  rfl

inductive Looked (stem : CString) : List Nat → List NetTable → CString → Prop
  | exhausted : Looked stem [] [] []
  | free {i : Nat} {rest : List Nat} {table : NetTable}
      (isFree : netDevExists table (numbered stem i) = false) :
      Looked stem (i :: rest) [table] (numbered stem i)
  | taken {i : Nat} {rest : List Nat} {table : NetTable} {tables : List NetTable} {dev : CString}
      (isTaken : netDevExists table (numbered stem i) = true)
      (later : Looked stem rest tables dev) : Looked stem (i :: rest) (table :: tables) dev

theorem findFreeName_looks (stem : CString) (candidates : List Nat) :
    (findFreeName stem candidates).Yields fun dev made =>
      ∃ tables, made = tables.map look ∧ Looked stem candidates tables dev := by
  induction candidates with
  | nil => exact Ends.pure ⟨[], rfl, .exhausted⟩
  | cons i rest inductionHypothesis =>
      refine (Ends.asked _).bind fun (table : NetTable) made isMade => ?_
      obtain rfl := isMade
      refine Ends.ite (fun isTaken => ?_) fun isFree => ?_
      · apply Yields.mono inductionHypothesis
        rintro dev _ ⟨tables, rfl, looked⟩
        exact ⟨table :: tables, rfl, .taken isTaken looked⟩
      · apply Ends.pure
        exact ⟨[table], rfl, .free (by simpa using isFree)⟩

def Grows (table later : NetTable) : Prop :=
  ∀ name, netDevExists table name = true → netDevExists later name = true

section FirstFree

variable {stem dev other name : CString} {candidates : List Nat} {table last : NetTable}
  {tables : List NetTable}

theorem firstFree_cons_taken {i : Nat} {rest : List Nat}
    (isTaken : netDevExists table (numbered stem i) = true) :
    firstFree stem (i :: rest) table = firstFree stem rest table := by
  rw [firstFree, List.find?_cons_of_neg (by simp [isTaken]), firstFree]

theorem firstFree_cons_free {i : Nat} {rest : List Nat}
    (isFree : netDevExists table (numbered stem i) = false) :
    firstFree stem (i :: rest) table = numbered stem i := by
  rw [firstFree, List.find?_cons_of_pos (by simp [isFree])]

/-- The search takes effect at its last look. -/
theorem Looked.atomic (looked : Looked stem candidates tables dev)
    (unshrinking : tables.Pairwise Grows) (isLast : tables.getLast? = some last) :
    dev = firstFree stem candidates last := by
  induction looked with
  | exhausted => cases isLast
  | free isFree =>
      obtain rfl := Option.some.inj isLast
      exact (firstFree_cons_free isFree).symm
  | @taken i rest table tables dev isTaken later inductionHypothesis =>
      obtain ⟨grows, unshrinking⟩ := List.pairwise_cons.mp unshrinking
      cases tables with
      | nil =>
          obtain rfl := Option.some.inj isLast
          cases later
          have noneLeft : firstFree stem [i] table = [] := firstFree_cons_taken isTaken
          exact noneLeft.symm
      | cons next tables =>
          rw [List.getLast?_cons_cons] at isLast
          have stillTaken := grows last (List.mem_of_getLast? isLast) _ isTaken
          rw [firstFree_cons_taken stillTaken]
          exact inductionHypothesis unshrinking isLast

theorem free_of_firstFree (found : firstFree stem candidates table ≠ []) :
    netDevExists table (firstFree stem candidates table) = false := by
  unfold firstFree at found ⊢
  split
  next i isFirst => simpa using List.find?_some isFirst
  next none =>
    rw [none] at found
    exact absurd rfl found

theorem firstFree_again (grows : Grows table last) (found : firstFree stem candidates table ≠ [])
    (stillFree : netDevExists last (firstFree stem candidates table) = false) :
    firstFree stem candidates last = firstFree stem candidates table := by
  induction candidates with
  | nil => exact absurd rfl found
  | cons i rest inductionHypothesis =>
      rcases isTaken : netDevExists table (numbered stem i) with _ | _
      · rw [firstFree_cons_free isTaken] at stillFree ⊢
        exact firstFree_cons_free stillFree
      · rw [firstFree_cons_taken isTaken] at found stillFree ⊢
        rw [firstFree_cons_taken (grows _ isTaken)]
        exact inductionHypothesis found stillFree

theorem Looked.nonempty (looked : Looked stem candidates tables dev)
    (toTry : candidates ≠ []) : tables ≠ [] := by
  cases looked with
  | exhausted => exact absurd rfl toTry
  | free => exact List.cons_ne_nil _ _
  | taken => exact List.cons_ne_nil _ _

theorem netDevFindNext_same_iff (grows : Grows table last) (found : netDevFindNext table stem ≠ []) :
    netDevFindNext last stem = netDevFindNext table stem ↔
      netDevExists last (netDevFindNext table stem) = false := by
  rw [netDevFindNext_firstFree] at found
  rw [netDevFindNext_firstFree, netDevFindNext_firstFree]
  constructor
  · intro same
    rw [← same] at found ⊢
    exact free_of_firstFree found
  · exact firstFree_again grows found

end FirstFree

def StillShows (entry later : Sigma Answer) : Prop :=
  ∀ table last, entry = look table → later = look last → Grows table last

theorem look_injective : Function.Injective look := fun _ _ same => eq_of_heq (Sigma.mk.inj same).2

theorem stillShows_look {table last : NetTable} (grows : Grows table last) :
    StillShows (look table) (look last) := by
  intro _ _ first second
  rwa [← look_injective first, ← look_injective second]

def bareTable : NetTable := ⟨none, fun _ => []⟩

def wgTable : NetTable := ⟨some "wg0: 0".toList, fun _ => []⟩

def wgHost : Environment Answer
  | _, .netLoadDevices => wgTable
  | history, call => obligingHost history call

theorem grows_bare (last : NetTable) : Grows bareTable last := fun _ exist => by cases exist

theorem range_start : List.range 999 = 0 :: 1 :: List.range' 2 997 := by
  rw [List.range_eq_range']
  rfl

theorem netDevFindNextLive_bare :
    netDevFindNextLive "wg".toList obligingHost [] =
      some (.returned "wg0".toList, [look bareTable]) := by
  rw [netDevFindNextLive, range_start]
  rfl

theorem netDevFindNextLive_wg :
    netDevFindNextLive "wg".toList wgHost [] =
      some (.returned "wg1".toList, [look wgTable, look wgTable]) := by
  rw [netDevFindNextLive, range_start]
  rfl

section Clients

variable {Party : Type} [DecidableEq Party] {calls : Trace Party Answer} {stem dev device name : CString}
  {party client : Party} {table last : NetTable} {m n : Nat}

/-- A search for a device ends with the call at this place. -/
structure SearchEnds (stem : CString) (calls : Trace Party Answer) (party : Party) (n : Nat)
    (table : NetTable) (dev : CString) : Prop where
  last : calls[n]? = some (party, look table)
  search : ∃ env before, netDevFindNextLive stem env before =
    some (.returned dev, Trace.of party (calls.take (n + 1)))

/-- Among the others, a search gives what one look at its end would give. -/
theorem SearchEnds.atomic (ends : SearchEnds stem calls party n table dev)
    (unshrinking : Trace.Ordered StillShows calls) : dev = netDevFindNext table stem := by
  obtain ⟨env, before, run⟩ := ends.search
  obtain ⟨_, split, tables, rfl, looked⟩ := findFreeName_looks stem _ env before _ _ run
  have own := unshrinking.of party (n + 1)
  rw [split] at own
  have grows : tables.Pairwise Grows := by
    have looks := List.pairwise_map.mp (List.pairwise_append.mp own).2.1
    exact looks.imp fun stillShows => stillShows _ _ rfl rfl
  have lookedOnce := looked.nonempty (by simp)
  rw [Trace.of_take_succ ends.last] at split
  have isLast : tables.getLast? = some table := by
    have same := congrArg List.getLast? split
    rw [List.getLast?_concat, List.getLast?_append_of_ne_nil _ (by simpa using lookedOnce),
      List.getLast?_map] at same
    obtain ⟨_, isLast, same⟩ := Option.map_eq_some_iff.mp same.symm
    rwa [look_injective same] at isLast
  rw [netDevFindNext_firstFree]
  exact looked.atomic grows isLast

theorem sameDevice_iff (unshrinking : Trace.Ordered StillShows calls)
    (first : SearchEnds stem calls party m table dev)
    (second : SearchEnds stem calls client n last device) (earlier : m < n) (found : dev ≠ []) :
    device = dev ↔ netDevExists last dev = false := by
  have grows := unshrinking.apart first.last second.last earlier table last rfl rfl
  rw [first.atomic unshrinking] at found ⊢
  rw [second.atomic unshrinking]
  exact netDevFindNext_same_iff grows found

/-- Every search finds what a single look at its end would find, and clients
that look at the same time find different devices if and only if each sees the
devices of those whose search was over before. -/
theorem devices_distinct_iff (stem : CString) (calls : Trace Party Answer) (clients : Set Party)
    (place : Party → Nat) (table : Party → NetTable) (dev : Party → CString)
    (unshrinking : Trace.Ordered StillShows calls)
    (searches : ∀ client ∈ clients,
      SearchEnds stem calls client (place client) (table client) (dev client))
    (found : ∀ client ∈ clients, dev client ≠ []) :
    (∀ client ∈ clients, dev client = netDevFindNext (table client) stem) ∧
      (clients.InjOn dev ↔ ∀ first ∈ clients, ∀ second ∈ clients, place first < place second →
        netDevExists (table second) (dev first) = true) := by
  have again {first second : Party} (inFirst : first ∈ clients) (inSecond : second ∈ clients)
      (earlier : place first < place second) : dev second = dev first ↔
        netDevExists (table second) (dev first) = false :=
    sameDevice_iff unshrinking (searches first inFirst) (searches second inSecond) earlier
      (found first inFirst)
  refine ⟨fun client isClient => (searches client isClient).atomic unshrinking, ?_⟩
  constructor
  · intro distinct first inFirst second inSecond earlier
    rw [← Bool.not_eq_false]
    intro isFree
    have same := distinct inSecond inFirst ((again inFirst inSecond earlier).mpr isFree)
    rw [same] at earlier
    exact Nat.lt_irrefl _ earlier
  · intro sees first inFirst second inSecond same
    rcases Nat.lt_trichotomy (place first) (place second) with earlier | atOnce | later
    · have isFree := (again inFirst inSecond earlier).mp same.symm
      rw [sees first inFirst second inSecond earlier] at isFree
      cases isFree
    · have sameCall := (searches first inFirst).last
      rw [atOnce, (searches second inSecond).last] at sameCall
      exact (Prod.mk.inj (Option.some.inj sameCall)).1.symm
    · have isFree := (again inSecond inFirst later).mp same
      rw [sees second inSecond first inFirst later] at isFree
      cases isFree

/-- One client finds `wg0`; the other one looks when it is there. -/
def turns : Trace Bool Answer := [(false, look bareTable), (true, look wgTable), (true, look wgTable)]

def turnPlace : Bool → Nat
  | false => 0
  | true => 2

def turnTable : Bool → NetTable
  | false => bareTable
  | true => wgTable

def turnDevice : Bool → CString
  | false => "wg0".toList
  | true => "wg1".toList

theorem devices_distinct_iff_turns :
    (∀ client ∈ Set.univ, turnDevice client = netDevFindNext (turnTable client) "wg".toList) ∧
      (Set.univ.InjOn turnDevice ∧ ∀ first ∈ Set.univ, ∀ second ∈ Set.univ,
        turnPlace first < turnPlace second →
          netDevExists (turnTable second) (turnDevice first) = true) := by
  have sees : ∀ first ∈ Set.univ, ∀ second ∈ Set.univ, turnPlace first < turnPlace second →
      netDevExists (turnTable second) (turnDevice first) = true := by
    intro first _ second _ earlier
    cases first <;> cases second <;> first | decide | exact absurd earlier (by decide)
  have unshrinking : Trace.Ordered StillShows turns := by
    have comes : StillShows (look bareTable) (look wgTable) := stillShows_look (grows_bare wgTable)
    have stays : StillShows (look wgTable) (look wgTable) := stillShows_look fun _ exist => exist
    simp [Trace.Ordered, turns, comes, stays]
  obtain ⟨single, distinct⟩ := devices_distinct_iff "wg".toList turns Set.univ turnPlace turnTable
    turnDevice unshrinking (fun client _ => by
      cases client with
      | false => exact ⟨rfl, obligingHost, [], netDevFindNextLive_bare⟩
      | true => exact ⟨rfl, wgHost, [], netDevFindNextLive_wg⟩)
    fun client _ => by cases client <;> exact List.cons_ne_nil _ _
  exact ⟨single, distinct.mpr sees, sees⟩

end Clients

/-! ## Devices that are set up -/

def EndsShown (name : CString) (made : History Answer) : Prop :=
  ∃ before table, made = before ++ [look table] ∧ netDevExists table name = true

theorem EndsShown.after {name : CString} {made : History Answer} (shown : EndsShown name made)
    (before : History Answer) : EndsShown name (before ++ made) := by
  obtain ⟨front, table, rfl, exist⟩ := shown
  exact ⟨before ++ front, table, (List.append_assoc _ _ _).symm, exist⟩

theorem tunSetup_shown (type name : CString) (address : CPtr) :
    (tunSetup type name address).Yields fun status made => status = .okay → EndsShown name made := by
  refine Ends.bind (tunCreate_touches type name).yields fun status before _ => ?_
  refine Ends.ite (fun _ => ?_) fun failed => Ends.pure fun okay => absurd okay failed
  have giveAddress : Touches (Process.when (strValid address) (command (mCopyStr
      [some "ip address add dev ".toList, some name, some " ".toList, address]))) [.addAddress] :=
    Uses.when (command_touches .addAddress rfl (by simp))
  have activate : Touches (command (mCopyStr [some "ip link set up dev ".toList, some name])) [] :=
    command_plain rfl
  refine Ends.bind giveAddress.yields fun _ addressed _ => ?_
  refine Ends.bind activate.yields fun _ activated _ => ?_
  refine (Ends.asked _).bind fun (table : NetTable) made isMade => ?_
  obtain rfl := isMade
  refine Ends.ite (fun exist => Ends.pure fun _ => ?_) fun _ => Ends.pure fun okay => ?_
  · have shown : EndsShown name [look table] := ⟨[], table, rfl, exist⟩
    exact ((shown.after activated).after addressed).after before
  · cases okay

section SetUp

variable {Party : Type} [DecidableEq Party] {calls : Trace Party Answer}
  {type stem name dev : CString} {address : CPtr} {party client : Party} {table : NetTable} {m n : Nat}

/-- A `TunSetup` ends well with the call at this place. -/
structure SetUpEnds (type name : CString) (address : CPtr) (calls : Trace Party Answer)
    (party : Party) (m : Nat) : Prop where
  last : ∃ entry, calls[m]? = some (party, entry)
  setUp : ∃ env before, tunSetup type name address env before =
    some (.returned .okay, Trace.of party (calls.take (m + 1)))

theorem SetUpEnds.shown (ends : SetUpEnds type name address calls party m) :
    ∃ table, calls[m]? = some (party, look table) ∧ netDevExists table name = true := by
  obtain ⟨entry, isLast⟩ := ends.last
  obtain ⟨env, before, run⟩ := ends.setUp
  obtain ⟨made, split, shown⟩ := tunSetup_shown type name address env before _ _ run
  obtain ⟨front, table, rfl, exist⟩ := shown rfl
  rw [Trace.of_take_succ isLast, ← List.append_assoc] at split
  obtain rfl := (List.append_singleton_inj.mp split).2
  exact ⟨table, isLast, exist⟩

def activated : Sigma Answer := ⟨.runCommand "ip link set up dev wg0".toList cmdAsRoot, some .okay⟩

/-- One client sets `wg0` up, another one looks for a device after it. -/
def setUpFirst : Trace Bool Answer :=
  [(false, look wgTable), (false, activated), (false, look wgTable), (true, look wgTable),
    (true, look wgTable)]

/-- While devices only come, a device that `TunSetup` has reported to a client
is found by no other search. -/
theorem device_kept (unshrinking : Trace.Ordered StillShows calls)
    (setUp : SetUpEnds type name address calls party m)
    (search : SearchEnds stem calls client n table dev) (later : m < n) (found : dev ≠ []) :
    dev ≠ name := by
  obtain ⟨seen, isLast, exist⟩ := setUp.shown
  have still := unshrinking.apart isLast search.last later seen table rfl rfl name exist
  rw [search.atomic unshrinking] at found ⊢
  intro same
  rw [netDevFindNext_firstFree] at found same
  have isFree := free_of_firstFree found
  rw [same, still] at isFree
  cases isFree

theorem device_kept_wg :
    SetUpEnds "wireguard".toList "wg0".toList none setUpFirst false 2 ∧
      SearchEnds "wg".toList setUpFirst true 4 wgTable "wg1".toList ∧
      "wg1".toList ≠ "wg0".toList := by
  have unshrinking : Trace.Ordered StillShows setUpFirst := by
    have grows : StillShows (look wgTable) (look wgTable) := stillShows_look fun _ exist => exist
    have leads : StillShows activated (look wgTable) := fun _ _ first _ => by cases first
    have follows : StillShows (look wgTable) activated := fun _ _ _ second => by cases second
    simp [Trace.Ordered, setUpFirst, grows, leads, follows]
  have setUp : SetUpEnds "wireguard".toList "wg0".toList none setUpFirst false 2 :=
    ⟨⟨_, rfl⟩, wgHost, [], rfl⟩
  have search : SearchEnds "wg".toList setUpFirst true 4 wgTable "wg1".toList :=
    ⟨rfl, wgHost, [], netDevFindNextLive_wg⟩
  exact ⟨setUp, search,
    device_kept unshrinking setUp search (by decide) (List.cons_ne_nil _ _)⟩

end SetUp

end VpnMgr.Client
