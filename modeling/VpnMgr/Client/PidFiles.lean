import VpnMgr.Client.Events
import VpnMgr.Machine.Files

/-!
# Whose openvpn is killed

`OpenVpnShutDown` kills the process whose id is in a file that belongs to the
name, and the file outlives the run.
-/

namespace VpnMgr.Client

open Machine Text CString LibUseful Command Process

/-! ## One run -/

def killOf : Sigma Answer → Option CString
  | ⟨.runCommand text _, _⟩ => if hasPrefix "kill ".toList text then some (text.drop 5) else none
  | _ => none

/-- What a history passes to `kill`. -/
def kills (made : History Answer) : List CString := made.filterMap killOf

def readOf (path : CString) : Sigma Answer → Option CString
  | ⟨.readFile other, text⟩ => if other = path then some text else none
  | _ => none

def readsOf (path : CString) (made : History Answer) : List CString := made.filterMap (readOf path)

def pidIn (text : CString) : CString := stripTrailingWhitespace (stripTrailingWhitespace text)

def KillsRead (path : CString) (made : History Answer) : Prop :=
  kills made = ((readsOf path made).map pidIn).filter (· ≠ [])

structure Kills (path : CString) (killed : List CString) (made : History Answer) : Prop where
  killed : kills made = killed
  unread : readsOf path made = []

def aside (path : CString) : Call → Bool
  | .runCommand text _ => !hasPrefix "kill ".toList text
  | .readFile other => other ≠ path
  | _ => true

section Run

variable {path : CString}

theorem composable_killsRead (path : CString) : Composable (KillsRead path) (KillsRead path) := by
  have append : ∀ first second, KillsRead path first → KillsRead path second →
      KillsRead path (first ++ second) := by
    intro first second heldFirst heldSecond
    unfold KillsRead kills readsOf at *
    rw [List.filterMap_append, List.filterMap_append, heldFirst, heldSecond, List.map_append,
      List.filter_append]
  exact ⟨rfl, append, append⟩

theorem kills_aside {made : History Answer} (only : Only (aside path) made) :
    Kills path [] made := by
  constructor
  · refine List.filterMap_eq_nil_iff.mpr fun interaction member => ?_
    have out := only interaction member
    rcases interaction with ⟨call, answer⟩
    cases call <;> simp_all [aside, killOf]
  · refine List.filterMap_eq_nil_iff.mpr fun interaction member => ?_
    have out := only interaction member
    rcases interaction with ⟨call, answer⟩
    cases call <;> simp_all [aside, readOf]

theorem killsRead_of_aside {α : Type} {process : Driver α} (uses : process.Uses (aside path)) :
    process.Makes (KillsRead path) (KillsRead path) := by
  have silent : ∀ made, Only (aside path) made → KillsRead path made := by
    intro made only
    have quiet := kills_aside only
    rw [KillsRead, quiet.killed, quiet.unread]
    rfl
  exact Ends.mono uses (fun _ made only => silent made only) silent

theorem runCommand_aside {text : CString} {flags : FlagWord}
    (other : hasPrefix "kill ".toList text = false) :
    (runCommand text flags).Uses (aside path) := by
  refine Uses.bind (.ask (by rw [aside, other]; rfl)) fun status => ?_
  cases status with
  | some status => exact .pure status
  | none => exact .exit

theorem command_aside {text : CString} (other : hasPrefix "kill ".toList text = false) :
    (command text).Uses (aside path) := Uses.bind (runCommand_aside other) fun _ => .pure ()

theorem tunShutdown_aside (dev : CString) : (tunShutdown dev).Uses (aside path) :=
  Uses.bind (.ask rfl) fun _ => Uses.bind (command_aside rfl) fun _ => command_aside rfl

theorem resolvChange_aside (pid : Nat) (nameservers : CPtr) :
    (resolvChange pid nameservers).Uses (aside path) := by
  refine Uses.bind (.ask rfl) fun _ => Uses.bind (.when ?_) fun _ => ?_
  · exact Uses.bind (.each fun token => .ask rfl) fun _ => .ask rfl
  · exact Uses.bind (command_aside rfl) fun _ => command_aside rfl

theorem routeCommand_noKill (address dev : CString) :
    hasPrefix "kill ".toList (routeCommand address dev) = false := by
  unfold routeCommand
  split
  · rfl
  · split <;> rfl

theorem netSetup_aside (settings : Settings) (vpn : TVpn) (dev : CString) :
    (netSetup settings vpn dev).Uses (aside path) := by
  refine Uses.bind (.when (command_aside ?_)) fun _ => ?_
  · unfold ifconfigCommand
    split <;> rfl
  refine Uses.bind (.when (.each fun _ => command_aside (routeCommand_noKill _ _))) fun _ => ?_
  exact .when (resolvChange_aside _ _)

theorem vpnUp_aside (settings : Settings) (vpn : TVpn) (dev : CString) :
    (vpnUp settings vpn dev).Uses (aside path) := by
  refine Uses.bind (.ask rfl) fun _ => Uses.bind (netSetup_aside settings vpn dev) fun _ => ?_
  refine .when (.each fun token => Uses.bind (.ask rfl) fun _ => .when ?_)
  refine Uses.bind (.ask rfl) fun status => ?_
  cases status with
  | some _ => exact .pure ()
  | none => exact .exit

theorem tunAvailable_aside : tunAvailable.Uses (aside path) := by
  refine Uses.bind (.ask rfl) fun _ => Uses.bind (.when ?_) fun _ => ?_
  · exact Uses.bind (command_aside rfl) fun _ => command_aside rfl
  refine Uses.bind (command_aside rfl) fun _ => Uses.bind (.ask rfl) fun _ => ?_
  exact .ite (.pure _) (Uses.bind (.ask rfl) fun _ => .ite (.pure _) (.ask rfl))

theorem openVpnGenPasswordFile_aside (settings : Settings) (vpn : TVpn) :
    (openVpnGenPasswordFile settings vpn).Uses (aside path) := by
  refine Uses.bind (.ask rfl) fun _ => .ite ?_ (.pure ())
  exact Uses.bind (.ask rfl) fun _ => .ask rfl

theorem openVpnProcess_aside (settings : Settings) (fuel : Nat) (vpn : TVpn) :
    (openVpnProcess settings fuel vpn).Uses (aside path) := by
  refine Uses.loop (fun dev => Uses.bind (.ask rfl) fun line => ?_) fuel _
  cases line with
  | none => exact .pure _
  | some line =>
      refine Uses.bind (.ask rfl) fun _ => .ite (.pure _) ?_
      exact Uses.bind (.when (vpnUp_aside settings vpn _)) fun _ => .pure _

theorem runCommandOpen_aside (text : CString) (flags : FlagWord) :
    (runCommandOpen text flags).Uses (aside path) := by
  refine Uses.bind (.ask rfl) fun opened => ?_
  cases opened with
  | some opened => exact .pure opened
  | none => exact .exit

end Run

/-- The end of a path tells the file from what the kernel shows of its routes
and devices. -/
theorem openVpnPath_ne (settings : Settings) (vpn : TVpn) {front back : CString}
    (other : back.getLast? ≠ some 'd' ∧ back.getLast? ≠ some '/') (filled : back ≠ []) :
    front ++ back ≠ openVpnPath settings vpn ".pid".toList := by
  have ends : (openVpnPath settings vpn ".pid".toList).getLast? = some 'd' ∨
      (openVpnPath settings vpn ".pid".toList).getLast? = some '/' := by
    unfold openVpnPath
    cases vpn.name with
    | none =>
        refine .inr ?_
        rw [mCopyStr_some, List.getLast?_append_of_ne_nil _ (by simp)]
        rfl
    | some name =>
        refine .inl ?_
        simp only [mCopyStr_some, List.getLast?_append]
        rfl
  rintro same
  rw [← same, List.getLast?_append_of_ne_nil _ filled] at ends
  exact ends.elim other.1 other.2

theorem defaultDevGetMTU_aside (settings : Settings) (vpn : TVpn) :
    defaultDevGetMTU.Uses (aside (openVpnPath settings vpn ".pid".toList)) := by
  have table : procNetRoute ≠ openVpnPath settings vpn ".pid".toList :=
    @openVpnPath_ne settings vpn [] procNetRoute (by decide) (by decide)
  have mtu : ∀ dev, mCopyStr [some "/sys/class/net/".toList, some dev, some "/mtu".toList] ≠
      openVpnPath settings vpn ".pid".toList := by
    intro dev
    rw [mCopyStr_some, mCopyStr_some, mCopyStr_some, mCopyStr_nil, ← List.append_assoc]
    exact openVpnPath_ne settings vpn (by decide) (by decide)
  refine Uses.bind (.ask (decide_eq_true table)) fun _ => ?_
  exact .ask (decide_eq_true (mtu _))

theorem command_kills (path pid : CString) :
    (command (mCopyStr [some "kill ".toList, some pid])).Makes (Kills path [pid])
      (Kills path [pid]) := by
  have killed : ∀ answer, Kills path [pid]
      [⟨.runCommand (mCopyStr [some "kill ".toList, some pid]) cmdAsRoot, answer⟩] := by
    refine fun answer => ⟨?_, rfl⟩
    have kill : killOf ⟨.runCommand (mCopyStr [some "kill ".toList, some pid]) cmdAsRoot, answer⟩ =
        some pid := by
      rw [mCopyStr_some, mCopyStr_some, mCopyStr_nil, List.append_nil]
      exact @if_pos _ _ (hasPrefix_append "kill ".toList pid) _ (some pid) none
    rw [kills, List.filterMap_cons_some kill]
    rfl
  refine Ends.bind (Ends.bind (Ends.asked _) fun status made isAsked => ?_) fun _ made held =>
    Ends.pure (by simpa using held)
  obtain rfl := isAsked
  cases status with
  | some status => exact Ends.pure (killed _)
  | none => exact Ends.exit (killed _)

theorem Kills.after_read {text : CString} {rest : History Answer}
    (made : Kills path ([pidIn text].filter (· ≠ [])) rest) :
    KillsRead path (⟨.readFile path, text⟩ :: rest) := by
  have reads : readsOf path (⟨.readFile path, text⟩ :: rest) = [text] := by
    have read : readOf path ⟨.readFile path, text⟩ = some text := if_pos rfl
    rw [readsOf, List.filterMap_cons_some read]
    exact congrArg (text :: ·) made.unread
  rw [KillsRead, reads]
  exact made.killed

theorem openVpnShutDown_makes_kills (settings : Settings) (vpn : TVpn) (dev : CString) :
    (openVpnShutDown settings vpn dev).Makes (KillsRead (openVpnPath settings vpn ".pid".toList))
      (KillsRead (openVpnPath settings vpn ".pid".toList)) := by
  generalize isPath : openVpnPath settings vpn ".pid".toList = path
  unfold openVpnShutDown
  rw [isPath]
  refine (Ends.asked _).bind fun text read isRead => ?_
  obtain rfl := isRead
  have killed : (Process.when (strValid (some (pidIn text)))
      (command (mCopyStr [some "kill ".toList, some (pidIn text)]))).Makes
        (Kills path ([pidIn text].filter (· ≠ []))) (Kills path ([pidIn text].filter (· ≠ []))) := by
    unfold Process.when
    split
    case isTrue valid =>
      rw [List.filter_cons_of_pos (by simpa using (strValid_some_iff _).mp valid)]
      exact command_kills path (pidIn text)
    case isFalse blank =>
      rw [List.filter_cons_of_neg (by simpa [strValid_some_iff] using blank)]
      exact Ends.pure ⟨rfl, rfl⟩
  refine Ends.bind (killed.mono (fun _ _ => id) fun _ => Kills.after_read) fun _ made held => ?_
  have last := killsRead_of_aside (@tunShutdown_aside path dev)
  exact last.mono (fun _ more => (composable_killsRead path).append _ more held.after_read)
    fun more => (composable_killsRead path).append _ more held.after_read

theorem openVpnUp_makes_kills (settings : Settings) (fuel : Nat) (vpn : TVpn) :
    (openVpnUp settings fuel vpn).Makes (KillsRead (openVpnPath settings vpn ".pid".toList))
      (KillsRead (openVpnPath settings vpn ".pid".toList)) := by
  have composable := composable_killsRead (openVpnPath settings vpn ".pid".toList)
  refine (killsRead_of_aside tunAvailable_aside).bind composable fun _ => .ite ?_ (.pure composable ())
  refine (killsRead_of_aside (defaultDevGetMTU_aside settings vpn)).bind composable fun _ => ?_
  refine Makes.bind composable (.when composable (killsRead_of_aside
    (openVpnGenPasswordFile_aside settings vpn))) fun _ => ?_
  refine (killsRead_of_aside (runCommandOpen_aside _ _)).bind composable fun _ =>
    .ite ?_ (.pure composable ())
  refine (killsRead_of_aside (openVpnProcess_aside settings fuel vpn)).bind composable fun dev => ?_
  exact openVpnShutDown_makes_kills settings vpn dev

/-- A run of `connect`, and what the openvpn it has launched does to its file:
the texts that it leaves there one after the other, nothing where it removes it,
until `OpenVpnShutDown` reads and later. -/
structure Connect where
  settings : Settings
  fuel : Nat
  vpn : TVpn
  env : Environment Answer
  ending : Ending Unit
  made : History Answer
  run : openVpnUp settings fuel vpn env [] = some (ending, made)
  soon : List CString
  late : List CString
  launched : soon ++ late ≠ [] → made.any launches = true

namespace Connect

def pidPath (connect : Connect) : CString :=
  openVpnPath connect.settings connect.vpn ".pid".toList

def texts (connect : Connect) : List CString := connect.soon ++ connect.late

def ShutsDown (connect : Connect) : Prop := readsOf connect.pidPath connect.made ≠ []

/-- What is killed is an id that the openvpn of the run has written. -/
def OwnKills (connect : Connect) : Prop :=
  ∀ pid ∈ kills connect.made, pid ∈ connect.texts.map pidIn

end Connect

section Runs

-- which file a path leads to: several names may share one
variable {File : Type} (fileAt : CString → File) {files : File → CString} {connect : Connect}

/-- What `OpenVpnShutDown` finds, where `files` is what `ReadFile` made of each
file when the run began. -/
def Connect.found (files : File → CString) (connect : Connect) : CString :=
  connect.soon.getLast?.getD (files (fileAt connect.pidPath))

def Connect.Fits (files : File → CString) (connect : Connect) : Prop :=
  ∀ text ∈ readsOf connect.pidPath connect.made, text = connect.found fileAt files

variable {fileAt} in
theorem Connect.ownKills_iff_found (fits : connect.Fits fileAt files) :
    connect.OwnKills ↔ (connect.ShutsDown → pidIn (connect.found fileAt files) = [] ∨
      pidIn (connect.found fileAt files) ∈ connect.texts.map pidIn) := by
  have killsRead : KillsRead connect.pidPath connect.made :=
    (openVpnUp_makes_kills _ _ _).ended connect.run
  rw [OwnKills, killsRead]
  constructor
  · intro own shuts
    obtain ⟨text, read⟩ := List.exists_mem_of_ne_nil _ shuts
    obtain rfl := fits text read
    by_cases blank : pidIn (connect.found fileAt files) = []
    · exact .inl blank
    · refine .inr (own _ (List.mem_filter.mpr ⟨List.mem_map_of_mem read, ?_⟩))
      exact decide_eq_true blank
  · intro safe pid killed
    obtain ⟨member, filled⟩ := List.mem_filter.mp killed
    obtain ⟨text, read, rfl⟩ := List.mem_map.mp member
    obtain rfl := fits text read
    exact (safe (List.ne_nil_of_mem read)).resolve_left (of_decide_eq_true filled)

variable {fileAt} in
/-- A run kills only its own openvpn exactly when that has got to the file, or
nothing else is in it. -/
theorem Connect.ownKills_iff (fits : connect.Fits fileAt files) :
    connect.OwnKills ↔ (connect.ShutsDown → connect.soon ≠ [] ∨
      pidIn (files (fileAt connect.pidPath)) = [] ∨
        pidIn (files (fileAt connect.pidPath)) ∈ connect.late.map pidIn) := by
  rw [ownKills_iff_found fits]
  refine imp_congr_right fun _ => ?_
  unfold found texts
  cases last : connect.soon.getLast? with
  | none =>
      rw [List.getLast?_eq_none_iff.mp last]
      simp
  | some text =>
      have member := List.mem_of_getLast? last
      refine iff_of_true (.inr (List.mem_map_of_mem ?_)) (.inl (List.ne_nil_of_mem member))
      exact List.mem_append_left _ member

variable [DecidableEq File]

def Connect.after (files : File → CString) (connect : Connect) : File → CString := fun file =>
  if fileAt connect.pidPath = file then connect.texts.getLast?.getD (files file) else files file

/-- Runs one after the other, each over the files that the last one left. -/
def Connects : (File → CString) → List Connect → Prop
  | _, [] => True
  | files, connect :: rest =>
      connect.Fits fileAt files ∧ Connects (connect.after fileAt files) rest

/-- The texts that the openvpns of these runs left in a file. -/
def textsAt (file : File) (runs : List Connect) : List CString :=
  runs.flatMap fun connect => if fileAt connect.pidPath = file then connect.texts else []

def pidFile (files : File → CString) (runs : List Connect) (file : File) : CString :=
  (textsAt fileAt file runs).getLast?.getD (files file)

variable {fileAt}

theorem pidFile_cons (connect : Connect) (runs : List Connect) (file : File) :
    pidFile fileAt files (connect :: runs) file =
      pidFile fileAt (connect.after fileAt files) runs file := by
  unfold pidFile Connect.after
  have texts : textsAt fileAt file (connect :: runs) =
      (if fileAt connect.pidPath = file then connect.texts else []) ++ textsAt fileAt file runs :=
    List.flatMap_cons
  rw [texts, List.getLast?_append]
  cases (textsAt fileAt file runs).getLast? with
  | some text => rfl
  | none => split <;> rfl

theorem Connects.fits {earlier late : List Connect}
    (course : Connects fileAt files (earlier ++ connect :: late)) : ∃ before : File → CString,
      connect.Fits fileAt before ∧ ∀ file, before file = pidFile fileAt files earlier file := by
  induction earlier generalizing files with
  | nil => exact ⟨files, course.1, fun _ => rfl⟩
  | cons first earlier inductionHypothesis =>
      simp only [pidFile_cons]
      exact inductionHypothesis course.2

end Runs

/-- Over any runs one after the other, openvpn's shutdown kills only what the
openvpn of its own run has written exactly when each run that gets there has its
openvpn at the file first, or no earlier run has left another id in it. -/
theorem openVpnShutDown_ownKills_iff {File : Type} [DecidableEq File] (fileAt : CString → File)
    (files : File → CString) (runs : List Connect) (course : Connects fileAt files runs) :
    (∀ connect ∈ runs, connect.OwnKills) ↔
      ∀ earlier connect late, runs = earlier ++ connect :: late → connect.ShutsDown →
        connect.soon ≠ [] ∨ pidIn (pidFile fileAt files earlier (fileAt connect.pidPath)) = [] ∨
          pidIn (pidFile fileAt files earlier (fileAt connect.pidPath)) ∈
            connect.late.map pidIn := by
  have each : ∀ earlier connect late, runs = earlier ++ connect :: late →
      (connect.OwnKills ↔ (connect.ShutsDown →
        connect.soon ≠ [] ∨ pidIn (pidFile fileAt files earlier (fileAt connect.pidPath)) = [] ∨
          pidIn (pidFile fileAt files earlier (fileAt connect.pidPath)) ∈
            connect.late.map pidIn)) := by
    rintro earlier connect late rfl
    obtain ⟨before, fits, same⟩ := course.fits
    rw [← same]
    exact Connect.ownKills_iff fits
  constructor
  · intro own earlier connect late split
    exact (each earlier connect late split).mp (own connect (split ▸ List.mem_append_cons_self))
  · intro safe connect member
    obtain ⟨earlier, late, split⟩ := List.append_of_mem member
    exact (each earlier connect late split).mpr (safe earlier connect late split)

def pidVpn : TVpn := { name := some "office".toList }

/-- A host with one file that `OpenVpnShutDown` finds something in. -/
def pidHost (text : CString) : Environment Answer
  | _, .readFile path => if path = openVpnPath plainSettings pidVpn ".pid".toList then text else []
  | history, call => obligingHost history call

theorem openVpnUp_kills (text pid : CString)
    (runs : (openVpnUp plainSettings 1 pidVpn (pidHost text) []).map (fun after =>
      (after.2.any launches, readsOf (openVpnPath plainSettings pidVpn ".pid".toList) after.2,
        kills after.2)) = some (true, [text], [pid])) (soon : List CString) :
    ∃ connect : Connect, connect.pidPath = openVpnPath plainSettings pidVpn ".pid".toList ∧
      connect.soon = soon ∧ connect.texts = soon ∧ kills connect.made = [pid] ∧
        readsOf connect.pidPath connect.made = [text] := by
  obtain ⟨⟨ending, made⟩, run, facts⟩ := Option.map_eq_some_iff.mp runs
  obtain ⟨launched, facts⟩ := Prod.mk.inj facts
  obtain ⟨reads, killed⟩ := Prod.mk.inj facts
  exact ⟨⟨plainSettings, 1, pidVpn, pidHost text, ending, made, run, soon, [], fun _ => launched⟩,
    rfl, rfl, List.append_nil soon, killed, reads⟩

theorem openVpnShutDown_ownKills_iff_twice :
    ∃ runs : List Connect, runs.map (fun connect => kills connect.made) =
      [["42".toList], ["43".toList]] ∧ ∀ connect ∈ runs, connect.OwnKills := by
  obtain ⟨first, -, firstSoon, -, firstKills, firstReads⟩ :=
    openVpnUp_kills "42\n".toList "42".toList (by decide +kernel) ["42\n".toList]
  obtain ⟨second, -, secondSoon, -, secondKills, secondReads⟩ :=
    openVpnUp_kills "43\n".toList "43".toList (by decide +kernel) ["43\n".toList]
  refine ⟨[first, second], ?_, ?_⟩
  · rw [List.map_cons, List.map_cons, firstKills, secondKills]
    rfl
  refine (openVpnShutDown_ownKills_iff id (fun _ => []) [first, second] ⟨?_, ?_, trivial⟩).mpr ?_
  · rw [Connect.Fits, firstReads, Connect.found, firstSoon]
    exact fun text => List.mem_singleton.mp
  · rw [Connect.Fits, secondReads, Connect.found, secondSoon]
    exact fun text => List.mem_singleton.mp
  · intro earlier connect late split _
    have member : connect ∈ [first, second] := split ▸ List.mem_append_cons_self
    refine .inl ?_
    rcases List.mem_pair.mp member with rfl | rfl
    · exact firstSoon ▸ List.cons_ne_nil _ _
    · exact secondSoon ▸ List.cons_ne_nil _ _

/-- The second openvpn fails before it gets to the file, and the process that has
the number of the first one is killed. -/
theorem openVpnShutDown_kills_stale :
    ∃ runs : List Connect, Connects id (fun _ => []) runs ∧
      ¬ ∀ connect ∈ runs, connect.OwnKills := by
  obtain ⟨first, firstPath, firstSoon, firstTexts, -, firstReads⟩ :=
    openVpnUp_kills "42\n".toList "42".toList (by decide +kernel) ["42\n".toList]
  obtain ⟨second, secondPath, secondSoon, secondTexts, secondKills, secondReads⟩ :=
    openVpnUp_kills "42\n".toList "42".toList (by decide +kernel) []
  refine ⟨[first, second], ⟨?_, ?_, trivial⟩, fun own => ?_⟩
  · rw [Connect.Fits, firstReads, Connect.found, firstSoon]
    exact fun text => List.mem_singleton.mp
  · rw [Connect.Fits, secondReads, Connect.found, secondSoon, Connect.after, secondPath, firstPath,
      firstTexts]
    exact fun text => List.mem_singleton.mp
  · have killed : "42".toList ∈ second.texts.map pidIn :=
      own second (by simp) _ (secondKills ▸ List.mem_singleton_self _)
    rw [secondTexts] at killed
    exact List.not_mem_nil killed

end VpnMgr.Client
