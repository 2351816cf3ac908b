import VpnMgr.Client.Events
import VpnMgr.Machine.Files
import Mathlib.Data.List.ReduceOption

/-!
# The resolver's files

What a run does to `/etc/resolv.conf`, its backup and the temporary files, when
`mv` works and nothing else touches them.
-/

namespace VpnMgr.Client

open Machine Text CString LibUseful Command Process

/-- The source and the target of an `mv` command. -/
def moveOf (text : CString) : Option (CString × CString) :=
  if hasPrefix "mv ".toList text then
    match getTokens (some (text.drop 3)) " ".toList noFlags with
    | [source, target] => some (source, target)
    | [flag, source, target] => if flag = "-f".toList then some (source, target) else none
    | _ => none
  else none

/-- What a call does to the files. -/
def fileEffect (files : Files CString CString) : Sigma Answer → Files CString CString
  | ⟨.streamOpen (.file path) _ config, true⟩ =>
      if config = "w".toList then files.put path (some []) else files
  | ⟨.streamWriteLine (.file path) text, _⟩ => files.put path ((files path).map (· ++ text))
  | ⟨.runCommand text _, some _⟩ =>
      match moveOf text with
      | some (source, target) => files.move source target
      | none => files
  | _ => files

def filesAfter (files : Files CString CString) (made : History Answer) : Files CString CString :=
  made.foldl fileEffect files

theorem filesAfter_append (files : Files CString CString) (first second : History Answer) :
    filesAfter files (first ++ second) = filesAfter (filesAfter files first) second :=
  List.foldl_append ..

/-- A `ResolvChange`: its temporary file, what it writes there, and whether the
file can be opened. -/
structure Change where
  path : CString
  text : CString
  opened : Bool

/-- The text that `ResolvChange` writes. -/
def nameserverText (nameservers : CPtr) : CString :=
  ((getTokens nameservers ",".toList noFlags).map nameserverLine).flatten

def changeOf (pid : Nat) (nameservers : CPtr) (opened : Bool) : Change :=
  ⟨resolvTemp pid, nameserverText nameservers, opened⟩

def Change.write (change : Change) (files : Files CString CString) : Files CString CString :=
  if change.opened then files.put change.path (some change.text) else files

/-- The whole effect of a `ResolvChange`. -/
def Change.apply (files : Files CString CString) (change : Change) : Files CString CString :=
  ((change.write files).move resolvConf resolvSave).move change.path resolvConf

/-- Was a file opened for writing? -/
def openOf : Sigma Answer → Option (CString × Bool)
  | ⟨.streamOpen (.file path) _ config, opened⟩ =>
      if config = "w".toList then some (path, opened) else none
  | _ => none

def opens (made : History Answer) : List (CString × Bool) := made.filterMap openOf

@[simp]
theorem opens_append (first second : History Answer) :
    opens (first ++ second) = opens first ++ opens second := List.filterMap_append ..

theorem moveOf_backup :
    moveOf "mv /etc/resolv.conf /etc/vpn_mgr.resolv.save".toList = some (resolvConf, resolvSave) := by
  decide

theorem moveOf_restore :
    moveOf "mv /etc/vpn_mgr.resolv.save /etc/resolv.conf".toList = some (resolvSave, resolvConf) := by
  decide

theorem resolvTemp_no_blank (pid : Nat) : ' ' ∉ resolvTemp pid := by
  unfold resolvTemp
  intro member
  rcases List.mem_append.mp member with inFront | inEnd
  · rcases List.mem_append.mp inFront with inStem | inNumber
    · revert inStem
      decide
    · exact not_mem_decimal rfl pid inNumber
  · revert inEnd
    decide

theorem moveOf_install (pid : Nat) :
    moveOf (mCopyStr [some "mv -f ".toList, some (resolvTemp pid), some " /etc/resolv.conf".toList]) =
      some (resolvTemp pid, resolvConf) := by
  have words : getTokens (some ("-f".toList ++ ' ' :: (resolvTemp pid ++ ' ' :: resolvConf)))
      [' '] noFlags = ["-f".toList, resolvTemp pid, resolvConf] := by
    rw [getTokens_append_sep _ (by decide), getTokens_append_sep _ (resolvTemp_no_blank pid),
      getTokens_no_sep (by decide) (by decide)]
  have text : mCopyStr [some "mv -f ".toList, some (resolvTemp pid), some " /etc/resolv.conf".toList] =
      "mv ".toList ++ ("-f".toList ++ ' ' :: (resolvTemp pid ++ ' ' :: resolvConf)) := rfl
  rw [text, moveOf, if_pos (hasPrefix_append _ _)]
  change (match getTokens (some ("-f".toList ++ ' ' :: (resolvTemp pid ++ ' ' :: resolvConf)))
      [' '] noFlags with
    | [source, target] => some (source, target)
    | [flag, source, target] => if flag = "-f".toList then some (source, target) else none
    | _ => none) = _
  rw [words]
  rfl

theorem filesAfter_writes (path : CString) (tokens : List CString)
    (files : Files CString CString) (text : CString) :
    filesAfter (files.put path (some text))
        (tokens.map fun token => ⟨.streamWriteLine (.file path) (nameserverLine token), ()⟩) =
      files.put path (some (text ++ (tokens.map nameserverLine).flatten)) := by
  induction tokens generalizing text with
  | nil => simp [filesAfter]
  | cons token rest inductionHypothesis =>
      have step := inductionHypothesis (text ++ nameserverLine token)
      simpa [filesAfter, fileEffect, Files.put_put] using step

theorem writes_yields (path : CString) (tokens : List CString) :
    (Process.each tokens fun token =>
      streamWriteLine (.file path) (nameserverLine token)).Yields fun _ made =>
        made = tokens.map fun token => ⟨.streamWriteLine (.file path) (nameserverLine token), ()⟩ := by
  induction tokens with
  | nil => exact Ends.pure rfl
  | cons token rest inductionHypothesis =>
      refine (Ends.asked _).bind fun answer made isMade => ?_
      obtain rfl := isMade
      exact inductionHypothesis.mono fun _ more isMore => by rw [isMore]; rfl

theorem resolvWrite_yields (path : CString) (nameservers : CPtr) :
    Yields (do
      Process.each (getTokens nameservers ",".toList noFlags) fun token =>
        streamWriteLine (.file path) (nameserverLine token)
      streamClose (.file path))
      fun _ made => opens made = [] ∧ ∀ files : Files CString CString,
        filesAfter (files.put path (some [])) made =
          files.put path (some (nameserverText nameservers)) := by
  refine (writes_yields path _).bind fun _ made isMade => ?_
  refine Yields.mono (Ends.asked _) fun _ more isMore => ?_
  obtain rfl := isMade
  obtain rfl := isMore
  constructor
  · simp [opens, openOf, List.filterMap_map, Function.comp_def]
  · intro files
    rw [filesAfter_append, filesAfter_writes]
    rfl

theorem command_yields (text : CString) :
    (command text).Yields fun _ made => ∃ status,
      made = [⟨.runCommand text cmdAsRoot, some status⟩] := by
  refine (runCommand_yields text cmdAsRoot).bind fun status made isMade => ?_
  exact Ends.pure ⟨status, by rw [isMade]; rfl⟩

theorem resolvMoves_yields (pid : Nat) :
    Yields (do
      command "mv /etc/resolv.conf /etc/vpn_mgr.resolv.save".toList
      command (mCopyStr [some "mv -f ".toList, some (resolvTemp pid), some " /etc/resolv.conf".toList]))
      fun _ made => opens made = [] ∧ ∀ files, filesAfter files made =
        (files.move resolvConf resolvSave).move (resolvTemp pid) resolvConf := by
  refine (command_yields _).bind fun _ made isMade => ?_
  refine (command_yields _).mono fun _ more isMore => ?_
  obtain ⟨status, rfl⟩ := isMade
  obtain ⟨last, rfl⟩ := isMore
  refine ⟨rfl, fun files => ?_⟩
  simp only [filesAfter, List.cons_append, List.nil_append, List.foldl_cons, List.foldl_nil,
    fileEffect, moveOf_backup, moveOf_install]

/-- A `ResolvChange` that returns has opened its file or not, and has the one
effect that follows. -/
theorem resolvChange_yields (pid : Nat) (nameservers : CPtr) :
    (resolvChange pid nameservers).Yields fun _ made =>
      ∃ opened, opens made = [(resolvTemp pid, opened)] ∧
        ∀ files, filesAfter files made = (changeOf pid nameservers opened).apply files := by
  refine (Ends.asked _).bind fun opened first isFirst => ?_
  obtain rfl := isFirst
  cases opened with
  | false =>
      refine (resolvMoves_yields pid).mono fun _ made held => ⟨false, ?_, held.2⟩
      rw [opens_append, held.1]
      rfl
  | true =>
      refine (resolvWrite_yields (resolvTemp pid) nameservers).bind fun _ wrote isWritten => ?_
      refine (resolvMoves_yields pid).mono fun _ made held => ⟨true, ?_, fun files => ?_⟩
      · rw [opens_append, opens_append, isWritten.1, held.1]
        rfl
      · rw [filesAfter_append, filesAfter_append, held.2]
        exact congrArg (fun files : Files CString CString =>
          (files.move resolvConf resolvSave).move (resolvTemp pid) resolvConf) (isWritten.2 files)

/-! ## What becomes of the contents -/

/-- What each change puts into `/etc/resolv.conf`: the text it writes or, where
it could not open its file, what an older one left there. -/
def produced : Files CString CString → List Change → List (Option CString)
  | _, [] => []
  | files, change :: rest =>
      change.write files change.path :: produced ((change.write files).put change.path none) rest

theorem resolvConf_ne_resolvSave : resolvConf ≠ resolvSave := by decide

/-- A path that is neither `/etc/resolv.conf` nor its backup. -/
def Apart (path : CString) : Prop := path ≠ resolvConf ∧ path ≠ resolvSave

theorem apart_resolvTemp (pid : Nat) : Apart (resolvTemp pid) := by
  have start : (resolvTemp pid).take 2 = "/t".toList := rfl
  constructor
  · intro same
    rw [same] at start
    exact absurd start (by decide)
  · intro same
    rw [same] at start
    exact absurd start (by decide)

section Change

variable {change : Change} {files : Files CString CString}

theorem Change.write_other {path : CString} (different : path ≠ change.path) :
    change.write files path = files path := by
  unfold Change.write
  split
  · exact files.put_other _ different
  · rfl

theorem Change.write_agree (change : Change) {paths : CString → Prop}
    {others : Files CString CString} (agree : Files.Agree paths files others) :
    Files.Agree paths (change.write files) (change.write others) := by
  unfold Change.write
  split
  · exact agree.put _ _
  · exact agree

theorem Change.apply_agree (change : Change) {paths : CString → Prop}
    {others : Files CString CString} (agree : Files.Agree paths files others)
    (inside : paths resolvConf) (isInside : paths change.path) :
    Files.Agree paths (change.apply files) (change.apply others) :=
  ((change.write_agree agree).move inside _).move isInside _

theorem changes_agree {changes : List Change} {paths : CString → Prop}
    {others : Files CString CString} (agree : Files.Agree paths files others)
    (inside : paths resolvConf) (areInside : ∀ change ∈ changes, paths change.path) :
    Files.Agree paths (changes.foldl Change.apply files) (changes.foldl Change.apply others) := by
  induction changes generalizing files others with
  | nil => exact agree
  | cons change rest inductionHypothesis =>
      refine inductionHypothesis (change.apply_agree agree inside ?_) fun other member => ?_
      · exact areInside change List.mem_cons_self
      · exact areInside other (List.mem_cons_of_mem _ member)

theorem Change.apply_conf (apart : Apart change.path) :
    change.apply files resolvConf = change.write files change.path := by
  rw [Change.apply, Files.move_target, Files.move_other _ apart.1 apart.2,
    Files.move_source _ resolvConf_ne_resolvSave, Option.or_none]

theorem Change.apply_save (apart : Apart change.path) :
    change.apply files resolvSave = (files resolvConf).or (files resolvSave) := by
  rw [Change.apply, Files.move_other _ apart.2.symm resolvConf_ne_resolvSave.symm,
    Files.move_target, Change.write_other apart.1.symm, Change.write_other apart.2.symm]

theorem Change.apply_other (apart : Apart change.path) :
    Files.Agree Apart (change.apply files) ((change.write files).put change.path none) := by
  intro path other
  by_cases same : path = change.path
  · rw [same, Change.apply, Files.move_source _ apart.1, Files.put_same]
  · rw [Change.apply, Files.move_other _ same other.1, Files.move_other _ other.1 other.2,
      Files.put_other _ _ same]

end Change

theorem produced_congr {changes : List Change} {paths : CString → Prop}
    (inside : ∀ change ∈ changes, paths change.path) {files others : Files CString CString}
    (agree : Files.Agree paths files others) : produced files changes = produced others changes := by
  induction changes generalizing files others with
  | nil => rfl
  | cons change rest inductionHypothesis =>
      have written := change.write_agree agree
      rw [produced, produced, written _ (inside change List.mem_cons_self)]
      refine congrArg _ (inductionHypothesis (fun other member => ?_) (written.put _ _))
      exact inside other (List.mem_cons_of_mem _ member)

theorem changes_conf {changes : List Change} (apart : ∀ change ∈ changes, Apart change.path)
    (files : Files CString CString) :
    (changes.foldl Change.apply files) resolvConf =
      (produced files changes).getLast?.getD (files resolvConf) := by
  induction changes generalizing files with
  | nil => rfl
  | cons change rest inductionHypothesis =>
      have here := apart change List.mem_cons_self
      have later := fun other member => apart other (List.mem_cons_of_mem _ member)
      rw [List.foldl_cons, inductionHypothesis later, Change.apply_conf here, produced,
        List.getLast?_cons, Option.getD_some,
        produced_congr later (Change.apply_other here)]

/-- The backup after any number of changes: the last contents that were there
before one of them. -/
theorem changes_save {changes : List Change} (apart : ∀ change ∈ changes, Apart change.path)
    (files : Files CString CString) :
    (changes.foldl Change.apply files) resolvSave =
      ((files resolvConf :: produced files changes).dropLast.reduceOption.getLast?).or
        (files resolvSave) := by
  induction changes generalizing files with
  | nil => rfl
  | cons change rest inductionHypothesis =>
      have here := apart change List.mem_cons_self
      have later := fun other member => apart other (List.mem_cons_of_mem _ member)
      rw [List.foldl_cons, inductionHypothesis later, Change.apply_conf here, Change.apply_save here,
        produced_congr later (Change.apply_other here), produced, List.dropLast_cons_cons]
      rcases initial : files resolvConf with _ | contents
      · rw [List.reduceOption_cons_of_none, Option.none_or]
      · rw [List.reduceOption_cons_of_some, List.getLast?_cons, Option.some_or]
        rcases (List.reduceOption _).getLast? with _ | last <;> rfl

/-- `ResolvChange` by these processes for these lists, one after the other. -/
def resolvChanges (calls : List (Nat × CPtr)) : Driver Unit :=
  Process.each calls fun call => resolvChange call.1 call.2

/-- The changes, once it is known which temporary files could be opened. -/
def changesOf (calls : List (Nat × CPtr)) (made : History Answer) : List Change :=
  List.zipWith (fun call opened => changeOf call.1 call.2 opened.2) calls (opens made)

theorem resolvChanges_yields (calls : List (Nat × CPtr)) :
    (resolvChanges calls).Yields fun _ made => (opens made).length = calls.length ∧
      ∀ files, filesAfter files made = (changesOf calls made).foldl Change.apply files := by
  induction calls with
  | nil => exact Ends.pure ⟨rfl, fun _ => rfl⟩
  | cons call rest inductionHypothesis =>
      refine (resolvChange_yields call.1 call.2).bind fun _ made held => ?_
      refine inductionHypothesis.mono fun _ more later => ?_
      obtain ⟨opened, isOpened, effect⟩ := held
      refine ⟨by simp [isOpened, later.1], fun files => ?_⟩
      rw [filesAfter_append, effect, later.2, changesOf, changesOf, opens_append, isOpened]
      rfl

theorem changesOf_apart (calls : List (Nat × CPtr)) (made : History Answer) :
    ∀ change ∈ changesOf calls made, Apart change.path := by
  intro change member
  obtain ⟨index, inRange, rfl⟩ := List.mem_iff_getElem.mp member
  simp only [changesOf, List.getElem_zipWith]
  exact apart_resolvTemp _

/-- The texts that the changes before the last one put into `/etc/resolv.conf`. -/
def overwritten (files : Files CString CString) (changes : List Change) : List CString :=
  (produced files changes).dropLast.reduceOption

theorem resolvRestore_yields :
    resolvRestore.Yields fun _ made => opens made = [] ∧
      ∀ files, filesAfter files made = files.move resolvSave resolvConf := by
  refine (command_yields _).mono fun _ made isMade => ?_
  obtain ⟨status, rfl⟩ := isMade
  refine ⟨rfl, fun files => ?_⟩
  simp only [filesAfter, List.foldl_cons, List.foldl_nil, fileEffect, moveOf_restore]

theorem restored_conf {changes : List Change} (apart : ∀ change ∈ changes, Apart change.path)
    (nonempty : changes ≠ []) {files : Files CString CString} {contents : CString}
    (initial : files resolvConf = some contents) :
    (changes.foldl Change.apply files).move resolvSave resolvConf resolvConf =
      some ((overwritten files changes).getLast?.getD contents) := by
  obtain ⟨change, rest, rfl⟩ := List.exists_cons_of_ne_nil nonempty
  rw [Files.move_target, changes_save apart, initial, overwritten, produced,
    List.dropLast_cons_cons, List.reduceOption_cons_of_some, List.getLast?_cons, Option.some_or,
    Option.some_or]

/-- A `ResolvRestore` after some `ResolvChange`s puts the initial contents back
exactly when no change before the last one put another text in their place. -/
theorem resolvRestore_restores_iff (calls : List (Nat × CPtr)) (nonempty : calls ≠ [])
    (env : Environment Answer) (made : History Answer)
    (returned : (do resolvChanges calls; resolvRestore : Driver Unit) env [] =
      some (.returned (), made))
    (files : Files CString CString) (contents : CString)
    (initial : files resolvConf = some contents) :
    filesAfter files made resolvConf = some contents ↔
      (overwritten files (changesOf calls made)).getLast?.getD contents = contents := by
  have specification : (do resolvChanges calls; resolvRestore : Driver Unit).Yields fun _ made =>
      (opens made).length = calls.length ∧ ∀ files, filesAfter files made =
        ((changesOf calls made).foldl Change.apply files).move resolvSave resolvConf := by
    refine (resolvChanges_yields calls).bind fun _ changed held => ?_
    refine resolvRestore_yields.mono fun _ last restored => ⟨?_, fun files => ?_⟩
    · rw [opens_append, restored.1, List.append_nil, held.1]
    · rw [filesAfter_append, restored.2, held.2, changesOf, changesOf, opens_append, restored.1,
        List.append_nil]
  obtain ⟨count, effect⟩ := specification.returned returned
  have some_change : changesOf calls made ≠ [] := by
    intro none
    have length := congrArg List.length none
    rw [changesOf, List.length_zipWith, count, Nat.min_self] at length
    exact nonempty (List.length_eq_zero_iff.mp length)
  rw [effect, restored_conf (changesOf_apart calls made) some_change initial, Option.some_inj]

/-- A system with nothing but an `/etc/resolv.conf`. -/
def onlyResolv (contents : CString) : Files CString CString :=
  Files.put (fun _ => none) resolvConf (some contents)

def oldResolv : Files CString CString := onlyResolv "old".toList

/-- Two processes with the same servers, that were there before. -/
def sameServers : List (Nat × CPtr) := [(1, some "10.0.0.1".toList), (2, some "10.0.0.1".toList)]

theorem resolvRestore_restores_same :
    ∃ made, (do resolvChanges sameServers; resolvRestore : Driver Unit) obligingHost [] =
        some (.returned (), made) ∧
      filesAfter (onlyResolv "nameserver 10.0.0.1\n".toList) made resolvConf =
        some "nameserver 10.0.0.1\n".toList := by
  have run : ((do resolvChanges sameServers; resolvRestore : Driver Unit) obligingHost []).map
      (fun ended => (ended.1, overwritten (onlyResolv "nameserver 10.0.0.1\n".toList)
        (changesOf sameServers ended.2))) =
      some (.returned (), ["nameserver 10.0.0.1\n".toList]) := by decide
  obtain ⟨⟨ending, made⟩, ended, read⟩ := Option.map_eq_some_iff.mp run
  obtain ⟨rfl, texts⟩ := Prod.mk.inj read
  refine ⟨made, ended, ?_⟩
  refine (resolvRestore_restores_iff _ (List.cons_ne_nil _ _) _ _ ended _ _ (Files.put_same ..)).mpr ?_
  exact congrArg (fun texts : List CString => texts.getLast?.getD _) texts

/-- After two of them the backup is the first one's text. -/
theorem resolvRestore_loses_original :
    ∃ made, (do
        resolvChanges [(1, some "10.0.0.1".toList), (1, some "10.0.0.2".toList)]
        resolvRestore : Driver Unit) obligingHost [] = some (.returned (), made) ∧
      filesAfter oldResolv made resolvConf ≠ some "old".toList := by
  have run : ((do
      resolvChanges [(1, some "10.0.0.1".toList), (1, some "10.0.0.2".toList)]
      resolvRestore : Driver Unit) obligingHost []).map
        (fun ended => (ended.1, filesAfter oldResolv ended.2 resolvConf)) =
      some (.returned (), some "nameserver 10.0.0.1\n".toList) := by decide
  obtain ⟨⟨ending, made⟩, ended, read⟩ := Option.map_eq_some_iff.mp run
  obtain ⟨rfl, final⟩ := Prod.mk.inj read
  exact ⟨made, ended, by rw [final]; decide⟩

end VpnMgr.Client
