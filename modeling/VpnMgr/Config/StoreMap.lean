import VpnMgr.Config.Deletion
import VpnMgr.Config.KeyMaterial
import VpnMgr.Config.ServerLine
import VpnMgr.LibUseful.FlatDirectory
import VpnMgr.Options

/-!
# The saved configurations as a map

`add`, `config` and `delete` in any order, and what `list` prints after them.
-/

namespace VpnMgr.Config

open Machine Text CString LibUseful

/-- The path that `ReadConfig` opens. -/
def readPath (home : CString) (name : CPtr) : CString :=
  mCopyStr [some home, some "/.config/vpn_mgr/".toList, name, some "/".toList, name,
    some ".conf".toList]

section Around

variable (around : Surroundings)

/-- The context that a round of `ListConfigs` has when it prints. -/
def listConfig (path : CString) (flags : FlagWord) (t : Disk) : Option Settings :=
  (vpnCtxCreate [] (some (strRTruncChar (getBasename path) '.')) (some [])).map fun vpn =>
    readConfig around.currUserHomeDir
      (around.streamRead (readPath around.currUserHomeDir vpn.name) t) ⟨vpn, flags⟩

/-- `printf("%s %s\n", Vpn->Name, Vpn->Server)`. -/
def listLine (name server : CString) : CString := name ++ ' ' :: (server ++ ['\n'])

/-- The loop of `ListConfigs`; a file may change `GlobalFlags` for the next. -/
def listConfigsFrom (t : Disk) : FlagWord → List (List CString) → CString
  | _, [] => []
  | flags, path :: rest =>
      match listConfig around (pathText path) flags t with
      | none => []
      | some s =>
          listLine (copyStr s.vpn.name) (copyStr s.vpn.server) ++
            listConfigsFrom t s.globalFlags rest

/-- What `ListConfigs` prints. -/
def listConfigs (flags : FlagWord) (t : Disk) : CString :=
  let pattern := mCopyStr [some around.currUserHomeDir, some "/.config/vpn_mgr/*/*.conf".toList]
  listConfigsFrom around t flags (glob t (pattern.splitOn '/'))

/-- The `switch` of `main`, for the actions that change the saved configurations. -/
def perform (fuel : Nat) (s : Settings) (t : Disk) : Disk :=
  match s.vpn.action with
  | .config => saveConfig around s t
  | .add => (addConfig around s t).2
  | .delete => deleteConfig fuel around.currUserHomeDir s.vpn.name t
  | _ => t

/-- The context that the command hands to `WriteConfig`. -/
def contextSaved (s : Settings) (t : Disk) : Option Settings :=
  match s.vpn.action with
  | .config => some s
  | .add => some (addConfig around s t).1
  | _ => none

def storeAfter (fuel : Nat) (t : Disk) (commands : List Settings) : Disk :=
  commands.foldl (fun t s => perform around fuel s t) t

/-- What the last command on a name has saved; nothing if that was a `delete`. -/
def lastSaved (fuel : Nat) (t : Disk) (commands : List Settings) (name : CString) :
    Option Settings :=
  (commands.foldl (fun (state : Disk × Option Settings) s =>
    (perform around fuel s state.1,
      if s.vpn.name = some name then contextSaved around s state.1 else state.2)) (t, none)).2

end Around

namespace HomeDir

def configFile (home : HomeDir) (name : CString) : Path :=
  home.configDir name ++ [name ++ ".conf".toList]

end HomeDir

section Paths

variable {home : HomeDir} {name : CString}

theorem splitOn_store (home : HomeDir) (rest : CString) :
    (home.text ++ ("/.config/vpn_mgr/".toList ++ rest)).splitOn '/' =
      [] :: home.store ++ rest.splitOn '/' := by
  have text : home.text ++ ("/.config/vpn_mgr/".toList ++ rest) =
      home.names.flatMap ('/' :: ·) ++ '/' :: (".config".toList ++ '/' ::
        ("vpn_mgr".toList ++ '/' :: rest)) := rfl
  rw [text, splitOn_names fun name membership => (home.proper name membership).noSlash,
    List.splitOn_append_cons_self_of_not_mem (by decide),
    List.splitOn_append_cons_self_of_not_mem (by decide)]
  simp [HomeDir.store]

theorem splitOn_doubled (home : HomeDir) (rest : CString) :
    (home.text ++ ("/".toList ++ ("/.config/vpn_mgr/".toList ++ rest))).splitOn '/' =
      [] :: (home.names ++ [] :: [".config".toList, "vpn_mgr".toList]) ++ rest.splitOn '/' := by
  have text : home.text ++ ("/".toList ++ ("/.config/vpn_mgr/".toList ++ rest)) =
      home.names.flatMap ('/' :: ·) ++ '/' :: ([] ++ '/' :: (".config".toList ++ '/' ::
        ("vpn_mgr".toList ++ '/' :: rest))) := rfl
  rw [text, splitOn_names fun name membership => (home.proper name membership).noSlash,
    List.splitOn_append_cons_self_of_not_mem (by decide),
    List.splitOn_append_cons_self_of_not_mem (by decide),
    List.splitOn_append_cons_self_of_not_mem (by decide)]
  simp

theorem splitOn_inside (noSlash : '/' ∉ name) {file : CString} (fileNoSlash : '/' ∉ file) :
    (name ++ '/' :: file).splitOn '/' = [name, file] := by
  rw [List.splitOn_append_cons_self_of_not_mem noSlash, List.splitOn_eq_singleton fileNoSlash]

theorem configDir_append_inj {other : CString} {rest behind : Path} :
    home.configDir other ++ rest = home.configDir name ++ behind ↔ other = name ∧ rest = behind := by
  constructor
  · intro same
    obtain ⟨dirs, tails⟩ := List.append_inj same (by simp [HomeDir.configDir])
    exact ⟨(List.cons.inj (List.append_cancel_left dirs)).1, tails⟩
  · rintro ⟨rfl, rfl⟩
    rfl

theorem prefix_configDir_iff {other : CString} {rest : Path} :
    home.configDir other ++ rest <+: home.configDir name ↔ other = name ∧ rest = [] := by
  constructor
  · rintro ⟨behind, whole⟩
    rw [List.append_assoc, ← List.append_nil (home.configDir name), configDir_append_inj] at whole
    exact ⟨whole.1, (List.append_eq_nil_iff.mp whole.2).1⟩
  · rintro ⟨rfl, rfl⟩
    exact ⟨[], by simp⟩

theorem configDir_ne_outer {other : CString} {rest p : Path} (inStore : p <+: home.store) :
    home.configDir other ++ rest ≠ p := by
  rintro rfl
  have short := inStore.length_le
  simp only [HomeDir.configDir, List.length_append, List.length_singleton] at short
  omega

end Paths

/-- A name that the commands are given. -/
structure StoredName (name : CString) : Prop where
  literal : LiteralName name
  visible : Visible name

def configEndings : List CString :=
  [".conf".toList, ".crt".toList, ".key".toList, ".server".toList]

/-- Below the store are configurations and key files only, and nothing is in its
way. -/
structure Tidy (home : HomeDir) (t : Disk) : Prop where
  way : ∀ p, p <+: home.store → t.entry p = none ∨ t.isDir p = true
  dirs : ∀ name content, t.entry (home.configDir name) ≠ some (.file content)
  files : ∀ name rest e, rest ≠ [] → t.entry (home.configDir name ++ rest) = some e →
    ∃ ending ∈ configEndings, ∃ content, rest = [name ++ ending] ∧ e = .file content

structure Writes (home : HomeDir) (name : CString) (t u : Disk) : Prop where
  tidy : Tidy home u
  elsewhere : ∀ other rest, other ≠ name →
    u.entry (home.configDir other ++ rest) = t.entry (home.configDir other ++ rest)
  isDir : u.isDir (home.configDir name) = true

section Writing

variable {home : HomeDir} {name : CString} {t u v : Disk}

theorem Writes.trans (first : Writes home name t u) (second : Writes home name u v) :
    Writes home name t v :=
  ⟨second.tidy, fun other rest different =>
    (second.elsewhere other rest different).trans (first.elsewhere other rest different),
    second.isDir⟩

theorem Writes.refl (tidy : Tidy home t) (isDir : t.isDir (home.configDir name) = true) :
    Writes home name t t := ⟨tidy, fun _ _ _ => rfl, isDir⟩

theorem Tidy.free (tidy : Tidy home t) {p : Path} (inside : p <+: home.configDir name) :
    t.entry p = none ∨ t.isDir p = true := by
  rcases List.prefix_concat_iff.mp inside with rfl | inStore
  · rcases found : t.entry (home.configDir name) with _ | (_ | content)
    · exact .inl found
    · exact .inr (FileTree.isDir_iff.mpr found)
    · exact absurd found (tidy.dirs name content)
  · exact tidy.way p inStore

theorem entry_makeDirPath {path last : CString} {names : List CString}
    (split : path.splitOn '/' = [] :: names ++ [last]) (plain : ∀ c ∈ names, PlainStep c)
    (free : ∀ p, p <+: namesIn names → t.entry p = none ∨ t.isDir p = true) (q : Path) :
    (makeDirPath path t).entry q =
      if q <+: namesIn names then some .directory else t.entry q := by
  have whole : namesIn ([[]] ++ names) = namesIn names := List.filter_cons_of_neg (by simp)
  have made := @entry_makeDirs t [[]] names last ?_ (FileTree.isDir_iff.mpr FileTree.entry_root)
    (by rwa [whole]) q
  · rw [makeDirPath, split, ← whole]
    exact made
  · intro c member
    rcases List.mem_append.mp member with empty | member
    · exact .inl (List.mem_singleton.mp empty)
    · exact plain c member

theorem Tidy.makeDirPath (tidy : Tidy home t) {path last : CString} {names : List CString}
    (split : path.splitOn '/' = [] :: names ++ [last]) (plain : ∀ c ∈ names, PlainStep c)
    (whole : namesIn names = home.configDir name) :
    Writes home name t (makeDirPath path t) := by
  have entries := entry_makeDirPath split plain (fun p inside => tidy.free (whole ▸ inside))
  rw [whole] at entries
  have others : ∀ other rest, ¬ (other = name ∧ rest = []) →
      (LibUseful.makeDirPath path t).entry (home.configDir other ++ rest) =
        t.entry (home.configDir other ++ rest) := fun other rest different => by
    rw [entries, if_neg (mt prefix_configDir_iff.mp different)]
  constructor
  · constructor
    · intro p inStore
      have inside : p <+: home.configDir name := inStore.trans (List.prefix_append ..)
      exact .inr (FileTree.isDir_iff.mpr (by rw [entries, if_pos inside]))
    · intro other content found
      by_cases same : other = name
      · rw [same, entries, if_pos (List.prefix_refl _)] at found
        cases found
      · have there := others other [] fun both => same both.1
        rw [List.append_nil] at there
        exact tidy.dirs other content (there ▸ found)
    · intro other rest e nonempty found
      rw [others other rest fun both => nonempty both.2] at found
      exact tidy.files other rest e nonempty found
  · exact fun other rest different => others other rest fun both => different both.1
  · rw [FileTree.isDir_iff, entries, if_pos (List.prefix_refl _)]

theorem proper_file {ending : CString} (proper : ProperName name) (ends : ending ∈ configEndings) :
    ProperName (name ++ ending) := by
  have long : 2 < (name ++ ending).length := by
    have endings : ∀ ending ∈ configEndings, 2 < ending.length := by decide
    rw [List.length_append]
    exact Nat.lt_add_left _ (endings ending ends)
  have noSlash : ∀ ending ∈ configEndings, '/' ∉ ending := by decide
  constructor
  · exact List.append_ne_nil_of_left_ne_nil proper.nonempty _
  · rw [List.mem_append, not_or]
    exact ⟨proper.noSlash, noSlash ending ends⟩
  · exact fun same => absurd (congrArg List.length same ▸ long) (by decide)
  · exact fun same => absurd (congrArg List.length same ▸ long) (by decide)

theorem Tidy.noDir (tidy : Tidy home t) (name : CString) {rest : Path} (nonempty : rest ≠ []) :
    t.isDir (home.configDir name ++ rest) = false := by
  rw [← Bool.not_eq_true, FileTree.isDir_iff]
  intro found
  obtain ⟨-, -, content, -, isFile⟩ := tidy.files name rest _ nonempty found
  cases isFile

theorem Tidy.vacant (tidy : Tidy home t) (isDir : t.isDir (home.configDir name) = true)
    {ending : CString} (proper : ProperName name) (ends : ending ∈ configEndings) :
    Vacant t (home.configDir name ++ [name ++ ending]) := by
  refine ⟨by simp, by rwa [List.dropLast_concat], fun c member => ?_, tidy.noDir name (by simp)⟩
  rcases List.mem_append.mp member with inDir | last
  · exact FileTree.entry_valid (FileTree.isDir_iff.mp isDir) c inDir
  · rw [List.mem_singleton.mp last]
    exact proper_file proper ends

theorem Tidy.put (tidy : Tidy home t) (isDir : t.isDir (home.configDir name) = true)
    {ending : CString} (proper : ProperName name) (ends : ending ∈ configEndings) (text : CString) :
    Writes home name t (t.put (home.configDir name ++ [name ++ ending]) (.file text)) := by
  have vacant := tidy.vacant isDir proper ends
  have entries := @Vacant.entry_put _ _ text vacant
  have dirs := @Vacant.isDir_put _ _ text vacant
  constructor
  · constructor
    · intro p inStore
      rw [entries, dirs, if_neg (configDir_ne_outer inStore).symm]
      exact tidy.way p inStore
    · intro other content found
      rw [entries, if_neg] at found
      · exact tidy.dirs other content found
      · intro same
        have whole := congrArg List.length same
        simp [HomeDir.configDir] at whole
    · intro other rest e nonempty found
      rw [entries] at found
      split at found
      next same =>
        obtain ⟨rfl, rfl⟩ := configDir_append_inj.mp same
        exact ⟨ending, ends, text, rfl, (Option.some.inj found).symm⟩
      next => exact tidy.files other rest e nonempty found
  · intro other rest different
    rw [entries, if_neg fun same => different (configDir_append_inj.mp same).1]
  · rw [dirs, isDir]

theorem place_inside {around : Surroundings} {path ending : CString} {names : List CString}
    (split : path.splitOn '/' = [] :: names ++ [name ++ ending]) (plain : ∀ c ∈ names, PlainStep c)
    (whole : namesIn names = home.configDir name) (absolute : path.head? = some '/')
    (tidy : Tidy home t) (isDir : t.isDir (home.configDir name) = true)
    (proper : ProperName name) (ends : ending ∈ configEndings) :
    around.place t path = some (home.configDir name ++ [name ++ ending]) := by
  have steps : ∀ c ∈ [] :: names, PlainStep c := List.forall_mem_cons.mpr ⟨.inl rfl, plain⟩
  have leads : resolve t [] ([] :: names) = some (home.configDir name) := by
    have all : namesIn ([] :: names) = home.configDir name :=
      (List.filter_cons_of_neg (by simp)).trans whole
    rw [resolve_plain steps (by rwa [List.nil_append, all]), List.nil_append, all]
  rw [Surroundings.place, Surroundings.start, if_pos absolute, split]
  exact openCreate_eq_some_iff.mpr ⟨_, _, _, rfl, leads, isDir, proper_file proper ends,
    tidy.noDir name (by simp), rfl⟩

end Writing

section CommandPaths

variable {home : HomeDir} {name : CString}

theorem text_head? (home : HomeDir) (rest : CString) :
    (home.text ++ '/' :: rest).head? = some '/' := by
  obtain ⟨front, absolute⟩ := homeText_append home rest
  rw [absolute]
  rfl

theorem namesIn_configDir (home : HomeDir) (proper : ProperName name) :
    namesIn (home.store ++ [name]) = home.configDir name := by
  refine namesIn_proper fun c member => ?_
  rcases List.mem_append.mp member with inStore | last
  · exact storeNames_proper home c inStore
  · rwa [List.mem_singleton.mp last]

theorem splitOn_configDirText (home : HomeDir) (proper : ProperName name) :
    (configDirText home.text (some name)).splitOn '/' = [] :: (home.store ++ [name]) ++ [[]] := by
  have text : configDirText home.text (some name) =
      home.text ++ ("/.config/vpn_mgr/".toList ++ (name ++ '/' :: [])) := by
    simp only [configDirText, mCopyStr_some, mCopyStr_nil, List.append_nil]
    rfl
  rw [text, splitOn_store, splitOn_inside proper.noSlash List.not_mem_nil]
  simp

theorem keyPath_text (home : HomeDir) (name : CString) (k : KeyFile) :
    keyPath home.text (some name) k =
      home.text ++ ("/.config/vpn_mgr/".toList ++ (name ++ '/' :: (name ++ k.extension))) := by
  simp only [keyPath, configDirText, mCopyStr_some, mCopyStr_nil, List.append_nil,
    List.append_assoc]
  rfl

theorem readPath_text (home : HomeDir) (name : CString) :
    readPath home.text (some name) =
      home.text ++ ("/.config/vpn_mgr/".toList ++ (name ++ '/' :: (name ++ ".conf".toList))) := by
  simp only [readPath, mCopyStr_some, mCopyStr_nil, List.append_nil]
  rfl

theorem configPath_text (home : HomeDir) (name : CString) :
    configPath home.text (some name) = home.text ++ ("/".toList ++ ("/.config/vpn_mgr/".toList ++
      (name ++ '/' :: (name ++ ".conf".toList)))) := by
  simp only [configPath, mCopyStr_some, mCopyStr_nil, List.append_nil, List.append_assoc]
  rfl

theorem ending_of_key (k : KeyFile) : k.extension ∈ configEndings := by
  cases k <;> decide

theorem conf_ending : ".conf".toList ∈ configEndings := List.mem_cons_self

theorem splitOn_keyPath (home : HomeDir) (proper : ProperName name) (k : KeyFile) :
    (keyPath home.text (some name) k).splitOn '/' =
      [] :: (home.store ++ [name]) ++ [name ++ k.extension] := by
  rw [keyPath_text, splitOn_store,
    splitOn_inside proper.noSlash (proper_file proper (ending_of_key k)).noSlash]
  simp

theorem splitOn_readPath (home : HomeDir) (proper : ProperName name) :
    (readPath home.text (some name)).splitOn '/' =
      [] :: (home.store ++ [name]) ++ [name ++ ".conf".toList] := by
  rw [readPath_text, splitOn_store,
    splitOn_inside proper.noSlash (proper_file proper conf_ending).noSlash, List.cons_append,
    List.cons_append, List.append_assoc]
  rfl

/-- The directories on the way of `WriteConfig`. -/
def doubledDir (home : HomeDir) (name : CString) : List CString :=
  home.names ++ [] :: [".config".toList, "vpn_mgr".toList, name]

theorem splitOn_configPath (home : HomeDir) (proper : ProperName name) :
    (configPath home.text (some name)).splitOn '/' =
      [] :: doubledDir home name ++ [name ++ ".conf".toList] := by
  rw [configPath_text, splitOn_doubled,
    splitOn_inside proper.noSlash (proper_file proper conf_ending).noSlash, List.cons_append,
    List.cons_append, doubledDir, List.append_assoc, List.append_assoc]
  rfl

theorem doubledDir_plain (home : HomeDir) (proper : ProperName name) :
    (∀ c ∈ doubledDir home name, PlainStep c) ∧
      namesIn (doubledDir home name) = home.configDir name := by
  constructor
  · intro c member
    rcases List.mem_append.mp member with inHome | behind
    · exact .inr (home.proper c inHome)
    · rcases List.mem_cons.mp behind with rfl | behind
      · exact .inl rfl
      · refine .inr ?_
        rcases List.mem_cons.mp behind with rfl | behind
        · decide
        · rcases List.mem_pair.mp behind with rfl | rfl
          · decide
          · exact proper
  · have inStore : namesIn ([] :: [".config".toList, "vpn_mgr".toList, name]) =
        [".config".toList, "vpn_mgr".toList, name] := by
      have whole := namesIn_configDir ⟨[], by simp⟩ proper
      exact (List.filter_cons_of_neg (by simp)).trans whole
    rw [doubledDir, namesIn_append, namesIn_proper home.proper, inStore, HomeDir.configDir,
      HomeDir.store, List.append_assoc]
    rfl

theorem configDir_plain (home : HomeDir) (proper : ProperName name) :
    ∀ c ∈ home.store ++ [name], PlainStep c := by
  intro c member
  rcases List.mem_append.mp member with inStore | last
  · exact .inr (storeNames_proper home c inStore)
  · exact .inr (List.mem_singleton.mp last ▸ proper)

end CommandPaths

/-! ## What `add` and `config` write -/

/-- The settings that the copies of `AddConfig` leave alone. -/
structure SameFields (s saved : Settings) : Prop where
  name : saved.vpn.name = s.vpn.name
  server : saved.vpn.server = s.vpn.server
  verbatim : ∀ key ∈ verbatimKeys, field saved.vpn key = field s.vpn key

/-- What is saved is found again under that name: `STREAMOpen` takes the path for
a file's and may write it, all of the text fits, the name is one line, and no
path in the text names another server. -/
structure Storable (around : Surroundings) (home : HomeDir) (name : CString) (s : Settings) :
    Prop where
  written : opensFile (configPath home.text (some name)) = true
  read : opensFile (readPath home.text (some name)) = true
  allowed : around.refuses (home.configFile name) = false
  fits : around.arrived (home.configFile name) (writeConfig home.text s) = writeConfig home.text s
  oneLine : '\n' ∉ name
  ownServer : serverNamed (pathLines home.text s.vpn) = none ∨
    serverNamed (pathLines home.text s.vpn) = some s.vpn.server

section Saving

variable {around : Surroundings} {home : HomeDir} {name : CString} {s : Settings} {t : Disk}

theorem SameFields.refl (s : Settings) : SameFields s s := ⟨rfl, rfl, fun _ _ => rfl⟩

theorem SameFields.trans {saved last : Settings} (first : SameFields s saved)
    (second : SameFields saved last) : SameFields s last :=
  ⟨second.name.trans first.name, second.server.trans first.server, fun key isKey =>
    (second.verbatim key isKey).trans (first.verbatim key isKey)⟩

theorem field_set (k : KeyFile) (path : CString) (vpn : TVpn) {key : ConfigKey}
    (isKey : key ∈ verbatimKeys) : field (k.set path vpn) key = field vpn key := by
  have noPath : key ∉ pathKeys ∧ key ≠ .serverCert := by
    revert isKey
    cases key <;> decide
  cases k <;> cases key <;> first | rfl | exact absurd (by decide) noPath.1 | exact absurd rfl noPath.2

theorem writes_configDir (tidy : Tidy home t) (proper : ProperName name) :
    Writes home name t (makeDirPath (configDirText home.text (some name)) t) :=
  tidy.makeDirPath (splitOn_configDirText home proper) (configDir_plain home proper)
    (namesIn_configDir home proper)

theorem writes_fileCopy (tidy : Tidy home t) (isDir : t.isDir (home.configDir name) = true)
    (proper : ProperName name) (k : KeyFile) (src : CString) :
    Writes home name t (around.fileCopy src (keyPath home.text (some name) k) t) := by
  unfold Surroundings.fileCopy
  rcases around.streamRead src t with _ | text
  · exact .refl tidy isDir
  rcases opens : around.opened t (keyPath home.text (some name) k) with _ | p
  · exact .refl tidy isDir
  · have placed := place_of_opened (filePath_keyPath around home name k) opens
    rw [place_inside (splitOn_keyPath home proper k) (configDir_plain home proper)
      (namesIn_configDir home proper) (keyPath_text home name k ▸ text_head? home _) tidy isDir
      proper (ending_of_key k)] at placed
    obtain rfl := Option.some.inj placed
    exact tidy.put isDir proper (ending_of_key k) _

theorem copyKeyFile_writes (homed : around.currUserHomeDir = home.text) {state : Settings × Disk}
    (named : state.1.vpn.name = some name) (proper : ProperName name) (tidy : Tidy home state.2)
    (isDir : state.2.isDir (home.configDir name) = true) (k : KeyFile) :
    Writes home name state.2 (copyKeyFile around k state).2 ∧
      SameFields state.1 (copyKeyFile around k state).1 := by
  simp only [copyKeyFile, homed, named]
  split
  · refine ⟨writes_fileCopy tidy isDir proper k _, ?_⟩
    exact ⟨k.set_name _ _, by cases k <;> rfl, fun key isKey => field_set k _ _ isKey⟩
  · exact ⟨.refl tidy isDir, .refl state.1⟩

theorem addConfig_writes (homed : around.currUserHomeDir = home.text)
    (named : s.vpn.name = some name) (proper : ProperName name) (tidy : Tidy home t) :
    ∃ u, Writes home name t u ∧ SameFields s (addConfig around s t).1 ∧
      (addConfig around s t).2 = saveConfig around (addConfig around s t).1 u := by
  have start : Writes home name t
      (makeDirPath (configDirText around.currUserHomeDir s.vpn.name) t) := by
    rw [homed, named]
    exact writes_configDir tidy proper
  unfold addConfig
  dsimp only
  generalize makeDirPath (configDirText around.currUserHomeDir s.vpn.name) t = first at start
  have cert := @copyKeyFile_writes around home name homed (s, first) named proper start.tidy
    start.isDir .clientCert
  generalize copyKeyFile around .clientCert (s, first) = afterCert at cert
  have key := copyKeyFile_writes homed (cert.2.name.trans named) proper cert.1.tidy cert.1.isDir
    .clientKey
  generalize copyKeyFile around .clientKey afterCert = afterKey at key
  have verify := copyKeyFile_writes homed (key.2.name.trans (cert.2.name.trans named)) proper
    key.1.tidy key.1.isDir .verifyCert
  exact ⟨_, start.trans (cert.1.trans (key.1.trans verify.1)),
    cert.2.trans (key.2.trans verify.2), rfl⟩

/-- `WriteConfig` leaves exactly its text. -/
theorem saveConfig_writes (homed : around.currUserHomeDir = home.text)
    (named : s.vpn.name = some name) (proper : ProperName name) (tidy : Tidy home t)
    (storable : Storable around home name s) :
    Writes home name t (saveConfig around s t) ∧
      (saveConfig around s t).entry (home.configFile name) =
        some (.file (writeConfig home.text s)) := by
  have plain := doubledDir_plain home proper
  have made := tidy.makeDirPath (splitOn_configPath home proper) plain.1 plain.2
  have placed : around.place (makeDirPath (configPath home.text (some name)) t)
      (configPath home.text (some name)) = some (home.configFile name) :=
    place_inside (splitOn_configPath home proper) plain.1 plain.2
      (configPath_text home name ▸ text_head? home _) made.tidy made.isDir proper conf_ending
  have opens : around.opened (makeDirPath (configPath home.text (some name)) t)
      (configPath home.text (some name)) = some (home.configFile name) := by
    have nonempty : configPath home.text (some name) ≠ [] := by
      intro empty
      have absolute : (configPath home.text (some name)).head? = some '/' :=
        configPath_text home name ▸ text_head? home _
      rw [empty] at absolute
      cases absolute
    rw [Surroundings.opened, if_pos ⟨nonempty, storable.written⟩, filePath_configPath, placed,
      Option.filter_some, storable.allowed]
    rfl
  simp only [saveConfig, homed, named, Surroundings.streamWrite, opens, storable.fits]
  have put := made.tidy.put made.isDir proper conf_ending (writeConfig home.text s)
  refine ⟨made.trans put, ?_⟩
  exact (made.tidy.vacant made.isDir proper conf_ending).entry_put _ |>.trans (if_pos rfl)

end Saving

structure Represents (home : HomeDir) (store : CString → Option Settings) (t : Disk) : Prop where
  tidy : Tidy home t
  saved : ∀ name s, store name = some s →
    t.entry (home.configFile name) = some (.file (writeConfig home.text s))
  names : ∀ name, (t.entry (home.configDir name)).isSome = true → (store name).isSome = true

/-- A command on the saved configurations, with settings that are written as they
are. -/
structure StoreCommand (s : Settings) (name server : CString) : Prop where
  action : s.vpn.action = .add ∨ s.vpn.action = .config ∨ s.vpn.action = .delete
  named : s.vpn.name = some name
  stored : StoredName name
  serves : s.vpn.server = some server
  clean : Clean server
  fields : ∀ key ∈ verbatimKeys, ∀ value, field s.vpn key = some value → Clean value

section Map

variable {around : Surroundings} {home : HomeDir} {name server : CString} {s saved : Settings}
  {store : CString → Option Settings} {t u : Disk}

theorem Represents.save (represents : Represents home store t) (writes : Writes home name t u)
    (written : u.entry (home.configFile name) = some (.file (writeConfig home.text s))) :
    Represents home (fun other => if other = name then some s else store other) u := by
  refine ⟨writes.tidy, fun other saved isSaved => ?_, fun other present => ?_⟩
  · split at isSaved
    next same =>
      obtain rfl := Option.some.inj isSaved
      rw [same, written]
    next different =>
      exact (writes.elsewhere other _ different).trans (represents.saved other saved isSaved)
  · split
    · rfl
    next different =>
      have there := writes.elsewhere other [] different
      rw [List.append_nil] at there
      exact represents.names other (there ▸ present)

theorem literal_store (homePlain : ∀ c ∈ home.names, ∀ ch ∈ c, isPatternPlain ch = true) :
    ∀ c ∈ home.store, LiteralName c := by
  intro c inStore
  refine ⟨storeNames_proper home c inStore, ?_⟩
  rcases List.mem_append.mp inStore with inHome | behind
  · exact homePlain c inHome
  · rcases List.mem_pair.mp behind with rfl | rfl
    · exact List.all_eq_true.mp (by decide)
    · exact List.all_eq_true.mp (by decide)

theorem literal_configDir (homePlain : ∀ c ∈ home.names, ∀ ch ∈ c, isPatternPlain ch = true)
    (literal : LiteralName name) : ∀ c ∈ home.configDir name, LiteralName c := by
  intro c member
  rcases List.mem_append.mp member with inStore | last
  · exact literal_store homePlain c inStore
  · exact List.mem_singleton.mp last ▸ literal

theorem visible_file {ending : CString} (stored : StoredName name) : Visible (name ++ ending) := by
  obtain ⟨c, rest, rfl⟩ := List.exists_cons_of_ne_nil stored.literal.proper.nonempty
  exact stored.visible

/-- `delete` takes away the files of its name. -/
theorem Represents.delete (represents : Represents home store t)
    (homePlain : ∀ c ∈ home.names, ∀ ch ∈ c, isPatternPlain ch = true) (stored : StoredName name)
    (fuel : Nat) :
    Represents home (fun other => if other = name then none else store other)
      (deleteConfig (fuel + 1) home.text (some name) t) := by
  have literal := literal_configDir homePlain stored.literal
  have tidy := represents.tidy
  have whole : deletedPath home name = dirName (home.configDir name) := by
    rw [deletedPath, splitOn_proper stored.literal.proper, dirName, HomeDir.configDir]
  have outside : ∀ q, ¬ home.configDir name <+: q →
      (deleteConfig (fuel + 1) home.text (some name) t).entry q = t.entry q :=
    fun q => entry_deleteConfig homePlain stored.literal.proper stored.literal.plain
      (fun _ => tidy.noDir name) _
  have shrinks : Shrinks t (deleteConfig (fuel + 1) home.text (some name) t) := by
    rw [deleteConfig_eq]
    exact shrinks_unMount _ _ _ _ t
  have gone : (deleteConfig (fuel + 1) home.text (some name) t).entry (home.configDir name) =
      none := by
    rw [deleteConfig_eq, whole]
    refine entry_unMount_flat (by simp [HomeDir.configDir]) literal (tidy.dirs name) ?_ fuel
    intro file e found
    obtain ⟨ending, -, content, isFile, rfl⟩ := tidy.files name [file] e (by simp) found
    obtain rfl := (List.cons.inj isFile).1
    exact ⟨visible_file stored, content, rfl⟩
  generalize deleteConfig (fuel + 1) home.text (some name) t = u at outside shrinks gone
  have kept : ∀ p, p <+: home.store → u.entry p = t.entry p := by
    intro p inStore
    refine outside p fun inside => ?_
    have short := (inside.trans inStore).length_le
    simp only [HomeDir.configDir, List.length_append, List.length_singleton] at short
    omega
  refine ⟨⟨fun p inStore => ?_, fun other content found => ?_, fun other rest e nonempty found => ?_⟩,
    fun other saved isSaved => ?_, fun other present => ?_⟩
  · rw [FileTree.isDir, kept p inStore]
    exact tidy.way p inStore
  · exact tidy.dirs other content (shrinks _ _ found)
  · exact tidy.files other rest e nonempty (shrinks _ _ found)
  · split at isSaved
    · cases isSaved
    next different =>
      rw [outside]
      · exact represents.saved other saved isSaved
      · rintro ⟨behind, same⟩
        exact different (configDir_append_inj.mp same).1.symm
  · obtain ⟨e, found⟩ := Option.isSome_iff_exists.mp present
    have different : other ≠ name := by
      rintro rfl
      rw [gone] at found
      cases found
    rw [if_neg different]
    exact represents.names other (by rw [shrinks _ _ found]; rfl)

end Map

/-! ## What `list` prints -/

structure Listable (around : Surroundings) (home : HomeDir) (name : CString) (s : Settings) :
    Prop where
  stored : StoredName name
  storable : Storable around home name s
  served : ∃ server, s.vpn.server = some server ∧ Clean server
  fields : ∀ key ∈ verbatimKeys, ∀ value, field s.vpn key = some value → Clean value

def serverOf (store : CString → Option Settings) (name : CString) : CString :=
  copyStr ((store name).bind fun s => s.vpn.server)

def ListsAll (store : CString → Option Settings) (printed : CString) : Prop :=
  ∃ names : List CString, names.Nodup ∧ (∀ name, name ∈ names ↔ (store name).isSome = true) ∧
    streamReadLines printed = names.map fun name => listLine name (serverOf store name)

section Listing

variable {around : Surroundings} {home : HomeDir} {name : CString} {s : Settings}
  {store : CString → Option Settings} {t : Disk}

def confPath (home : HomeDir) (name : CString) : List CString :=
  [] :: (home.store ++ [name, name ++ ".conf".toList])

theorem conf_of_suffix {ending : CString} (ends : ending ∈ configEndings)
    (suffix : ".conf".toList <:+ name ++ ending) : ending = ".conf".toList := by
  have last : (name ++ ending).getLast? = some 'f' := by
    obtain ⟨front, whole⟩ := suffix
    rw [← whole, List.getLast?_append]
    rfl
  simp only [configEndings, List.mem_cons, List.not_mem_nil, or_false] at ends
  rcases ends with rfl | rfl | rfl | rfl
  · rfl
  all_goals
    rw [List.getLast?_append] at last
    exact absurd (Option.some.inj last) (by decide)

/-- The pattern of `ListConfigs` stands for the configurations. -/
theorem mem_glob_configs (represents : Represents home store t)
    (listable : ∀ name s, store name = some s → Listable around home name s)
    (homePlain : ∀ c ∈ home.names, ∀ ch ∈ c, isPatternPlain ch = true) (path : List CString) :
    path ∈ glob t ([] :: home.store ++ ["*".toList, "*.conf".toList]) ↔
      ∃ name, (store name).isSome = true ∧ path = confPath home name := by
  have literal := literal_store homePlain
  have star : ∀ c ∈ ([] : CString), isPatternPlain c = true := fun _ member =>
    absurd member List.not_mem_nil
  have plain : ∀ c ∈ ".conf".toList, isPatternPlain c = true := List.all_eq_true.mp (by decide)
  rw [mem_glob, List.cons_append, walks_empty_iff]
  constructor
  · rintro ⟨-, tail, rfl, walks⟩
    obtain ⟨behind, rfl, inStore⟩ := walks.literal literal
    obtain ⟨-, name, rest, rfl, -, -, present, inDir⟩ := (walks_star_iff star behind).mp inStore
    obtain ⟨-, file, last, rfl, -, suffix, found, done⟩ := (walks_star_iff plain rest).mp inDir
    obtain rfl : last = [] := done
    obtain ⟨e, isEntry⟩ := Option.isSome_iff_exists.mp found
    obtain ⟨ending, ends, content, isFile, -⟩ :=
      represents.tidy.files name [file] e (by simp) isEntry
    obtain rfl := (List.cons.inj isFile).1
    obtain rfl := conf_of_suffix ends suffix
    exact ⟨name, represents.names name present, rfl⟩
  · rintro ⟨name, isSaved, rfl⟩
    obtain ⟨s, isSaved⟩ := Option.isSome_iff_exists.mp isSaved
    have stored := (listable name s isSaved).stored
    have found := represents.saved name s isSaved
    have inDir := FileTree.entry_parent found
    rw [HomeDir.configFile, List.dropLast_concat] at inDir
    have inStore : t.isDir home.store = true :=
      FileTree.isDir_of_prefix (List.prefix_append ..) inDir
    refine ⟨FileTree.isDir_iff.mpr FileTree.entry_root, _, rfl, ?_⟩
    rw [walks_literal_iff literal inStore]
    refine ⟨_, rfl, (walks_star_iff star _).mpr ⟨inStore, name, _, rfl, stored.visible,
      List.nil_suffix, ?_, ?_⟩⟩
    · show (t.entry (home.configDir name)).isSome = true
      rw [FileTree.isDir_iff.mp inDir]
      rfl
    · refine (walks_star_iff plain _).mpr ⟨inDir, _, [], rfl, visible_file stored,
        List.suffix_append .., ?_, rfl⟩
      show (t.entry (home.configFile name)).isSome = true
      rw [found]
      rfl

theorem pathText_confPath (home : HomeDir) (proper : ProperName name) :
    pathText (confPath home name) = readPath home.text (some name) := by
  have split := splitOn_readPath home proper
  have whole : [] :: (home.store ++ [name]) ++ [name ++ ".conf".toList] = confPath home name := by
    simp [confPath]
  rw [whole] at split
  rw [← split, pathText, List.intercalate_splitOn]

theorem name_of_confPath (home : HomeDir) (proper : ProperName name) :
    strRTruncChar (getBasename (pathText (confPath home name))) '.' = name := by
  have front : readPath home.text (some name) =
      (home.text ++ ("/.config/vpn_mgr/".toList ++ name)) ++ '/' :: (name ++ ".conf".toList) := by
    rw [readPath_text, List.append_assoc, List.append_assoc]
  have file := proper_file proper conf_ending
  rw [pathText_confPath home proper, front, getBasename_append _ file.nonempty file.noSlash]
  exact strRTruncChar_append name (by decide)

theorem streamRead_config (represents : Represents home store t) (isSaved : store name = some s)
    (listable : Listable around home name s) :
    around.streamRead (readPath home.text (some name)) t = some (writeConfig home.text s) := by
  have proper := listable.stored.literal.proper
  have absolute : (readPath home.text (some name)).head? = some '/' :=
    readPath_text home name ▸ text_head? home _
  have nonempty : readPath home.text (some name) ≠ [] := by
    intro empty
    rw [empty] at absolute
    cases absolute
  have plain : around.filePath (readPath home.text (some name)) = readPath home.text (some name) := by
    obtain ⟨rest, same⟩ := List.head?_eq_some_iff.mp absolute
    rw [same, filePath_absolute]
  have found := represents.saved name s isSaved
  have leads : around.locate t (readPath home.text (some name)) = some (home.configFile name) := by
    rw [Surroundings.locate, Surroundings.start, if_pos absolute, splitOn_readPath home proper]
    refine resolve_file (fun c member => ?_) ?_ (by rw [← HomeDir.configFile, found]; rfl)
    · rcases List.mem_cons.mp member with rfl | member
      · exact .inl rfl
      · exact configDir_plain home proper c member
    · exact (List.filter_cons_of_neg (by simp)).trans (namesIn_configDir home proper)
  rw [Surroundings.streamRead, if_neg nonempty, if_pos listable.storable.read, plain,
    Surroundings.contents, leads, Option.bind_some, readFile, found]
  rfl

/-- A round of the loop prints the name and its server. -/
theorem listConfig_saved (represents : Represents home store t) (isSaved : store name = some s)
    (listable : Listable around home name s) (homed : around.currUserHomeDir = home.text)
    (flags : FlagWord) :
    ∃ listed, listConfig around (pathText (confPath home name)) flags t = some listed ∧
      listed.vpn.name = some name ∧ copyStr listed.vpn.server = serverOf store name := by
  obtain ⟨vpn, created, named⟩ : ∃ vpn, vpnCtxCreate [] (some name) (some []) = some vpn ∧
      vpn.name = some name := ⟨_, rfl, rfl⟩
  obtain ⟨server, isServer, clean⟩ := listable.served
  have read := streamRead_config represents isSaved listable
  have served := server_readConfig_writeConfig home.text s ⟨vpn, flags⟩ isServer clean
    listable.fields
  refine ⟨readConfig home.text (some (writeConfig home.text s)) ⟨vpn, flags⟩, ?_, ?_, ?_⟩
  · rw [listConfig, name_of_confPath home listable.stored.literal.proper, created, Option.map_some,
      named, homed, read]
  · rw [name_readConfig, named]
  · rw [served, serverOf, isSaved, Option.bind_some, isServer]
    rcases listable.storable.ownServer with none | own
    · rw [none]
      rfl
    · rw [own, isServer]
      rfl

theorem listConfigsFrom_saved (represents : Represents home store t)
    (listable : ∀ name s, store name = some s → Listable around home name s)
    (homed : around.currUserHomeDir = home.text) {names : List CString}
    (saved : ∀ name ∈ names, (store name).isSome = true) (flags : FlagWord) :
    listConfigsFrom around t flags (names.map (confPath home)) =
      (names.map fun name => listLine name (serverOf store name)).flatten := by
  induction names generalizing flags with
  | nil => rfl
  | cons name names inductionHypothesis =>
      obtain ⟨s, isSaved⟩ := Option.isSome_iff_exists.mp (saved name (by simp))
      obtain ⟨listed, run, named, served⟩ :=
        listConfig_saved represents isSaved (listable name s isSaved) homed flags
      have later := inductionHypothesis (fun other member => saved other (by simp [member]))
        listed.globalFlags
      rw [List.map_cons, listConfigsFrom, run, List.map_cons, List.flatten_cons, ← later]
      simp only [named, served, copyStr_some]

theorem streamReadLines_flatten {lines : List CString} (oneLine : ∀ line ∈ lines, '\n' ∉ line) :
    streamReadLines (lines.map (· ++ ['\n'])).flatten = lines.map (· ++ ['\n']) := by
  induction lines with
  | nil => rfl
  | cons line lines inductionHypothesis =>
      rw [List.map_cons, List.flatten_cons, List.append_assoc, List.singleton_append,
        streamReadLines_newline _ _ (oneLine line (by simp)),
        inductionHypothesis fun other member => oneLine other (by simp [member])]

theorem Represents.lists (represents : Represents home store t)
    (listable : ∀ name s, store name = some s → Listable around home name s)
    (homed : around.currUserHomeDir = home.text)
    (homePlain : ∀ c ∈ home.names, ∀ ch ∈ c, isPatternPlain ch = true) (flags : FlagWord) :
    ListsAll store (listConfigs around flags t) := by
  have configs := mem_glob_configs represents listable homePlain
  have pattern : (mCopyStr [some around.currUserHomeDir,
      some "/.config/vpn_mgr/*/*.conf".toList]).splitOn '/' =
        [] :: home.store ++ ["*".toList, "*.conf".toList] := by
    have split := splitOn_store home "*/*.conf".toList
    rw [homed, mCopyStr_some, mCopyStr_some, mCopyStr_nil, List.append_nil]
    exact split
  have nodup := glob_nodup t ([] :: home.store ++ ["*".toList, "*.conf".toList])
  rw [listConfigs, pattern]
  generalize glob t ([] :: home.store ++ ["*".toList, "*.conf".toList]) = paths at configs nodup
  let nameOf (path : List CString) : CString := strRTruncChar (getBasename (pathText path)) '.'
  have recovered : ∀ name, (store name).isSome = true → nameOf (confPath home name) = name := by
    intro name isSaved
    obtain ⟨s, isSaved⟩ := Option.isSome_iff_exists.mp isSaved
    exact name_of_confPath home (listable name s isSaved).stored.literal.proper
  have whole : (paths.map nameOf).map (confPath home) = paths := by
    rw [List.map_map]
    refine List.map_congr_left (fun path member => ?_) |>.trans (List.map_id paths)
    obtain ⟨name, isSaved, rfl⟩ := (configs path).mp member
    exact congrArg (confPath home) (recovered name isSaved)
  have names : ∀ name, name ∈ paths.map nameOf ↔ (store name).isSome = true := by
    intro name
    constructor
    · intro member
      obtain ⟨path, listed, rfl⟩ := List.mem_map.mp member
      obtain ⟨name, isSaved, rfl⟩ := (configs path).mp listed
      rwa [recovered name isSaved]
    · intro isSaved
      refine List.mem_map.mpr ⟨confPath home name, (configs _).mpr ⟨name, isSaved, rfl⟩, ?_⟩
      exact recovered name isSaved
  have printed := listConfigsFrom_saved represents listable homed (fun name => (names name).mp) flags
  rw [whole] at printed
  refine ⟨paths.map nameOf, List.Nodup.of_map (confPath home) (by rwa [whole]), names, ?_⟩
  have lines : ∀ names : List CString,
      (names.map fun name => listLine name (serverOf store name)) =
        (names.map fun name => name ++ ' ' :: serverOf store name).map (· ++ ['\n']) := by
    intro names
    rw [List.map_map]
    exact List.map_congr_left fun name _ => by simp [listLine, Function.comp]
  rw [printed, lines]
  refine streamReadLines_flatten fun line member => ?_
  obtain ⟨name, listed, rfl⟩ := List.mem_map.mp member
  obtain ⟨s, isSaved⟩ := Option.isSome_iff_exists.mp ((names name).mp listed)
  have there := listable name s isSaved
  obtain ⟨server, isServer, clean⟩ := there.served
  have same : serverOf store name = server := by
    rw [serverOf, isSaved, Option.bind_some, isServer]
    rfl
  rw [same, List.mem_append, List.mem_cons]
  rintro (inName | space | inServer)
  · exact there.storable.oneLine inName
  · exact absurd space (by decide)
  · exact not_newline_mem_of_clean clean inServer

end Listing

/-! ## Runs -/

/-- Nothing has been saved, and nothing is in the way. -/
structure EmptyStore (home : HomeDir) (t : Disk) : Prop where
  way : ∀ p, p <+: home.store → t.entry p = none ∨ t.isDir p = true
  empty : ∀ name, t.entry (home.configDir name) = none

/-- What the command saves, if anything, is found again. -/
def Keeps (around : Surroundings) (home : HomeDir) (s : Settings) (t : Disk) : Prop :=
  ∀ name saved, s.vpn.name = some name → contextSaved around s t = some saved →
    Storable around home name saved

section Commands

variable {around : Surroundings} {home : HomeDir} {name server : CString} {s : Settings}
  {store : CString → Option Settings} {t : Disk}

theorem EmptyStore.represents (empty : EmptyStore home t) :
    Represents home (fun _ => none) t := by
  refine ⟨⟨empty.way, fun name content found => ?_, fun name rest e nonempty found => ?_⟩,
    fun _ _ isSaved => (by cases isSaved), fun name present => ?_⟩
  · rw [empty.empty] at found
    cases found
  · have parent := FileTree.entry_parent found
    rw [List.dropLast_append_of_ne_nil nonempty] at parent
    have isDir := FileTree.isDir_of_prefix (List.prefix_append _ _) parent
    rw [FileTree.isDir_iff, empty.empty] at isDir
    cases isDir
  · rw [empty.empty] at present
    cases present

theorem contextSaved_same (homed : around.currUserHomeDir = home.text)
    (command : StoreCommand s name server) (tidy : Tidy home t) {saved : Settings}
    (isSaved : contextSaved around s t = some saved) : SameFields s saved := by
  unfold contextSaved at isSaved
  split at isSaved
  · exact Option.some.inj isSaved ▸ .refl s
  · obtain ⟨-, -, same, -⟩ := addConfig_writes homed command.named
      command.stored.literal.proper tidy
    exact Option.some.inj isSaved ▸ same
  · cases isSaved

/-- One command on the map. -/
theorem Represents.perform (represents : Represents home store t)
    (homed : around.currUserHomeDir = home.text)
    (homePlain : ∀ c ∈ home.names, ∀ ch ∈ c, isPatternPlain ch = true)
    (command : StoreCommand s name server) (keeps : Keeps around home s t) (fuel : Nat) :
    Represents home (fun other => if other = name then contextSaved around s t else store other)
      (perform around (fuel + 1) s t) := by
  have proper := command.stored.literal.proper
  rcases command.action with add | config | delete
  · obtain ⟨u, writes, same, saves⟩ := addConfig_writes homed command.named proper represents.tidy
    have isSaved : contextSaved around s t = some (addConfig around s t).1 := by
      rw [contextSaved, add]
    have storable := keeps name _ command.named isSaved
    have written := saveConfig_writes homed (same.name.trans command.named) proper writes.tidy
      storable
    rw [isSaved, Config.perform, add]
    dsimp only
    rw [saves]
    exact represents.save (writes.trans written.1) written.2
  · have isSaved : contextSaved around s t = some s := by rw [contextSaved, config]
    have written := saveConfig_writes homed command.named proper represents.tidy
      (keeps name s command.named isSaved)
    rw [isSaved, Config.perform, config]
    exact represents.save written.1 written.2
  · have nothing : contextSaved around s t = none := by rw [contextSaved, delete]
    rw [nothing, Config.perform, delete, homed, command.named]
    exact represents.delete homePlain command.stored fuel

theorem storeAfter_concat (fuel : Nat) (commands : List Settings) :
    storeAfter around fuel t (commands ++ [s]) =
      perform around fuel s (storeAfter around fuel t commands) := by
  rw [storeAfter, List.foldl_append]
  rfl

theorem lastSaved_concat (fuel : Nat) (commands : List Settings) (name : CString) :
    lastSaved around fuel t (commands ++ [s]) name =
      if s.vpn.name = some name then contextSaved around s (storeAfter around fuel t commands)
      else lastSaved around fuel t commands name := by
  have tree : ∀ commands : List Settings,
      (commands.foldl (fun (state : Disk × Option Settings) s =>
        (Config.perform around fuel s state.1,
          if s.vpn.name = some name then contextSaved around s state.1 else state.2))
        (t, none)).1 = storeAfter around fuel t commands := by
    intro commands
    induction commands using List.reverseRecOn with
    | nil => rfl
    | append_singleton commands s inductionHypothesis =>
        rw [List.foldl_append, List.foldl_cons, List.foldl_nil, inductionHypothesis,
          storeAfter_concat]
  rw [lastSaved, List.foldl_append, List.foldl_cons, List.foldl_nil]
  dsimp only
  rw [tree]
  rfl

theorem storeAfter_represents (homed : around.currUserHomeDir = home.text)
    (homePlain : ∀ c ∈ home.names, ∀ ch ∈ c, isPatternPlain ch = true) (fuel : Nat)
    (empty : EmptyStore home t) (commands : List Settings)
    (stored : ∀ s ∈ commands, ∃ name server, StoreCommand s name server)
    (keeps : ∀ before s later, commands = before ++ s :: later →
      Keeps around home s (storeAfter around (fuel + 1) t before)) :
    Represents home (lastSaved around (fuel + 1) t commands)
        (storeAfter around (fuel + 1) t commands) ∧
      ∀ name s, lastSaved around (fuel + 1) t commands name = some s →
        Listable around home name s := by
  induction commands using List.reverseRecOn with
  | nil => exact ⟨empty.represents, fun _ _ isSaved => by cases isSaved⟩
  | append_singleton commands s inductionHypothesis =>
      obtain ⟨represents, listable⟩ := inductionHypothesis
        (fun other member => stored other (List.mem_append_left _ member))
        (fun before other later split => keeps before other (later ++ [s]) (by simp [split]))
      obtain ⟨name, server, command⟩ := stored s (by simp)
      have kept := keeps commands s [] rfl
      have store : lastSaved around (fuel + 1) t (commands ++ [s]) = fun other =>
          if other = name then contextSaved around s (storeAfter around (fuel + 1) t commands)
          else lastSaved around (fuel + 1) t commands other := by
        funext other
        rw [lastSaved_concat]
        refine if_congr ?_ rfl rfl
        rw [command.named, Option.some.injEq]
        exact eq_comm
      rw [store, storeAfter_concat]
      refine ⟨represents.perform homed homePlain command kept fuel, fun other saved isSaved => ?_⟩
      dsimp only at isSaved
      split at isSaved
      next same =>
        have settings := contextSaved_same homed command represents.tidy isSaved
        rw [same]
        exact ⟨command.stored, kept name saved command.named isSaved,
          ⟨server, settings.server.trans command.serves, command.clean⟩, fun key isKey value isValue =>
            command.fields key isKey value (settings.verbatim key isKey ▸ isValue)⟩
      next => exact listable other saved isSaved

end Commands

/-- Over any commands on a store that was empty, each of which saves what can be
found again: `list` prints one line for each name whose last command was not
`delete`, with the server of that command, and the file of the name is the text
that the command wrote. -/
theorem listConfigs_lists_lastSaved (around : Surroundings) (home : HomeDir)
    (homed : around.currUserHomeDir = home.text)
    (homePlain : ∀ c ∈ home.names, ∀ ch ∈ c, isPatternPlain ch = true) (fuel : Nat) (t : Disk)
    (empty : EmptyStore home t) (commands : List Settings)
    (stored : ∀ s ∈ commands, ∃ name server, StoreCommand s name server)
    (keeps : ∀ before s later, commands = before ++ s :: later →
      Keeps around home s (storeAfter around (fuel + 1) t before)) (flags : FlagWord) :
    ListsAll (lastSaved around (fuel + 1) t commands)
        (listConfigs around flags (storeAfter around (fuel + 1) t commands)) ∧
      ∀ name s, lastSaved around (fuel + 1) t commands name = some s →
        around.streamRead (readPath home.text (some name))
          (storeAfter around (fuel + 1) t commands) = some (writeConfig home.text s) := by
  obtain ⟨represents, listable⟩ :=
    storeAfter_represents homed homePlain fuel empty commands stored keeps
  exact ⟨represents.lists listable homed homePlain flags, fun name s isSaved =>
    streamRead_config represents isSaved (listable name s isSaved)⟩

def alsCommand (words : List String) : Settings :=
  (Options.parseCommandLine true (words.map String.toList)).getD ⟨{}, 0⟩

def alsHistory : List Settings :=
  [alsCommand ["add", "w", "wg:10.1.1.1"], alsCommand ["config", "w", "ssh:host"],
    alsCommand ["delete", "w"]]

theorem storeCommand_of_checked {s : Settings} {name server : CString}
    (checked : (s.vpn.action = .add ∨ s.vpn.action = .config ∨ s.vpn.action = .delete) ∧
      s.vpn.name = some name ∧ ProperName name ∧ name.all isPatternPlain = true ∧
      name.head? ≠ some '.' ∧ s.vpn.server = some server ∧ Clean server ∧
      (verbatimKeys.all fun key => (field s.vpn key).all (·.all isPlain)) = true) :
    StoreCommand s name server := by
  obtain ⟨action, named, proper, plain, visible, serves, clean, fields⟩ := checked
  refine ⟨action, named, ⟨⟨proper, List.all_eq_true.mp plain⟩, visible⟩, serves, clean, ?_⟩
  intro key isKey value isValue
  have values := List.all_eq_true.mp fields key isKey
  rw [isValue] at values
  exact List.all_eq_true.mp values

theorem listConfigs_alsHistory :
    ListsAll (lastSaved alsWorld 1 FileTree.empty alsHistory)
        (listConfigs alsWorld 0 (storeAfter alsWorld 1 FileTree.empty alsHistory)) ∧
      ∀ name s, lastSaved alsWorld 1 FileTree.empty alsHistory name = some s →
        alsWorld.streamRead (readPath alsRoot.text (some name))
          (storeAfter alsWorld 1 FileTree.empty alsHistory) =
            some (writeConfig alsRoot.text s) := by
  refine listConfigs_lists_lastSaved alsWorld alsRoot rfl ?_ 0 FileTree.empty ?_ alsHistory ?_ ?_ 0
  · intro c member
    obtain rfl := List.mem_singleton.mp member
    exact List.all_eq_true.mp (by decide)
  · refine ⟨fun p _ => ?_, fun name => ?_⟩
    · by_cases root : p = []
      · exact .inr (FileTree.isDir_iff.mpr (root ▸ FileTree.entry_root))
      · left
        rw [FileTree.entry, if_neg root]
        rfl
    · rw [FileTree.entry, if_neg (by simp [HomeDir.configDir])]
      rfl
  · intro s member
    simp only [alsHistory, List.mem_cons, List.not_mem_nil, or_false] at member
    rcases member with rfl | rfl | rfl
    · exact ⟨"w".toList, "wg:10.1.1.1".toList, storeCommand_of_checked (by decide)⟩
    · exact ⟨"w".toList, "ssh:host".toList, storeCommand_of_checked (by decide)⟩
    · exact ⟨"w".toList, [], storeCommand_of_checked (by decide)⟩
  · intro before s later split name saved named isSaved
    rcases before with _ | ⟨a, _ | ⟨b, _ | ⟨c, _ | ⟨d, before⟩⟩⟩⟩
    · obtain rfl := (List.cons.inj split).1
      obtain rfl := Option.some.inj named
      obtain rfl := Option.some.inj isSaved
      exact ⟨by decide, by decide, rfl, rfl, by decide, .inl (by decide +kernel)⟩
    · obtain rfl := (List.cons.inj (List.cons.inj split).2).1
      obtain rfl := Option.some.inj named
      obtain rfl := Option.some.inj isSaved
      exact ⟨by decide, by decide, rfl, rfl, by decide, .inl (by decide +kernel)⟩
    · obtain rfl := (List.cons.inj (List.cons.inj (List.cons.inj split).2).2).1
      cases isSaved
    all_goals cases split

def scriptCommand : Settings := alsCommand ["add", "a Server=x", "wg:10.1.1.1"]

/-- `list` shows a path of the default scripts for the server. -/
theorem listConfigs_shows_script :
    ¬ ∀ commands : List Settings,
      (∀ s ∈ commands, ∃ name server, StoreCommand s name server) →
        ListsAll (lastSaved alsWorld 1 FileTree.empty commands)
          (listConfigs alsWorld 0 (storeAfter alsWorld 1 FileTree.empty commands)) := by
  intro claimed
  have command : StoreCommand scriptCommand "a Server=x".toList "wg:10.1.1.1".toList :=
    storeCommand_of_checked (by decide)
  obtain ⟨names, -, saved, printed⟩ := claimed [scriptCommand] fun s member =>
    ⟨_, _, List.mem_singleton.mp member ▸ command⟩
  have isSaved : "a Server=x".toList ∈ names := (saved _).mpr (by decide +kernel)
  have listed := List.mem_map_of_mem (f := fun name => listLine name
    (serverOf (lastSaved alsWorld 1 FileTree.empty [scriptCommand]) name)) isSaved
  rw [← printed] at listed
  revert listed
  decide +kernel

end VpnMgr.Config
