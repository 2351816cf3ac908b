import VpnMgr.Config.Store
import VpnMgr.Config.Records
import VpnMgr.LibUseful.FileAccess

/-!
# `add` and the key files

`AddConfig` makes private copies of the certificate, the key and the server's
certificate one after the other, and a source may be one of the copies.
-/

namespace VpnMgr.Config

open Machine Text CString LibUseful

/-- The settings whose files are copied. -/
inductive KeyFile where
  | clientCert
  | clientKey
  | verifyCert
  deriving DecidableEq

namespace KeyFile

def get : KeyFile → TVpn → CPtr
  | clientCert, vpn => vpn.clientCert
  | clientKey, vpn => vpn.clientKey
  | verifyCert, vpn => vpn.verifyCert

def set (path : CString) : KeyFile → TVpn → TVpn
  | clientCert, vpn => { vpn with clientCert := some path }
  | clientKey, vpn => { vpn with clientKey := some path }
  | verifyCert, vpn => { vpn with verifyCert := some path }

def extension : KeyFile → CString
  | clientCert => ".crt".toList
  | clientKey => ".key".toList
  | verifyCert => ".server".toList

/-- The setting's name in a configuration. -/
def text : KeyFile → CString
  | clientCert => "ClientCert".toList
  | clientKey => "ClientKey".toList
  | verifyCert => "VerifyCert".toList

@[simp]
theorem set_name (k : KeyFile) (path : CString) (vpn : TVpn) : (k.set path vpn).name = vpn.name := by
  cases k <;> rfl

theorem get_set_other {j k : KeyFile} (different : j ≠ k) (path : CString) (vpn : TVpn) :
    k.get (j.set path vpn) = k.get vpn := by
  cases j <;> cases k <;> first | rfl | exact absurd rfl different

end KeyFile

def configDirText (home : CString) (name : CPtr) : CString :=
  mCopyStr [some home, some "/.config/vpn_mgr/".toList, name, some "/".toList]

def keyPath (home : CString) (name : CPtr) (k : KeyFile) : CString :=
  mCopyStr [some (configDirText home name), name, some k.extension]

/-- The file that `WriteConfig` writes; its home directory ends in a slash. -/
def configPath (home : CString) (name : CPtr) : CString :=
  mCopyStr [some (mCopyStr [some home, some "/".toList]), some "/.config/vpn_mgr/".toList, name,
    some "/".toList, name, some ".conf".toList]

section Around

variable (around : Surroundings)

/-- `PathValid`; what is there can be read. -/
def pathValid (path : CPtr) (t : Disk) : Bool :=
  strValid path && (around.locate t (copyStr path)).isSome

/-- One of the three copies of `AddConfig`. -/
def copyKeyFile (k : KeyFile) (state : Settings × Disk) : Settings × Disk :=
  let (s, t) := state
  if pathValid around (k.get s.vpn) t then
    let path := keyPath around.currUserHomeDir s.vpn.name k
    ({ s with vpn := k.set path s.vpn }, around.fileCopy (copyStr (k.get s.vpn)) path t)
  else state

/-- `WriteConfig`, with its file. -/
def saveConfig (s : Settings) (t : Disk) : Disk :=
  let path := configPath around.currUserHomeDir s.vpn.name
  around.streamWrite path (writeConfig around.currUserHomeDir s) (makeDirPath path t)

/-- `AddConfig`. -/
def addConfig (s : Settings) (t : Disk) : Settings × Disk :=
  let t := makeDirPath (configDirText around.currUserHomeDir s.vpn.name) t
  let state := copyKeyFile around .clientCert (s, t)
  let state := copyKeyFile around .clientKey state
  let state := copyKeyFile around .verifyCert state
  (state.1, saveConfig around state.1 state.2)

/-- What is reached before one of three steps, in the order of the copies. -/
def before {σ : Type} (step : KeyFile → σ → σ) (start : σ) : KeyFile → σ
  | .clientCert => start
  | .clientKey => step .clientCert start
  | .verifyCert => step .clientKey (step .clientCert start)

def afterAll {σ : Type} (step : KeyFile → σ → σ) (start : σ) : σ :=
  step .verifyCert (before step start .verifyCert)

def startingDisk (s : Settings) (t : Disk) : Disk :=
  makeDirPath (configDirText around.currUserHomeDir s.vpn.name) t

/-- What `AddConfig` has reached before a copy. -/
def stateBefore (s : Settings) (t : Disk) (k : KeyFile) : Settings × Disk :=
  before (copyKeyFile around) (s, startingDisk around s t) k

/-- `FileCopy` can open both files. -/
def CanCopy (src dest : CString) (t : Disk) : Prop :=
  (around.streamRead src t).isSome = true ∧ (around.opened t dest).isSome = true

/-- The line that names the private copy in a configuration. -/
def keyRecord (home : CString) (name : CPtr) (k : KeyFile) : CString :=
  saveFilePath k.text (some (keyPath home name k)) (homePrefix home)

/-- The private copy has the contents its source had before, or it could not be
made and the saved configuration does not name it. -/
def Preserved (s : Settings) (t : Disk) (k : KeyFile) : Prop :=
  ∀ src content, k.get s.vpn = some src → src ≠ [] → around.contents t src = some content →
    let home := around.currUserHomeDir
    let dest := keyPath home s.vpn.name k
    let after := (addConfig around s t).2
    around.contents after dest = some content ∨
      ¬ CanCopy around src dest (stateBefore around s t k).2 ∧
        ¬ keyRecord home s.vpn.name k <:+:
          (around.contents after (configPath home s.vpn.name)).getD []

/-- The file that the private copy is written to, if it opens. -/
def copyFile (s : Settings) (t : Disk) (k : KeyFile) : Option Path :=
  around.opened (startingDisk around s t) (keyPath around.currUserHomeDir s.vpn.name k)

/-- What is read at the source once these files are written: what is in that one
of them that the source leads to, if there is one. -/
def sourceText (s : Settings) (t : Disk) (files : List (Path × CString)) (k : KeyFile) :
    Option CString :=
  match around.leadsTo files (startingDisk around s t) (copyStr (k.get s.vpn)) with
  | some file => some file.2
  | none => around.streamRead (copyStr (k.get s.vpn)) (startingDisk around s t)

/-- With the copy of a given source, if both files open: it holds what the source
held at first. -/
def intendCopy (s : Settings) (t : Disk) (k : KeyFile) (files : List (Path × CString)) :
    List (Path × CString) :=
  if strValid (k.get s.vpn) then
    match sourceText around s t files k, copyFile around s t k with
    | some _, some p => (p, (around.contents t (copyStr (k.get s.vpn))).getD []) :: files
    | _, _ => files
  else files

def intendedBefore (s : Settings) (t : Disk) (k : KeyFile) : List (Path × CString) :=
  before (intendCopy around s t) [] k

/-- The tree in which the configuration is opened, when all copies are right. -/
def intendedReady (s : Settings) (t : Disk) : Disk :=
  makeDirPath (configPath around.currUserHomeDir s.vpn.name)
    (Surroundings.withFiles (afterAll (intendCopy around s t) []) (startingDisk around s t))

def withCopy (home : CString) (k : KeyFile) (s : Settings) : Settings :=
  if strValid (k.get s.vpn) then { s with vpn := k.set (keyPath home s.vpn.name k) s.vpn } else s

def withCopies (home : CString) (s : Settings) : Settings :=
  withCopy home .verifyCert (withCopy home .clientKey (withCopy home .clientCert s))

/-- The line that names the copy does not fit into the configuration, or that
does not open and did not hold the line before. -/
def Unnamed (s : Settings) (t : Disk) (k : KeyFile) : Prop :=
  let home := around.currUserHomeDir
  let path := configPath home s.vpn.name
  let ready := intendedReady around s t
  ¬ keyRecord home s.vpn.name k <:+:
    match around.opened ready path with
    | some p => around.arrived p (writeConfig home (withCopies home s))
    | none => (around.contents ready path).getD []

/-- Where both files open: the source leads to the copy's own file, and was empty,
or what is read there, the earlier copies being right, fits and is what it held at
first.  Where one does not open: an equal copy was there, or the configuration does
not name it. -/
def Faithful (s : Settings) (t : Disk) (k : KeyFile) : Prop :=
  ∀ src content, k.get s.vpn = some src → src ≠ [] → around.contents t src = some content →
    match sourceText around s t (intendedBefore around s t k) k, copyFile around s t k with
    | some text, some p =>
        if around.isFile (startingDisk around s t) src p then content = []
        else around.arrived p text = content
    | _, _ =>
        around.contents (intendedReady around s t)
          (keyPath around.currUserHomeDir s.vpn.name k) = some content ∨ Unnamed around s t k

end Around

/-! ## The places of the copies -/

theorem splitOn_getLast_append {ending : CString} (noSlash : '/' ∉ ending) (front : CString) :
    ∃ piece, ((front ++ ending).splitOn '/').getLast? = some (piece ++ ending) := by
  induction whole : front.length using Nat.strong_induction_on generalizing front with
  | _ length inductionHypothesis =>
      by_cases inside : '/' ∈ front
      · obtain ⟨before, behind, rfl, apart⟩ := List.eq_append_cons_of_mem inside
        obtain ⟨piece, last⟩ := inductionHypothesis behind.length
          (by rw [← whole, List.length_append, List.length_cons]; omega) behind rfl
        refine ⟨piece, ?_⟩
        rw [List.append_assoc, List.cons_append, List.splitOn_append_cons_self_of_not_mem apart,
          List.getLast?_cons, last]
        rfl
      · have apart : '/' ∉ front ++ ending := by simp [inside, noSlash]
        exact ⟨front, by rw [List.splitOn_eq_singleton apart]; rfl⟩

theorem place_last {around : Surroundings} {t : Disk} {p : Path} {front ending : CString}
    (noSlash : '/' ∉ ending) (nonempty : ending ≠ [])
    (found : around.place t (front ++ ending) = some p) :
    p.getLast?.bind List.getLast? = ending.getLast? := by
  obtain ⟨names, last, dir, split, -, -, -, -, rfl⟩ := openCreate_eq_some_iff.mp found
  obtain ⟨piece, isLast⟩ := splitOn_getLast_append noSlash front
  rw [split, List.getLast?_concat] at isLast
  obtain rfl := Option.some.inj isLast
  rw [List.getLast?_concat, Option.bind_some, List.getLast?_append_of_ne_nil _ nonempty]

section Paths

variable {around : Surroundings} {home : HomeDir} {name : CString} {t : Disk} {p : Path}

theorem filePath_absolute (around : Surroundings) (path : CString) :
    around.filePath ('/' :: path) = '/' :: path := by
  rw [Surroundings.filePath, if_neg]
  intro tilde
  obtain ⟨rest, same⟩ := (hasPrefix_iff _ _).mp tilde
  exact absurd (List.cons.inj same).1 (by decide)

theorem homeText_append (home : HomeDir) (rest : CString) :
    ∃ front, home.text ++ '/' :: rest = '/' :: front := by
  unfold HomeDir.text
  cases home.names with
  | nil => exact ⟨_, rfl⟩
  | cons first names => exact ⟨_, rfl⟩

theorem keyPath_eq (home : HomeDir) (name : CString) (k : KeyFile) :
    ∃ front, keyPath home.text (some name) k = '/' :: front ∧
      ∃ stem, keyPath home.text (some name) k = stem ++ k.extension := by
  have whole : keyPath home.text (some name) k =
      (home.text ++ '/' :: (".config/vpn_mgr/".toList ++ name ++ '/' :: name)) ++ k.extension := by
    simp [keyPath, configDirText]
  obtain ⟨front, absolute⟩ :=
    homeText_append home (".config/vpn_mgr/".toList ++ name ++ '/' :: name)
  exact ⟨front ++ k.extension, by rw [whole, absolute]; rfl, _, whole⟩

theorem configPath_eq (home : HomeDir) (name : CString) :
    ∃ front, configPath home.text (some name) = '/' :: front ∧
      ∃ stem, configPath home.text (some name) = stem ++ ".conf".toList := by
  have whole : configPath home.text (some name) =
      (home.text ++ '/' :: ("/.config/vpn_mgr/".toList ++ name ++ '/' :: name)) ++ ".conf".toList := by
    simp [configPath]
  obtain ⟨front, absolute⟩ :=
    homeText_append home ("/.config/vpn_mgr/".toList ++ name ++ '/' :: name)
  exact ⟨front ++ ".conf".toList, by rw [whole, absolute]; rfl, _, whole⟩

theorem place_of_opened {path : CString} (plain : around.filePath path = path)
    (found : around.opened t path = some p) : around.place t path = some p := by
  unfold Surroundings.opened at found
  split at found
  · rw [plain] at found
    exact (Option.filter_eq_some_iff.mp found).1
  · cases found

theorem filePath_keyPath (around : Surroundings) (home : HomeDir) (name : CString) (k : KeyFile) :
    around.filePath (keyPath home.text (some name) k) = keyPath home.text (some name) k := by
  obtain ⟨front, absolute, -⟩ := keyPath_eq home name k
  rw [absolute, filePath_absolute]

theorem filePath_configPath (around : Surroundings) (home : HomeDir) (name : CString) :
    around.filePath (configPath home.text (some name)) = configPath home.text (some name) := by
  obtain ⟨front, absolute, -⟩ := configPath_eq home name
  rw [absolute, filePath_absolute]

def lastLetter (p : Path) : Option Char := p.getLast?.bind List.getLast?

theorem lastLetter_keyPath {k : KeyFile}
    (found : around.place t (keyPath home.text (some name) k) = some p) :
    lastLetter p = k.extension.getLast? := by
  obtain ⟨-, -, stem, whole⟩ := keyPath_eq home name k
  rw [whole] at found
  exact place_last (by cases k <;> decide) (by cases k <;> decide) found

theorem lastLetter_configPath (found : around.place t (configPath home.text (some name)) = some p) :
    lastLetter p = some 'f' := by
  obtain ⟨-, -, stem, whole⟩ := configPath_eq home name
  rw [whole] at found
  exact place_last (by decide) (by decide) found

theorem place_keyPath_ne {j k : KeyFile} (different : j ≠ k)
    (found : around.opened t (keyPath home.text (some name) j) = some p) :
    around.place t (keyPath home.text (some name) k) ≠ some p := by
  intro same
  have first := lastLetter_keyPath (place_of_opened (filePath_keyPath around home name j) found)
  have second := lastLetter_keyPath same
  rw [first] at second
  cases j <;> cases k <;> first | exact different rfl | exact absurd second (by decide)

theorem place_keyPath_ne_config {k : KeyFile}
    (found : around.opened t (configPath home.text (some name)) = some p) :
    around.place t (keyPath home.text (some name) k) ≠ some p := by
  intro same
  have first := lastLetter_configPath (place_of_opened (filePath_configPath around home name) found)
  have second := lastLetter_keyPath same
  rw [first] at second
  cases k <;> exact absurd second (by decide)

end Paths

/-! ## What a copy does -/

section Copy

variable {around : Surroundings} {home : HomeDir} {name : CString} {s : Settings} {t x : Disk}
  {src dest path : CString} {k : KeyFile}

/-- What a copy leaves at its destination, if both files open. -/
def copied (around : Surroundings) (src dest : CString) (t : Disk) : Option CString :=
  match around.streamRead src t, around.opened t dest with
  | some text, some p => some (around.arrived p (if around.isFile t src p then [] else text))
  | _, _ => none

theorem fileCopy_of_copied {text : CString} (leaves : copied around src dest x = some text) :
    ∃ p, around.opened x dest = some p ∧ around.fileCopy src dest x = x.put p (.file text) := by
  unfold copied at leaves
  unfold Surroundings.fileCopy
  rcases reads : around.streamRead src x with _ | read <;>
    rcases opens : around.opened x dest with _ | p <;> rw [reads, opens] at leaves
  case some.some =>
    obtain rfl := Option.some.inj leaves
    exact ⟨p, rfl, rfl⟩
  all_goals cases leaves

theorem fileCopy_of_not_copied (fails : copied around src dest x = none) :
    around.fileCopy src dest x = x := by
  unfold copied at fails
  unfold Surroundings.fileCopy
  rcases reads : around.streamRead src x with _ | read <;>
    rcases opens : around.opened x dest with _ | p <;> rw [reads, opens] at fails
  case some.some => cases fails

theorem canCopy_iff : CanCopy around src dest x ↔ copied around src dest x ≠ none := by
  unfold CanCopy copied
  rcases around.streamRead src x with _ | text
  · simp
  · rcases around.opened x dest with _ | p
    · simp
    · simp

theorem locate_fileCopy (found : (around.locate x path).isSome = true) :
    (around.locate (around.fileCopy src dest x) path).isSome = true := by
  rcases leaves : copied around src dest x with _ | text
  · rwa [fileCopy_of_not_copied leaves]
  · obtain ⟨p, opens, result⟩ := fileCopy_of_copied leaves
    rw [result, Surroundings.locate,
      (Surroundings.vacant_of_opened opens).resolve_put (List.splitOn_ne_nil '/' path)]
    split
    · rfl
    · exact found

def Found (around : Surroundings) (s : Settings) (x : Disk) : Prop :=
  ∀ k : KeyFile, strValid (k.get s.vpn) = true →
    (around.locate x (copyStr (k.get s.vpn))).isSome = true

def copyGiven (around : Surroundings) (s : Settings) (k : KeyFile) (x : Disk) : Disk :=
  if strValid (k.get s.vpn) then
    around.fileCopy (copyStr (k.get s.vpn)) (keyPath around.currUserHomeDir s.vpn.name k) x
  else x

theorem copyKeyFile_eq {now : Settings} (found : Found around s x)
    (same : k.get now.vpn = k.get s.vpn) (sameName : now.vpn.name = s.vpn.name) :
    copyKeyFile around k (now, x) =
      (withCopy around.currUserHomeDir k now, copyGiven around s k x) := by
  unfold copyKeyFile withCopy pathValid copyGiven
  by_cases given : strValid (k.get s.vpn) = true
  · simp [same, sameName, given, found k given]
  · simp [same, given]

theorem contents_fileCopy_other {j k : KeyFile} (different : j ≠ k) :
    around.contents (around.fileCopy src (keyPath home.text (some name) j) x)
        (keyPath home.text (some name) k) =
      around.contents x (keyPath home.text (some name) k) := by
  rcases leaves : copied around src (keyPath home.text (some name) j) x with _ | text
  · rw [fileCopy_of_not_copied leaves]
  · obtain ⟨p, opens, result⟩ := fileCopy_of_copied leaves
    rw [result, Surroundings.contents_put (Surroundings.vacant_of_opened opens),
      if_neg (place_keyPath_ne different opens)]

theorem contents_fileCopy_same {text : CString}
    (leaves : copied around src (keyPath home.text (some name) k) x = some text) :
    around.contents (around.fileCopy src (keyPath home.text (some name) k) x)
      (keyPath home.text (some name) k) = some text := by
  obtain ⟨p, opens, result⟩ := fileCopy_of_copied leaves
  rw [result, Surroundings.contents_opened opens (filePath_keyPath around home name k)]

theorem Found.copyGiven (found : Found around s x) (k : KeyFile) :
    Found around s (copyGiven around s k x) := by
  unfold Config.copyGiven
  split
  · exact fun j given => locate_fileCopy (found j given)
  · exact found

theorem withCopy_name (home : CString) (k : KeyFile) (s : Settings) :
    (withCopy home k s).vpn.name = s.vpn.name := by
  unfold withCopy
  split
  · exact k.set_name _ _
  · rfl

theorem withCopy_get {j k : KeyFile} (different : j ≠ k) (home : CString) (s : Settings) :
    k.get (withCopy home j s).vpn = k.get s.vpn := by
  unfold withCopy
  split
  · exact KeyFile.get_set_other different _ _
  · rfl

/-- When the sources can be found, every given one is copied. -/
theorem addConfig_copies (found : Found around s (startingDisk around s t)) :
    (addConfig around s t).2 = saveConfig around (withCopies around.currUserHomeDir s)
        (afterAll (copyGiven around s) (startingDisk around s t)) ∧
      ∀ k, (stateBefore around s t k).2 =
        before (copyGiven around s) (startingDisk around s t) k := by
  have first := copyKeyFile_eq found (k := .clientCert) rfl rfl
  have second := copyKeyFile_eq (k := .clientKey) (found.copyGiven .clientCert)
    (withCopy_get (j := .clientCert) (by decide) around.currUserHomeDir s) (withCopy_name _ _ s)
  have third := copyKeyFile_eq (k := .verifyCert) ((found.copyGiven .clientCert).copyGiven .clientKey)
    ((withCopy_get (j := .clientKey) (by decide) around.currUserHomeDir _).trans
      (withCopy_get (j := .clientCert) (by decide) around.currUserHomeDir s))
    ((withCopy_name _ _ _).trans (withCopy_name around.currUserHomeDir .clientCert s))
  constructor
  · change saveConfig around (copyKeyFile around .verifyCert (copyKeyFile around .clientKey
      (copyKeyFile around .clientCert (s, startingDisk around s t)))).1 (copyKeyFile around .verifyCert
        (copyKeyFile around .clientKey (copyKeyFile around .clientCert
          (s, startingDisk around s t)))).2 = _
    rw [first, second, third]
    rfl
  · intro k
    cases k with
    | clientCert => rfl
    | clientKey => rw [stateBefore, before, first]; rfl
    | verifyCert => rw [stateBefore, before, first, second]; rfl

theorem contents_saveConfig (homed : around.currUserHomeDir = home.text) (named : s.vpn.name = some name) :
    around.contents (saveConfig around s x) (keyPath home.text (some name) k) =
      around.contents (makeDirPath (configPath home.text (some name)) x)
        (keyPath home.text (some name) k) := by
  rw [saveConfig, homed, named]
  simp only [Surroundings.streamWrite]
  split
  next p opens =>
    rw [Surroundings.contents_put (Surroundings.vacant_of_opened opens),
      if_neg (place_keyPath_ne_config opens)]
  next => rfl

end Copy

/-! ## All three copies -/

section Chain

variable {around : Surroundings} {home : HomeDir} {name : CString} {s : Settings} {t : Disk}
  {src content : CString} {k : KeyFile}

def intendedDisk (around : Surroundings) (s : Settings) (t : Disk) (k : KeyFile) : Disk :=
  Surroundings.withFiles (intendedBefore around s t k) (startingDisk around s t)

theorem mem_intendCopy {files : List (Path × CString)} {file : Path × CString}
    (member : file ∈ intendCopy around s t k files) :
    file ∈ files ∨ copyFile around s t k = some file.1 := by
  unfold intendCopy at member
  split at member
  · split at member
    next p reads opens =>
      rcases List.mem_cons.mp member with rfl | earlier
      · exact .inr opens
      · exact .inl earlier
    next => exact .inl member
  · exact .inl member

theorem mem_intendedBefore {file : Path × CString} (member : file ∈ intendedBefore around s t k) :
    ∃ j, j ≠ k ∧ copyFile around s t j = some file.1 := by
  cases k with
  | clientCert => exact absurd member List.not_mem_nil
  | clientKey =>
      rcases mem_intendCopy member with none | cert
      · exact absurd none List.not_mem_nil
      · exact ⟨_, by decide, cert⟩
  | verifyCert =>
      rcases mem_intendCopy member with earlier | key
      · rcases mem_intendCopy earlier with none | cert
        · exact absurd none List.not_mem_nil
        · exact ⟨_, by decide, cert⟩
      · exact ⟨_, by decide, key⟩

theorem vacant_intendedBefore :
    ∀ file ∈ intendedBefore around s t k, Vacant (startingDisk around s t) file.1 := by
  intro file member
  obtain ⟨j, -, opens⟩ := mem_intendedBefore member
  exact Surroundings.vacant_of_opened opens

/-- What a copy leaves when the copies before it are right. -/
theorem copied_intended (homed : around.currUserHomeDir = home.text)
    (named : s.vpn.name = some name) (given : k.get s.vpn = some src) (nonempty : src ≠ []) :
    copied around src (keyPath around.currUserHomeDir s.vpn.name k) (intendedDisk around s t k) =
      match sourceText around s t (intendedBefore around s t k) k, copyFile around s t k with
      | some text, some p => some (around.arrived p
          (if around.isFile (startingDisk around s t) src p then [] else text))
      | _, _ => none := by
  have vacant := @vacant_intendedBefore around s t k
  have reads : around.streamRead src (intendedDisk around s t k) =
      sourceText around s t (intendedBefore around s t k) k := by
    rw [intendedDisk, Surroundings.streamRead_withFiles vacant nonempty, sourceText, given]
    rfl
  have opens : around.opened (intendedDisk around s t k)
      (keyPath around.currUserHomeDir s.vpn.name k) = copyFile around s t k :=
    Surroundings.opened_withFiles vacant
  rw [copied, reads, opens]
  rcases sourceText around s t (intendedBefore around s t k) k with _ | text
  · rfl
  rcases found : copyFile around s t k with _ | p
  · rfl
  have apart : ∀ file ∈ intendedBefore around s t k, file.1 ≠ p := by
    rintro file member rfl
    obtain ⟨j, different, other⟩ := mem_intendedBefore member
    rw [copyFile, homed, named] at found other
    exact place_keyPath_ne different other
      (place_of_opened (filePath_keyPath around home name k) found)
  simp only [intendedDisk, Surroundings.isFile_withFiles vacant apart]

def Right (around : Surroundings) (s : Settings) (t : Disk) (k : KeyFile) : Prop :=
  ∀ src content text, k.get s.vpn = some src → src ≠ [] → around.contents t src = some content →
    copied around src (keyPath around.currUserHomeDir s.vpn.name k) (intendedDisk around s t k) =
      some text → text = content

theorem arrived_nil (around : Surroundings) (p : Path) : around.arrived p [] = [] := by
  unfold Surroundings.arrived
  split
  · exact List.take_nil
  · rfl

/-- `Faithful`, by what the copy leaves. -/
theorem faithful_iff (homed : around.currUserHomeDir = home.text) (named : s.vpn.name = some name) :
    Faithful around s t k ↔ ∀ src content, k.get s.vpn = some src → src ≠ [] →
      around.contents t src = some content →
        match copied around src (keyPath around.currUserHomeDir s.vpn.name k)
          (intendedDisk around s t k) with
        | some text => text = content
        | none => around.contents (intendedReady around s t)
            (keyPath around.currUserHomeDir s.vpn.name k) = some content ∨
              Unnamed around s t k := by
  refine forall₂_congr fun src content => forall₃_congr fun given nonempty held => ?_
  rw [copied_intended homed named given nonempty]
  rcases sourceText around s t (intendedBefore around s t k) k with _ | text
  · exact Iff.rfl
  rcases copyFile around s t k with _ | p
  · exact Iff.rfl
  simp only
  split
  · rw [arrived_nil, eq_comm]
  · exact Iff.rfl

theorem Faithful.right (homed : around.currUserHomeDir = home.text) (named : s.vpn.name = some name)
    (faithful : Faithful around s t k) : Right around s t k := by
  intro src content text given nonempty held leaves
  have all := (faithful_iff homed named).mp faithful src content given nonempty held
  simp only [leaves] at all
  exact all

theorem contents_afterAll (homed : around.currUserHomeDir = home.text)
    (named : s.vpn.name = some name) (start : Disk) (k : KeyFile) :
    around.contents (afterAll (copyGiven around s) start) (keyPath home.text (some name) k) =
      around.contents (copyGiven around s k (before (copyGiven around s) start k))
        (keyPath home.text (some name) k) := by
  have others : ∀ {j : KeyFile} (x : Disk), j ≠ k →
      around.contents (copyGiven around s j x) (keyPath home.text (some name) k) =
        around.contents x (keyPath home.text (some name) k) := by
    intro j x different
    unfold copyGiven
    split
    · rw [homed, named, contents_fileCopy_other different]
    · rfl
  cases k with
  | clientCert => exact (others _ (by decide)).trans (others _ (by decide))
  | clientKey => exact others _ (by decide)
  | verifyCert => rfl

theorem contents_addConfig_copied (homed : around.currUserHomeDir = home.text)
    (named : s.vpn.name = some name) (found : Found around s (startingDisk around s t)) {text : CString}
    (given : k.get s.vpn = some src) (nonempty : src ≠ [])
    (leaves : copied around src (keyPath home.text (some name) k) (stateBefore around s t k).2 =
      some text) :
    around.contents (addConfig around s t).2 (keyPath home.text (some name) k) = some text := by
  obtain ⟨whole, states⟩ := addConfig_copies found
  have sameName : (withCopies around.currUserHomeDir s).vpn.name = some name := by
    rw [withCopies, withCopy_name, withCopy_name, withCopy_name, named]
  rw [states] at leaves
  rw [whole, contents_saveConfig homed sameName]
  refine Surroundings.contents_grows (grows_makeDirPath _ _) ?_
  rw [contents_afterAll homed named, copyGiven, given,
    if_pos ((strValid_some_iff src).mpr nonempty), homed, named]
  exact contents_fileCopy_same leaves

theorem Preserved.right (homed : around.currUserHomeDir = home.text) (named : s.vpn.name = some name)
    (found : Found around s (startingDisk around s t))
    (reached : (stateBefore around s t k).2 = intendedDisk around s t k)
    (preserved : Preserved around s t k) : Right around s t k := by
  intro src content text given nonempty held leaves
  have all := preserved src content given nonempty held
  rw [homed, named] at leaves all
  rw [← reached] at leaves
  rcases all with stored | ⟨unable, -⟩
  · rw [contents_addConfig_copied homed named found given nonempty leaves] at stored
    exact Option.some.inj stored
  · exact absurd (canCopy_iff.mpr (by simp [leaves])) unable

end Chain

def alsRoot : HomeDir := ⟨["al".toList], by decide⟩

def alsWorld : Surroundings :=
  ⟨[], alsRoot.text, fun _ => false, fun _ => none, fun _ => none⟩

end VpnMgr.Config
