import VpnMgr.LibUseful.FileSystem
import VpnMgr.LibUseful.Strings

/-!
# Directories and files that are written

`MakeDirPath` and `FileCopy` of `FileSystem.c`, and which URLs `STREAMOpen`
opens as a file.
-/

namespace VpnMgr.LibUseful

open VpnMgr.Machine VpnMgr.Text CString

def namesIn (name : List CString) : Path := name.filter (· ≠ [])

/-- `mkdir`, on an absolute path name.  `EEXIST` is no error here. -/
def mkdir (t : Disk) (name : List CString) : Option Disk :=
  match (namesIn name).getLast? with
  | none => some t
  | some last =>
      match resolve t [] (namesIn name).dropLast with
      | none => none
      | some dir =>
          if !t.isDir dir then none
          else if (t.entry (descend dir last)).isSome then some t
          else some (t.put (dir ++ [last]) .directory)

/-- The file that `open` finds or creates when it is to be written. -/
def openCreate (t : Disk) (cwd : Path) (name : List CString) : Option Path :=
  match name.getLast?, resolve t cwd name.dropLast with
  | some last, some dir =>
      if t.isDir dir ∧ ProperName last ∧ t.isDir (dir ++ [last]) = false then some (dir ++ [last])
      else none
  | _, _ => none

/-- What can be read behind a path; a directory opens, and yields nothing. -/
def readFile (t : Disk) (p : Path) : Option CString :=
  (t.entry p).map fun
    | .file content => content
    | .directory => []

/-- The loop of `MakeDirPath`: `mkdir` for each part of the path that ends in
front of a slash. -/
def makeDirs : List CString → List CString → Disk → Disk
  | made, name :: next :: rest, t =>
      match mkdir t (made ++ [name]) with
      | some t => makeDirs (made ++ [name]) (next :: rest) t
      | none => t
  | _, _, t => t

/-- `MakeDirPath`; a slash at the start is stepped over. -/
def makeDirPath (path : CString) (t : Disk) : Disk :=
  match path.splitOn '/' with
  | [] :: rest => makeDirs [[]] rest t
  | names => makeDirs [] names t

/-! ## What `MakeDirPath` makes -/

def PlainStep (c : CString) : Prop := c = [] ∨ ProperName c

theorem namesIn_append (name rest : List CString) :
    namesIn (name ++ rest) = namesIn name ++ namesIn rest := List.filter_append ..

theorem namesIn_proper {name : List CString} (proper : ∀ c ∈ name, ProperName c) :
    namesIn name = name :=
  List.filter_eq_self.mpr fun c membership => by simpa using (proper c membership).nonempty

theorem mem_namesIn {name : List CString} (plain : ∀ c ∈ name, PlainStep c) :
    ∀ c ∈ namesIn name, ProperName c := by
  intro c membership
  obtain ⟨inName, nonempty⟩ := List.mem_filter.mp membership
  exact (plain c inName).resolve_left (by simpa using nonempty)

theorem resolve_plain {t : Disk} {cur : Path} {name : List CString}
    (plain : ∀ c ∈ name, PlainStep c) (isDir : t.isDir (cur ++ namesIn name) = true) :
    resolve t cur name = some (cur ++ namesIn name) := by
  induction name generalizing cur with
  | nil => simp [resolve, namesIn]
  | cons c rest inductionHypothesis =>
      have later := fun cur => @inductionHypothesis cur fun d membership => plain d (by simp [membership])
      have here : t.isDir cur = true := FileTree.isDir_of_prefix (List.prefix_append _ _) isDir
      rcases plain c (by simp) with rfl | proper
      · have same : namesIn ([] :: rest) = namesIn rest := List.filter_cons_of_neg (by simp)
        rw [same] at isDir ⊢
        simpa [resolve, here] using later cur isDir
      · have same : namesIn (c :: rest) = c :: namesIn rest :=
          List.filter_cons_of_pos (by simpa using proper.nonempty)
        have longer : cur ++ c :: namesIn rest = cur ++ [c] ++ namesIn rest := by simp
        rw [same, longer] at isDir ⊢
        have found : (t.entry (cur ++ [c])).isSome = true := by
          rw [FileTree.isDir_iff.mp (FileTree.isDir_of_prefix (List.prefix_append _ _) isDir)]
          rfl
        rw [resolve, here, descend_proper proper]
        simpa [proper.nonempty, found] using later _ isDir

theorem mkdir_plain {t : Disk} {name : List CString} (plain : ∀ c ∈ name, PlainStep c)
    (parent : t.isDir (namesIn name).dropLast = true)
    (free : t.entry (namesIn name) = none ∨ t.isDir (namesIn name) = true) :
    ∃ u, mkdir t name = some u ∧
      ∀ q, u.entry q = if q = namesIn name then some .directory else t.entry q := by
  have proper := mem_namesIn plain
  rw [mkdir]
  generalize namesIn name = p at *
  rcases List.eq_nil_or_concat p with rfl | ⟨dir, last, rfl⟩
  · refine ⟨t, rfl, fun q => ?_⟩
    split
    next root => rw [root, FileTree.entry_root]
    next => rfl
  rw [List.concat_eq_append] at *
  have lastProper := proper last (by simp)
  rw [List.dropLast_concat] at parent
  have steps : ∀ c ∈ dir, ProperName c := fun c membership => proper c (by simp [membership])
  have found := @resolve_plain t [] dir (fun c membership => .inr (steps c membership))
    (by rwa [List.nil_append, namesIn_proper steps])
  rw [List.nil_append, namesIn_proper steps] at found
  simp only [List.getLast?_concat, List.dropLast_concat, found, parent, descend_proper lastProper,
    Bool.not_true, Bool.false_eq_true, if_false]
  rcases free with absent | isDir
  · refine ⟨t.put (dir ++ [last]) .directory, by simp [absent], fun q => ?_⟩
    have noDir : t.isDir (dir ++ [last]) = false := by simp [FileTree.isDir, absent]
    have puts : dir ++ [last] ≠ [] ∧ (∀ c ∈ dir ++ [last], ProperName c) ∧
        t.isDir (dir ++ [last]).dropLast = true ∧ t.isDir (dir ++ [last]) = false :=
      ⟨by simp, proper, by rwa [List.dropLast_concat], noDir⟩
    rw [FileTree.entry_put]
    by_cases same : q = dir ++ [last]
    · rw [if_pos ⟨same, puts⟩, if_pos same]
    · rw [if_neg fun both => same both.1, if_neg same]
  · refine ⟨t, by simp [FileTree.isDir_iff.mp isDir], fun q => ?_⟩
    split
    next same => rw [same, FileTree.isDir_iff.mp isDir]
    next => rfl

/-- Every directory on the way is there afterwards, and nothing else is new. -/
theorem entry_makeDirs {t : Disk} {made names : List CString} (last : CString)
    (plain : ∀ c ∈ made ++ names, PlainStep c) (here : t.isDir (namesIn made) = true)
    (free : ∀ p, p <+: namesIn (made ++ names) → t.entry p = none ∨ t.isDir p = true) (q : Path) :
    (makeDirs made (names ++ [last]) t).entry q =
      if q <+: namesIn (made ++ names) then some .directory else t.entry q := by
  induction names generalizing made t with
  | nil =>
      simp only [List.nil_append, List.append_nil, makeDirs]
      split
      next inside => exact FileTree.isDir_iff.mp (FileTree.isDir_of_prefix inside here)
      next => rfl
  | cons name names inductionHypothesis =>
      have split : made ++ name :: names = (made ++ [name]) ++ names := by simp
      rw [split] at plain free ⊢
      have steps : ∀ c ∈ made ++ [name], PlainStep c :=
        fun c membership => plain c (List.mem_append_left _ membership)
      have grown : namesIn (made ++ [name]) <+: namesIn (made ++ [name] ++ names) := by
        rw [namesIn_append (made ++ [name])]
        exact List.prefix_append _ _
      have parent : t.isDir (namesIn (made ++ [name])).dropLast = true := by
        refine FileTree.isDir_of_prefix ?_ here
        rw [namesIn_append]
        by_cases empty : name = []
        · rw [empty, show namesIn [[]] = [] from rfl, List.append_nil]
          exact List.dropLast_prefix _
        · have single : namesIn [name] = [name] := List.filter_cons_of_pos (by simpa using empty)
          have shorter : (namesIn made ++ namesIn [name]).dropLast = namesIn made := by
            rw [single, List.dropLast_concat]
          exact ⟨[], by rw [shorter, List.append_nil]⟩
      obtain ⟨u, makes, entries⟩ := mkdir_plain steps parent (free _ grown)
      obtain ⟨next, rest, more⟩ : ∃ next rest, names ++ [last] = next :: rest := by
        cases names with
        | nil => exact ⟨_, _, rfl⟩
        | cons next rest => exact ⟨_, _, rfl⟩
      have later := @inductionHypothesis u (made ++ [name]) plain
        (by rw [FileTree.isDir_iff, entries, if_pos rfl]) (by
          intro p inside
          rw [FileTree.isDir_iff, entries]
          split
          · exact .inr rfl
          · simpa only [FileTree.isDir_iff] using free p inside)
      rw [List.cons_append, more, makeDirs, makes, ← more]
      simp only
      rw [later, entries]
      by_cases inside : q <+: namesIn (made ++ [name] ++ names)
      · rw [if_pos inside, if_pos inside]
      · rw [if_neg inside, if_neg inside, if_neg]
        rintro rfl
        exact inside grown

def Grows (t u : Disk) : Prop := ∀ q e, t.entry q = some e → u.entry q = some e

theorem Grows.refl (t : Disk) : Grows t t := fun _ _ found => found

theorem Grows.trans {t u v : Disk} (first : Grows t u) (second : Grows u v) : Grows t v :=
  fun q e found => second q e (first q e found)

theorem grows_mkdir {t u : Disk} {name : List CString} (made : mkdir t name = some u) :
    Grows t u := by
  unfold mkdir at made
  split at made
  · obtain rfl := Option.some.inj made
    exact .refl t
  next last isLast =>
    split at made
    · cases made
    next dir leads =>
      split at made
      · cases made
      · split at made
        · obtain rfl := Option.some.inj made
          exact .refl t
        next absent =>
          obtain rfl := Option.some.inj made
          intro q e found
          rw [FileTree.entry_put, if_neg]
          · exact found
          · rintro ⟨rfl, -, proper, -⟩
            rw [descend_proper (proper last (by simp)), found] at absent
            exact absent rfl

theorem grows_makeDirs (made names : List CString) (t : Disk) : Grows t (makeDirs made names t) := by
  induction names generalizing made t with
  | nil => exact .refl t
  | cons name rest inductionHypothesis =>
      cases rest with
      | nil => exact .refl t
      | cons next rest =>
          rw [makeDirs]
          split
          next u makes => exact (grows_mkdir makes).trans (inductionHypothesis _ u)
          next => exact .refl t

theorem grows_makeDirPath (path : CString) (t : Disk) : Grows t (makeDirPath path t) := by
  unfold makeDirPath
  split
  · exact grows_makeDirs _ _ t
  · exact grows_makeDirs _ _ t

theorem Grows.isDir {t u : Disk} (grows : Grows t u) {q : Path} (isDir : t.isDir q = true) :
    u.isDir q = true :=
  FileTree.isDir_iff.mpr (grows q _ (FileTree.isDir_iff.mp isDir))

theorem Grows.resolve {t u : Disk} (grows : Grows t u) {cur q : Path} {name : List CString}
    (leads : resolve t cur name = some q) : resolve u cur name = some q := by
  induction name generalizing cur with
  | nil => exact leads
  | cons c rest inductionHypothesis =>
      simp only [LibUseful.resolve] at leads ⊢
      split at leads
      · cases leads
      next isDir =>
        have isDir : t.isDir cur = true := by simpa using isDir
        rw [grows.isDir isDir]
        split at leads
        next empty => simpa [empty] using inductionHypothesis leads
        next nonempty =>
          split at leads
          next found =>
            obtain ⟨e, entry⟩ := Option.isSome_iff_exists.mp found
            simpa [nonempty, grows _ e entry] using inductionHypothesis leads
          next => cases leads

/-! ## Writing a file -/

/-- A file is at `p`, or can be created there. -/
structure Vacant (t : Disk) (p : Path) : Prop where
  nonempty : p ≠ []
  parent : t.isDir p.dropLast = true
  proper : ∀ c ∈ p, ProperName c
  noDir : t.isDir p = false

section Vacant

variable {t : Disk} {cur p : Path} {name : List CString} {text : CString}

theorem openCreate_eq_some_iff : openCreate t cur name = some p ↔
    ∃ front last dir, name = front ++ [last] ∧ resolve t cur front = some dir ∧
      t.isDir dir = true ∧ ProperName last ∧ t.isDir (dir ++ [last]) = false ∧
        p = dir ++ [last] := by
  constructor
  · intro found
    unfold openCreate at found
    split at found
    next last dir isLast leads =>
      split at found
      next free =>
        have whole := List.dropLast_append_getLast? last isLast
        exact ⟨_, last, dir, whole.symm, leads, free.1, free.2.1, free.2.2,
          (Option.some.inj found).symm⟩
      next => cases found
    next => cases found
  · rintro ⟨front, last, dir, rfl, leads, isDir, proper, noDir, rfl⟩
    simp [openCreate, leads, isDir, proper, noDir]

theorem vacant_of_openCreate (found : openCreate t cur name = some p) : Vacant t p := by
  obtain ⟨front, last, dir, -, -, isDir, proper, noDir, rfl⟩ := openCreate_eq_some_iff.mp found
  refine ⟨by simp, by rwa [List.dropLast_concat], ?_, noDir⟩
  intro c membership
  rcases List.mem_append.mp membership with inDir | isLast
  · exact FileTree.entry_valid (FileTree.isDir_iff.mp isDir) c inDir
  · obtain rfl := List.mem_singleton.mp isLast
    exact proper

theorem Vacant.entry_put (vacant : Vacant t p) (q : Path) :
    (t.put p (.file text)).entry q = if q = p then some (.file text) else t.entry q := by
  rw [FileTree.entry_put]
  by_cases same : q = p
  · rw [if_pos same, if_pos ⟨same, vacant.nonempty, vacant.proper, vacant.parent, vacant.noDir⟩]
  · rw [if_neg same, if_neg fun free => same free.1]

theorem Vacant.isDir_put (vacant : Vacant t p) (q : Path) :
    (t.put p (.file text)).isDir q = t.isDir q := by
  by_cases same : q = p
  · rw [same, vacant.noDir, FileTree.isDir, vacant.entry_put, if_pos rfl]
  · rw [FileTree.isDir, vacant.entry_put, if_neg same]
    rfl

theorem resolve_append (t : Disk) (cur : Path) (front behind : List CString) :
    resolve t cur (front ++ behind) =
      (resolve t cur front).bind fun dir => resolve t dir behind := by
  induction front generalizing cur with
  | nil => rfl
  | cons c front inductionHypothesis =>
      simp only [List.cons_append, resolve, inductionHypothesis]
      split
      · rfl
      · split
        · rfl
        · split <;> rfl

theorem descend_noDir {dir : Path} {last : CString} (isDir : t.isDir dir = true)
    (noDir : t.isDir (descend dir last) = false) : descend dir last = dir ++ [last] := by
  by_cases dot : last = ".".toList
  · rw [dot, descend, if_pos rfl, isDir] at noDir
    cases noDir
  · by_cases dots : last = "..".toList
    · rw [dots, descend, if_neg (by decide), if_pos rfl,
        FileTree.isDir_of_prefix (List.dropLast_prefix dir) isDir] at noDir
      cases noDir
    · rw [descend, if_neg dot, if_neg dots]

/-- The last step of a walk that ends where no directory is. -/
theorem resolve_last {dir : Path} {last : CString} (leads : resolve t dir [last] = some p)
    (noDir : t.isDir p = false) :
    t.isDir dir = true ∧ ProperName last ∧ p = dir ++ [last] := by
  simp only [resolve] at leads
  split at leads
  · cases leads
  next isDir =>
    have isDir : t.isDir dir = true := by simpa using isDir
    split at leads
    · obtain rfl := Option.some.inj leads
      rw [isDir] at noDir
      cases noDir
    · split at leads
      next found =>
        obtain rfl := Option.some.inj leads
        have step := descend_noDir isDir noDir
        obtain ⟨e, entry⟩ := Option.isSome_iff_exists.mp found
        rw [step] at entry ⊢
        exact ⟨isDir, FileTree.entry_valid entry last (by simp), rfl⟩
      next => cases leads

theorem openCreate_of_resolve (nonempty : name ≠ []) (leads : resolve t cur name = some p)
    (noDir : t.isDir p = false) : openCreate t cur name = some p := by
  obtain ⟨front, last, rfl⟩ := (List.eq_nil_or_concat name).resolve_left nonempty
  rw [List.concat_eq_append, resolve_append] at leads
  obtain ⟨dir, first, leads⟩ := Option.bind_eq_some_iff.mp leads
  obtain ⟨isDir, proper, rfl⟩ := resolve_last leads noDir
  rw [List.concat_eq_append]
  exact openCreate_eq_some_iff.mpr ⟨front, last, dir, rfl, first, isDir, proper, noDir, rfl⟩

theorem openCreate_step {dir : Path} {last : CString} : openCreate t dir [last] = some p ↔
    t.isDir dir = true ∧ ProperName last ∧ t.isDir (dir ++ [last]) = false ∧ p = dir ++ [last] := by
  constructor
  · intro found
    obtain ⟨front, other, there, split, leads, held⟩ := openCreate_eq_some_iff.mp found
    obtain ⟨rfl, same⟩ := @List.append_inj' _ [] _ _ _ split rfl
    obtain rfl := (List.cons.inj same).1
    obtain rfl := Option.some.inj leads
    exact held
  · exact fun held => openCreate_eq_some_iff.mpr ⟨[], last, dir, rfl, rfl, held⟩

/-- One step of a walk, once a file is written. -/
theorem Vacant.resolve_put_last (vacant : Vacant t p) (dir : Path) (last : CString) :
    resolve (t.put p (.file text)) dir [last] =
      if openCreate t dir [last] = some p then some p else resolve t dir [last] := by
  simp only [resolve, vacant.isDir_put, vacant.entry_put]
  by_cases isDir : t.isDir dir = true
  · by_cases empty : last = []
    · have elsewhere : openCreate t dir [last] ≠ some p := fun found =>
        (openCreate_step.mp found).2.1.nonempty empty
      rw [if_neg elsewhere, if_pos empty, if_pos empty]
    · by_cases here : descend dir last = p
      · have step := descend_noDir isDir (here ▸ vacant.noDir)
        have found : openCreate t dir [last] = some p := by
          rw [step] at here
          exact openCreate_step.mpr ⟨isDir, vacant.proper last (by simp [← here]),
            here ▸ vacant.noDir, here.symm⟩
        simp [isDir, empty, here, found]
      · have elsewhere : openCreate t dir [last] ≠ some p := fun found => by
          obtain ⟨-, proper, -, same⟩ := openCreate_step.mp found
          exact here ((descend_proper proper).trans same.symm)
        rw [if_neg elsewhere, if_neg here]
  · have elsewhere : openCreate t dir [last] ≠ some p := fun found =>
      isDir (openCreate_step.mp found).1
    rw [if_neg elsewhere, Bool.not_eq_true] at *
    simp [isDir]

theorem resolve_concat (front : List CString) (last : CString) :
    resolve t cur (front ++ [last]) =
      ((resolve t cur front).filter t.isDir).bind fun dir => resolve t dir [last] := by
  rw [resolve_append]
  rcases resolve t cur front with _ | dir
  · rfl
  · by_cases isDir : t.isDir dir = true
    · rw [Option.filter_some_pos isDir]
    · rw [Option.filter_some_neg (by simpa using isDir)]
      simp [isDir, resolve]

theorem openCreate_concat (front : List CString) (last : CString) :
    openCreate t cur (front ++ [last]) =
      ((resolve t cur front).filter t.isDir).bind fun dir => openCreate t dir [last] := by
  simp only [openCreate, List.getLast?_concat, List.dropLast_concat, List.getLast?_singleton,
    List.dropLast_singleton, resolve]
  rcases resolve t cur front with _ | dir
  · rfl
  · by_cases isDir : t.isDir dir = true
    · rw [Option.filter_some_pos isDir]
      rfl
    · rw [Option.filter_some_neg (by simpa using isDir)]
      simp [isDir]

/-- The directories that walks lead to stay the same. -/
theorem Vacant.resolve_put_dir (vacant : Vacant t p) :
    (resolve (t.put p (.file text)) cur name).filter t.isDir =
      (resolve t cur name).filter t.isDir := by
  have same : (t.put p (.file text)).isDir = t.isDir := funext vacant.isDir_put
  induction name using List.reverseRecOn with
  | nil => rfl
  | append_singleton front last inductionHypothesis =>
      rw [resolve_concat, resolve_concat, same, inductionHypothesis]
      rcases (resolve t cur front).filter t.isDir with _ | dir
      · rfl
      · rw [Option.bind_some, Option.bind_some, vacant.resolve_put_last]
        split
        next found =>
          obtain ⟨isDir, proper, noDir, rfl⟩ := openCreate_step.mp found
          rw [Option.filter_some_neg noDir]
          simp only [resolve, isDir, proper.nonempty, descend_proper proper, Bool.not_true,
            Bool.false_eq_true, if_false]
          split
          · rw [Option.filter_some_neg noDir]
          · rfl
        next => rfl

theorem Vacant.put (vacant : Vacant t p) {q : Path} (other : Vacant t q) :
    Vacant (t.put p (.file text)) q where
  nonempty := other.nonempty
  parent := by rw [vacant.isDir_put, other.parent]
  proper := other.proper
  noDir := by rw [vacant.isDir_put, other.noDir]

theorem Vacant.openCreate_put (vacant : Vacant t p) :
    openCreate (t.put p (.file text)) cur name = openCreate t cur name := by
  rcases List.eq_nil_or_concat name with rfl | ⟨front, last, rfl⟩
  · rfl
  · have same : (t.put p (.file text)).isDir = t.isDir := funext vacant.isDir_put
    rw [List.concat_eq_append, openCreate_concat, openCreate_concat, same, vacant.resolve_put_dir]
    refine Option.bind_congr fun dir _ => ?_
    simp only [openCreate, List.getLast?_singleton, List.dropLast_singleton, resolve, same]

theorem resolve_of_openCreate {q : Path} (found : openCreate t cur name = some p)
    (leads : resolve t cur name = some q) : q = p := by
  obtain ⟨front, last, dir, rfl, first, isDir, proper, -, rfl⟩ := openCreate_eq_some_iff.mp found
  rw [resolve_append, first, Option.bind_some] at leads
  simp only [resolve, isDir, proper.nonempty, descend_proper proper, Bool.not_true,
    Bool.false_eq_true, if_false] at leads
  split at leads
  · exact (Option.some.inj leads).symm
  · cases leads

theorem Vacant.resolve_put (vacant : Vacant t p) (nonempty : name ≠ []) :
    resolve (t.put p (.file text)) cur name =
      if openCreate t cur name = some p then some p else resolve t cur name := by
  have same : (t.put p (.file text)).isDir = t.isDir := funext vacant.isDir_put
  obtain ⟨front, last, rfl⟩ := (List.eq_nil_or_concat name).resolve_left nonempty
  rw [List.concat_eq_append, resolve_concat, resolve_concat, openCreate_concat, same,
    vacant.resolve_put_dir]
  rcases (resolve t cur front).filter t.isDir with _ | dir
  · rfl
  · exact vacant.resolve_put_last dir last

end Vacant

/-- `STREAMExtractMasterURL`: of a chain of URLs, the last one. -/
def streamExtractMasterURL (url : CString) : CString :=
  if ["cmd:", "file:", "mmap:", "stdin:", "stdout:", "stdio:"].any
      fun scheme => hasPrefix scheme.toList url then url
  else url.rtakeWhile (· ≠ '|')

/-- The protocol that `ParseURL` finds in a URL. -/
def urlProto (url : CString) : CString :=
  let proto := url.takeWhile (· ≠ ':')
  if ':' ∈ url ∧ '.' ∉ proto then proto.map Char.toLower else []

/-- The `switch` of `STREAMOpen` ends in `STREAMFileOpen` on the URL itself. -/
def opensFile (url : CString) : Bool :=
  let proto := urlProto (streamExtractMasterURL url)
  match proto.head? with
  | some 'c' => proto ≠ "cmd".toList
  | some 'g' => proto ≠ "gemini".toList
  | some 'h' => proto ≠ "http".toList ∧ proto ≠ "https".toList
  | some 'm' => proto ≠ "mmap".toList
  | some 't' | some 's' | some 'u' | some 'b' => false
  | some 'w' => proto ≠ "wss".toList ∧ proto ≠ "ws".toList
  | _ => url ≠ "-".toList

/-- Where the process runs, what its files can take, and what is behind the
URLs that are no files. -/
structure Surroundings where
  cwd : Path
  currUserHomeDir : CString
  /-- `open` for writing is refused, whatever stands there -/
  refuses : Path → Bool
  /-- how much of a text fits into a file, where not everything does -/
  room : Path → Option Nat
  /-- what a reader of such a URL gets, if it opens -/
  fetch : CString → Option CString

namespace Surroundings

variable (around : Surroundings)

def start (path : CString) : Path := if path.head? = some '/' then [] else around.cwd

/-- `STREAMFileOpenPrepare`. -/
def filePath (path : CString) : CString :=
  if hasPrefix "~/".toList path then mCopyStr [some around.currUserHomeDir, some (path.drop 1)]
  else path

def locate (t : Disk) (path : CString) : Option Path :=
  resolve t (around.start path) (path.splitOn '/')

def contents (t : Disk) (path : CString) : Option CString :=
  (around.locate t path).bind (readFile t)

def place (t : Disk) (path : CString) : Option Path :=
  openCreate t (around.start path) (path.splitOn '/')

/-- The file that `STREAMOpen(url, "w")` creates or truncates. -/
def opened (t : Disk) (url : CString) : Option Path :=
  if url ≠ [] ∧ opensFile url then
    (around.place t (around.filePath url)).filter fun p => !around.refuses p
  else none

/-- What of a text gets into a file. -/
def arrived (p : Path) (text : CString) : CString :=
  match around.room p with
  | some length => text.take length
  | none => text

/-- `STREAMOpen(url, "r")`: all that can be read, unless it fails. -/
def streamRead (url : CString) (t : Disk) : Option CString :=
  if url = [] then none
  else if opensFile url then around.contents t (around.filePath url)
  else around.fetch url

/-- `STREAMOpen(url, "w")`, and `text` written to the stream. -/
def streamWrite (url text : CString) (t : Disk) : Disk :=
  match around.opened t url with
  | some p => t.put p (.file (around.arrived p text))
  | none => t

def isFile (t : Disk) (url : CString) (p : Path) : Bool :=
  opensFile url && around.locate t (around.filePath url) == some p

/-- `FileCopy`; a file copied to itself is empty once it is open for writing. -/
def fileCopy (src dest : CString) (t : Disk) : Disk :=
  match around.streamRead src t, around.opened t dest with
  | some text, some p =>
      t.put p (.file (around.arrived p (if around.isFile t src p then [] else text)))
  | _, _ => t

theorem contents_grows {around : Surroundings} {t u : Disk} (grows : Grows t u)
    {path text : CString} (found : around.contents t path = some text) :
    around.contents u path = some text := by
  obtain ⟨q, leads, read⟩ := Option.bind_eq_some_iff.mp found
  obtain ⟨e, entry, holds⟩ := Option.map_eq_some_iff.mp read
  rw [contents, locate, grows.resolve leads, Option.bind_some, readFile, grows q e entry]
  exact congrArg some holds

section Put

variable {around} {t : Disk} {p : Path} {path url text : CString}

theorem vacant_of_opened (found : around.opened t url = some p) : Vacant t p := by
  unfold opened at found
  split at found
  · exact vacant_of_openCreate (Option.filter_eq_some_iff.mp found).1
  · cases found

theorem contents_put (vacant : Vacant t p) :
    around.contents (t.put p (.file text)) path =
      if around.place t path = some p then some text else around.contents t path := by
  have nonempty := List.splitOn_ne_nil '/' path
  rw [contents, locate, vacant.resolve_put nonempty]
  split
  next here =>
    rw [place, if_pos here, Option.bind_some, readFile, vacant.entry_put, if_pos rfl]
    rfl
  next elsewhere =>
    rw [place, if_neg elsewhere, contents, locate]
    refine Option.bind_congr fun q leads => ?_
    rw [readFile, readFile, vacant.entry_put, if_neg]
    rintro rfl
    exact elsewhere (openCreate_of_resolve nonempty leads vacant.noDir)

theorem contents_opened (found : around.opened t url = some p) (plain : around.filePath url = url) :
    around.contents (t.put p (.file text)) url = some text := by
  rw [contents_put (vacant_of_opened found), if_pos]
  unfold opened at found
  split at found
  · rw [plain] at found
    exact (Option.filter_eq_some_iff.mp found).1
  · cases found

theorem isFile_put (vacant : Vacant t p) {q : Path} (different : p ≠ q) :
    around.isFile (t.put p (.file text)) url q = around.isFile t url q := by
  unfold isFile locate
  rw [vacant.resolve_put (List.splitOn_ne_nil '/' _)]
  split
  next here =>
    have elsewhere : resolve t (around.start (around.filePath url))
        ((around.filePath url).splitOn '/') ≠ some q :=
      fun leads => different (resolve_of_openCreate here leads).symm
    rw [beq_eq_false_iff_ne.mpr elsewhere,
      beq_eq_false_iff_ne.mpr fun same => different (Option.some.inj same)]
  next => rfl

/-- A disk once these files are written, the first of them last. -/
def withFiles (files : List (Path × CString)) (t : Disk) : Disk :=
  files.foldr (fun file t => t.put file.1 (.file file.2)) t

variable {files : List (Path × CString)}

theorem vacant_withFiles (vacant : ∀ file ∈ files, Vacant t file.1) (free : Vacant t p) :
    Vacant (withFiles files t) p := by
  induction files generalizing p with
  | nil => exact free
  | cons file files inductionHypothesis =>
      obtain ⟨first, others⟩ := List.forall_mem_cons.mp vacant
      exact (inductionHypothesis others first).put (inductionHypothesis others free)

theorem place_withFiles (vacant : ∀ file ∈ files, Vacant t file.1) :
    around.place (withFiles files t) path = around.place t path := by
  induction files with
  | nil => rfl
  | cons file files inductionHypothesis =>
      obtain ⟨first, others⟩ := List.forall_mem_cons.mp vacant
      exact (vacant_withFiles others first).openCreate_put.trans (inductionHypothesis others)

theorem opened_withFiles (vacant : ∀ file ∈ files, Vacant t file.1) :
    around.opened (withFiles files t) url = around.opened t url := by
  simp only [opened, place_withFiles vacant]

theorem isFile_withFiles (vacant : ∀ file ∈ files, Vacant t file.1)
    (different : ∀ file ∈ files, file.1 ≠ p) :
    around.isFile (withFiles files t) url p = around.isFile t url p := by
  induction files with
  | nil => rfl
  | cons file files inductionHypothesis =>
      obtain ⟨first, others⟩ := List.forall_mem_cons.mp vacant
      obtain ⟨apart, othersApart⟩ := List.forall_mem_cons.mp different
      exact (isFile_put (vacant_withFiles others first) apart).trans
        (inductionHypothesis others othersApart)

variable (around) in
def leadsTo (files : List (Path × CString)) (t : Disk) (url : CString) : Option (Path × CString) :=
  files.find? fun file => opensFile url && around.place t (around.filePath url) == some file.1

/-- What is read once these files are written. -/
theorem streamRead_withFiles (vacant : ∀ file ∈ files, Vacant t file.1) (nonempty : url ≠ []) :
    around.streamRead url (withFiles files t) =
      match around.leadsTo files t url with
      | some file => some file.2
      | none => around.streamRead url t := by
  unfold leadsTo streamRead
  rw [if_neg nonempty, if_neg nonempty]
  by_cases isFile : opensFile url = true
  · simp only [isFile, if_true, Bool.true_and]
    induction files with
    | nil => rfl
    | cons file files inductionHypothesis =>
        obtain ⟨first, others⟩ := List.forall_mem_cons.mp vacant
        have written := @contents_put around _ _ (around.filePath url) file.2
          (vacant_withFiles others first)
        rw [place_withFiles others, inductionHypothesis others] at written
        refine written.trans ?_
        by_cases here : around.place t (around.filePath url) = some file.1
        · simp [here]
        · simp [here, List.find?_cons_of_neg]
  · have none : files.find? (fun _ => false) = .none := List.find?_eq_none.mpr (by simp)
    simp [isFile, none]

end Put

end Surroundings

/-- `StrRTruncChar`. -/
def strRTruncChar (s : CString) (term : Char) : CString :=
  if term ∈ s then (s.rdropWhile (· ≠ term)).dropLast else s

theorem strRTruncChar_append {term : Char} (front : CString) {behind : CString}
    (apart : term ∉ behind) : strRTruncChar (front ++ term :: behind) term = front := by
  have others : ∀ c ∈ behind.reverse, (decide (c ≠ term)) = true := by
    intro c membership
    rw [decide_eq_true_eq]
    rintro rfl
    exact apart (List.mem_reverse.mp membership)
  rw [strRTruncChar, if_pos (by simp), List.rdropWhile, List.reverse_append, List.reverse_cons,
    List.append_assoc, List.dropWhile_append_of_pos (by simpa using others)]
  simp

end VpnMgr.LibUseful
