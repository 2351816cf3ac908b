import VpnMgr.LibUseful.FileSystem

/-!
# Directories with symbolic links

`FileSystemRmDir` where a name may stand for a link.  The kernel follows links
on its way and `glob` opens directories through them, but `lstat`, `unlink` and
`rmdir` do not follow a link in the last place.
-/

namespace VpnMgr.LibUseful.Links

open VpnMgr.Machine VpnMgr.Text CString

/-- What a name stands for, if not for a directory. -/
inductive Leaf where
  | regular (content : CString)
  | link (target : CString)
  deriving DecidableEq

abbrev LinkDisk := FileTree ProperName Leaf

/-- The walk along a path name up to a link that has to be followed, from where
it goes on with `jump`.  A link in the last place is followed if `follow` is set. -/
def walk (t : LinkDisk) (follow : Bool) (jump : Path → List CString → Option Path) :
    Path → List CString → Option Path
  | cur, [] => some cur
  | cur, name :: rest =>
      if !t.isDir cur then none
      else if name = [] then walk t follow jump cur rest
      else
        match t.entry (descend cur name) with
        | none => none
        | some (.file (.link target)) =>
            if rest = [] ∧ follow = false then some (descend cur name)
            else jump (if target.head? = some '/' then [] else cur) (target.splitOn '/' ++ rest)
        | some _ => walk t follow jump (descend cur name) rest

/-- The kernel's walk along a path name, with so many links on the way at most. -/
def resolve (t : LinkDisk) (follow : Bool) : Nat → Path → List CString → Option Path
  | 0 => walk t follow fun _ _ => none
  | links + 1 => walk t follow (resolve t follow links)

/-- One more link is `ELOOP`. -/
def maxSymlinks : Nat := 40

def locate (t : LinkDisk) (follow : Bool) (name : List CString) : Option Path :=
  resolve t follow maxSymlinks [] name

def lstat (t : LinkDisk) (name : List CString) : Option (FileEntry Leaf) :=
  (locate t false name).bind t.entry

def opendir (t : LinkDisk) (name : List CString) : Option Path :=
  (locate t true name).filter (t.isDir ·)

def unlink (t : LinkDisk) (name : List CString) : LinkDisk :=
  match locate t false name with
  | some p => if t.isDir p then t else t.remove p
  | none => t

/-- The directory that `rmdir` would remove; slashes at the end do not make it
follow a link, and a path name that ends in `.` is refused. -/
def rmdirTarget (t : LinkDisk) (name : List CString) : Option Path :=
  let named := name.rdropWhile (· = [])
  if named.getLast? = some ".".toList then none else (locate t false named).filter (t.isDir ·)

def rmdir (t : LinkDisk) (name : List CString) : LinkDisk :=
  match rmdirTarget t name with
  | some p => t.remove p
  | none => t

/-- The path names that a pattern matches, behind the part that was found. -/
def globFrom (t : LinkDisk) : (found pattern : List CString) → List (List CString)
  | found, [] => [found]
  | found, pattern :: rest =>
      match opendir t found with
      | none => []
      | some cur =>
          if pattern = [] then globFrom t (found ++ [[]]) rest
          else ((readdir t cur).filter (fnmatch pattern)).flatMap fun name =>
            globFrom t (found ++ [name]) rest

def glob (t : LinkDisk) (pattern : List CString) : List (List CString) :=
  (globFrom t [] pattern).insertionSort fun a b => collates (pathText a) (pathText b) = true

def unMountPaths (mountPoint : List CString) (depth maxDepth : Nat) (t : LinkDisk) :
    List (List CString) :=
  if maxDepth = 0 ∨ depth ≤ maxDepth then glob t (mountPoint ++ [['*']]) else []

/-- `FileSystemUnMountFlagsDepth` with the flags of `FileSystemRmDir`. -/
def fileSystemUnMountFlagsDepth :
    (fuel : Nat) → (mountPoint : List CString) → (depth maxDepth : Nat) → LinkDisk → LinkDisk
  | 0, _, _, _, t => t
  | fuel + 1, mountPoint, depth, maxDepth, t =>
      let maxDepth := kernelMaxDepth mountPoint maxDepth
      rmdir
        ((unMountPaths mountPoint depth maxDepth t).foldl
          (fun t path =>
            match lstat t path with
            | some .directory => fileSystemUnMountFlagsDepth fuel path (depth + 1) maxDepth t
            | some (.file _) => unlink t path
            | none => t)
          t)
        mountPoint

/-- `FileSystemRmDir`. -/
def fileSystemRmDir (fuel : Nat) (dir : CString) (t : LinkDisk) : LinkDisk :=
  fileSystemUnMountFlagsDepth fuel (dir.splitOn '/') 0 0 t

/-! ## Where a path name leads -/

inductive Leads (t : LinkDisk) (follow : Bool) : Nat → Path → List CString → Path → Prop
  | done {links : Nat} (cur : Path) : Leads t follow links cur [] cur
  | skip {links : Nat} {cur p : Path} {rest : List CString} (isDir : t.isDir cur = true) :
      Leads t follow links cur rest p → Leads t follow links cur ([] :: rest) p
  | step {links : Nat} {cur p : Path} {name : CString} {rest : List CString} {e : FileEntry Leaf}
      (isDir : t.isDir cur = true) (nonempty : name ≠ [])
      (found : t.entry (descend cur name) = some e) (noLink : ∀ target, e ≠ .file (.link target)) :
      Leads t follow links (descend cur name) rest p → Leads t follow links cur (name :: rest) p
  | last {links : Nat} {cur : Path} {name target : CString} (isDir : t.isDir cur = true)
      (nonempty : name ≠ [])
      (found : t.entry (descend cur name) = some (.file (.link target)))
      (notFollowed : follow = false) : Leads t follow links cur [name] (descend cur name)
  | jump {links : Nat} {cur p : Path} {name target : CString} {rest : List CString}
      (isDir : t.isDir cur = true) (nonempty : name ≠ [])
      (found : t.entry (descend cur name) = some (.file (.link target)))
      (followed : ¬ (rest = [] ∧ follow = false)) :
      Leads t follow links (if target.head? = some '/' then [] else cur)
        (target.splitOn '/' ++ rest) p →
      Leads t follow (links + 1) cur (name :: rest) p

section Walks

variable {t u : LinkDisk} {follow : Bool} {jump : Path → List CString → Option Path}
  {cur p q : Path} {front behind name : List CString} {c : CString} {links : Nat}

theorem leads_of_walk
    (jumps : ∀ cur name, jump cur name = some p →
      ∃ fewer, links = fewer + 1 ∧ Leads t follow fewer cur name p)
    (found : walk t follow jump cur name = some p) : Leads t follow links cur name p := by
  induction name generalizing cur with
  | nil =>
      obtain rfl := Option.some.inj found
      exact .done cur
  | cons first rest inductionHypothesis =>
      rw [walk] at found
      cases isDir : t.isDir cur with
      | false => simp [isDir] at found
      | true =>
          rw [isDir, Bool.not_true, if_neg Bool.false_ne_true] at found
          split at found
          next empty => exact empty ▸ .skip isDir (inductionHypothesis found)
          next nonempty =>
            split at found
            next => cases found
            next target isLink =>
              split at found
              next isLast =>
                obtain ⟨rfl, notFollowed⟩ := isLast
                obtain rfl := Option.some.inj found
                exact .last isDir nonempty isLink notFollowed
              next followed =>
                obtain ⟨fewer, rfl, leads⟩ := jumps _ _ found
                exact .jump isDir nonempty isLink followed leads
            next e noLink isNode => exact .step isDir nonempty isNode noLink (inductionHypothesis found)

theorem resolve_leads (found : resolve t follow links cur name = some p) :
    Leads t follow links cur name p := by
  induction links generalizing cur name with
  | zero => exact leads_of_walk (fun _ _ none => by cases none) found
  | succ links inductionHypothesis =>
      exact leads_of_walk (fun _ _ found => ⟨links, rfl, inductionHypothesis found⟩) found

theorem Leads.resolve (leads : Leads t follow links cur name p) :
    resolve t follow links cur name = some p := by
  induction leads with
  | @done links cur => cases links <;> rfl
  | @skip links cur p rest isDir _ inductionHypothesis =>
      cases links <;> simpa [Links.resolve, walk, isDir] using inductionHypothesis
  | @step links cur p name rest e isDir nonempty found noLink _ inductionHypothesis =>
      cases links <;> (simp only [Links.resolve, walk, isDir, nonempty, found] at *; split <;> simp_all)
  | @last links cur name target isDir nonempty found notFollowed =>
      cases links <;> simp [Links.resolve, walk, isDir, nonempty, found, notFollowed]
  | @jump links cur p name target rest isDir nonempty found followed _ inductionHypothesis =>
      simpa [Links.resolve, walk, isDir, nonempty, found, followed] using inductionHypothesis

theorem resolve_eq_some_iff :
    resolve t follow links cur name = some p ↔ Leads t follow links cur name p :=
  ⟨resolve_leads, Leads.resolve⟩

/-- Without its last text a path name leads to the directory that holds it. -/
theorem Leads.parent (leads : Leads t false links cur (front ++ [c]) q) (nonempty : c ≠ []) :
    ∃ d, Leads t true links cur front d ∧ t.isDir d = true ∧ q = descend d c := by
  generalize whole : front ++ [c] = name at leads
  induction leads generalizing front with
  | done => simp at whole
  | skip isDir _ inductionHypothesis =>
      cases front with
      | nil => exact absurd (List.cons.inj whole).1 nonempty
      | cons first front =>
          obtain ⟨rfl, rfl⟩ := List.cons.inj whole
          obtain ⟨d, leads, here⟩ := inductionHypothesis rfl
          exact ⟨d, .skip isDir leads, here⟩
  | @step links cur p name rest e isDir named found noLink behind inductionHypothesis =>
      cases front with
      | nil =>
          obtain ⟨rfl, rfl⟩ := List.cons.inj whole
          cases behind
          exact ⟨cur, .done cur, isDir, rfl⟩
      | cons first front =>
          obtain ⟨rfl, rfl⟩ := List.cons.inj whole
          obtain ⟨d, leads, here⟩ := inductionHypothesis rfl
          exact ⟨d, .step isDir named found noLink leads, here⟩
  | @last links cur name target isDir named found _ =>
      cases front with
      | nil =>
          obtain ⟨rfl, -⟩ := List.cons.inj whole
          exact ⟨cur, .done cur, isDir, rfl⟩
      | cons first front => simp at whole
  | jump isDir named found followed _ inductionHypothesis =>
      cases front with
      | nil => exact absurd ⟨(List.cons.inj whole).2.symm, rfl⟩ followed
      | cons first front =>
          obtain ⟨rfl, rfl⟩ := List.cons.inj whole
          obtain ⟨d, leads, here⟩ := inductionHypothesis (List.append_assoc _ _ _)
          exact ⟨d, .jump isDir named found (by simp) leads, here⟩

theorem Leads.child {d : Path} {e : FileEntry Leaf} (leads : Leads t true links cur front d)
    (isDir : t.isDir d = true) (nonempty : c ≠ []) (found : t.entry (descend d c) = some e) :
    Leads t false links cur (front ++ [c]) (descend d c) := by
  induction leads with
  | done cur =>
      by_cases isLink : ∃ target, e = .file (.link target)
      · obtain ⟨target, rfl⟩ := isLink
        exact .last isDir nonempty found rfl
      · exact .step isDir nonempty found (not_exists.mp isLink) (.done _)
  | skip here _ inductionHypothesis => exact .skip here (inductionHypothesis isDir found)
  | step here named isNode noLink _ inductionHypothesis =>
      exact .step here named isNode noLink (inductionHypothesis isDir found)
  | last _ _ _ notFollowed => cases notFollowed
  | jump here named isLink _ _ inductionHypothesis =>
      have further := inductionHypothesis isDir found
      rw [List.append_assoc] at further
      exact .jump here named isLink (by simp) further

/-- A path name leads on from where its front leads. -/
theorem Leads.split (leads : Leads t true links cur (front ++ behind) p) :
    ∃ fewer d, Leads t true links cur front d ∧ Leads t true fewer d behind p := by
  generalize whole : front ++ behind = name at leads
  induction leads generalizing front with
  | @done links cur =>
      obtain ⟨rfl, rfl⟩ := List.append_eq_nil_iff.mp whole
      exact ⟨links, cur, .done cur, .done cur⟩
  | @skip links cur p rest isDir leads inductionHypothesis =>
      cases front with
      | nil =>
          obtain rfl : behind = [] :: rest := whole
          exact ⟨links, cur, .done cur, .skip isDir leads⟩
      | cons first front =>
          obtain ⟨rfl, rfl⟩ := List.cons.inj whole
          obtain ⟨fewer, d, here, further⟩ := inductionHypothesis rfl
          exact ⟨fewer, d, .skip isDir here, further⟩
  | @step links cur p name rest e isDir named found noLink leads inductionHypothesis =>
      cases front with
      | nil =>
          obtain rfl : behind = name :: rest := whole
          exact ⟨links, cur, .done cur, .step isDir named found noLink leads⟩
      | cons first front =>
          obtain ⟨rfl, rfl⟩ := List.cons.inj whole
          obtain ⟨fewer, d, here, further⟩ := inductionHypothesis rfl
          exact ⟨fewer, d, .step isDir named found noLink here, further⟩
  | last _ _ _ notFollowed => cases notFollowed
  | @jump links cur p name target rest isDir named found followed leads inductionHypothesis =>
      cases front with
      | nil =>
          obtain rfl : behind = name :: rest := whole
          exact ⟨links + 1, cur, .done cur, .jump isDir named found followed leads⟩
      | cons first front =>
          obtain ⟨rfl, rfl⟩ := List.cons.inj whole
          obtain ⟨fewer, d, here, further⟩ := inductionHypothesis (List.append_assoc _ _ _)
          exact ⟨fewer, d, .jump isDir named found (by simp) here, further⟩

theorem Leads.followed (leads : Leads t false links cur name p) (isDir : t.isDir p = true) :
    Leads t true links cur name p := by
  induction leads with
  | done cur => exact .done cur
  | skip here _ inductionHypothesis => exact .skip here (inductionHypothesis isDir)
  | step here named found noLink _ inductionHypothesis =>
      exact .step here named found noLink (inductionHypothesis isDir)
  | last _ _ found _ =>
      rw [FileTree.isDir_iff, found] at isDir
      cases isDir
  | jump here named found _ _ inductionHypothesis =>
      exact .jump here named found (by simp) (inductionHypothesis isDir)

theorem isDir_of_shrinks (shrinks : Shrinks t u) (isDir : u.isDir p = true) : t.isDir p = true :=
  FileTree.isDir_iff.mpr (shrinks p _ (FileTree.isDir_iff.mp isDir))

theorem Leads.of_shrinks (shrinks : Shrinks t u) (leads : Leads u follow links cur name p) :
    Leads t follow links cur name p := by
  induction leads with
  | done cur => exact .done cur
  | skip isDir _ inductionHypothesis => exact .skip (isDir_of_shrinks shrinks isDir) inductionHypothesis
  | step isDir named found noLink _ inductionHypothesis =>
      exact .step (isDir_of_shrinks shrinks isDir) named (shrinks _ _ found) noLink inductionHypothesis
  | last isDir named found notFollowed =>
      exact .last (isDir_of_shrinks shrinks isDir) named (shrinks _ _ found) notFollowed
  | jump isDir named found followed _ inductionHypothesis =>
      exact .jump (isDir_of_shrinks shrinks isDir) named (shrinks _ _ found) followed
        inductionHypothesis

theorem locate_eq_some_iff :
    locate t follow name = some p ↔ Leads t follow maxSymlinks [] name p := resolve_eq_some_iff

theorem opendir_eq_some_iff :
    opendir t name = some p ↔ Leads t true maxSymlinks [] name p ∧ t.isDir p = true := by
  rw [opendir, Option.filter_eq_some_iff, locate_eq_some_iff]

theorem locate_of_shrinks (shrinks : Shrinks t u) (found : locate u follow name = some p) :
    locate t follow name = some p :=
  locate_eq_some_iff.mpr ((locate_eq_some_iff.mp found).of_shrinks shrinks)

theorem opendir_of_shrinks (shrinks : Shrinks t u) (opened : opendir u name = some p) :
    opendir t name = some p :=
  have ⟨leads, isDir⟩ := opendir_eq_some_iff.mp opened
  opendir_eq_some_iff.mpr ⟨leads.of_shrinks shrinks, isDir_of_shrinks shrinks isDir⟩

theorem lstat_of_shrinks {e : FileEntry Leaf} (shrinks : Shrinks t u) (found : lstat u name = some e) :
    lstat t name = some e := by
  obtain ⟨p, here, isNode⟩ := Option.bind_eq_some_iff.mp found
  exact Option.bind_eq_some_iff.mpr ⟨p, locate_of_shrinks shrinks here, shrinks _ _ isNode⟩

theorem rmdirTarget_of_shrinks (shrinks : Shrinks t u) (found : rmdirTarget u name = some p) :
    rmdirTarget t name = some p := by
  unfold rmdirTarget at found ⊢
  dsimp only at found ⊢
  split at found
  case isTrue => cases found
  case isFalse notDot =>
    rw [if_neg notDot]
    obtain ⟨here, isDir⟩ := Option.filter_eq_some_iff.mp found
    exact Option.filter_eq_some_iff.mpr
      ⟨locate_of_shrinks shrinks here, isDir_of_shrinks shrinks isDir⟩

end Walks

/-- A pattern matches a path name, behind the part that was found. -/
inductive Matches (t : LinkDisk) : List CString → List CString → List CString → Prop
  | done (found : List CString) : Matches t found [] found
  | skip {found rest name : List CString} {cur : Path} (opened : opendir t found = some cur) :
      Matches t (found ++ [[]]) rest name → Matches t found ([] :: rest) name
  | step {found rest name : List CString} {pattern : CString} {cur : Path} (c : CString)
      (opened : opendir t found = some cur) (nonempty : pattern ≠ []) (listed : c ∈ readdir t cur)
      (matched : fnmatch pattern c = true) :
      Matches t (found ++ [c]) rest name → Matches t found (pattern :: rest) name

/-- `glob` opens the directory to match what stands behind the pattern. -/
def Opens (t : LinkDisk) (pattern : List CString) (p : Path) : Prop :=
  ∃ name, Matches t [] pattern name ∧ opendir t name = some p

section Patterns

variable {t u : LinkDisk} {found pattern name : List CString} {p : Path} {c last : CString}

theorem mem_globFrom : name ∈ globFrom t found pattern ↔ Matches t found pattern name := by
  induction pattern generalizing found with
  | nil =>
      rw [globFrom, List.mem_singleton]
      constructor
      · rintro rfl
        exact .done _
      · rintro ⟨⟩
        rfl
  | cons first rest inductionHypothesis =>
      rw [globFrom]
      split
      next closed =>
        refine iff_of_false List.not_mem_nil ?_
        rintro (_ | ⟨opened, _⟩ | ⟨_, opened, _⟩) <;> simp [closed] at opened
      next cur opened =>
        by_cases empty : first = []
        · rw [if_pos empty, inductionHypothesis]
          constructor
          · exact fun matches' => empty ▸ .skip opened matches'
          · rintro (_ | ⟨_, matches'⟩ | ⟨_, _, nonempty, _⟩)
            · exact matches'
            · exact absurd empty nonempty
        · simp only [if_neg empty, List.mem_flatMap, List.mem_filter, inductionHypothesis]
          constructor
          · rintro ⟨c, ⟨listed, matched⟩, matches'⟩
            exact .step c opened empty listed matched matches'
          · rintro (_ | _ | ⟨c, here, _, listed, matched, matches'⟩)
            · exact absurd rfl empty
            · obtain rfl := Option.some.inj (opened.symm.trans here)
              exact ⟨c, ⟨listed, matched⟩, matches'⟩

theorem mem_glob : name ∈ glob t pattern ↔ Matches t [] pattern name := by
  rw [glob, List.mem_insertionSort, mem_globFrom]

theorem readdir_of_shrinks (shrinks : Shrinks t u) (listed : c ∈ readdir u p) : c ∈ readdir t p := by
  simp only [readdir, List.mem_cons, FileTree.mem_children, Option.isSome_iff_exists] at listed ⊢
  refine listed.imp_right fun listed => listed.imp_right fun found => ?_
  obtain ⟨e, isNode⟩ := found
  exact ⟨e, shrinks _ _ isNode⟩

theorem Matches.of_shrinks (shrinks : Shrinks t u) (matches' : Matches u found pattern name) :
    Matches t found pattern name := by
  induction matches' with
  | done found => exact .done found
  | skip opened _ inductionHypothesis =>
      exact .skip (opendir_of_shrinks shrinks opened) inductionHypothesis
  | step c opened nonempty listed matched _ inductionHypothesis =>
      exact .step c (opendir_of_shrinks shrinks opened) nonempty (readdir_of_shrinks shrinks listed)
        matched inductionHypothesis

theorem Matches.plain (matches' : Matches t found pattern name)
    (plain : ∀ c ∈ pattern, ∀ ch ∈ c, isPatternPlain ch = true) : name = found ++ pattern := by
  induction matches' with
  | done found => simp
  | skip _ _ inductionHypothesis =>
      simpa using inductionHypothesis fun c member => plain c (List.mem_cons_of_mem _ member)
  | step c _ _ _ matched _ inductionHypothesis =>
      obtain rfl := (fnmatch_plain c (plain _ List.mem_cons_self)).mp matched
      simpa using inductionHypothesis fun c member => plain c (List.mem_cons_of_mem _ member)

theorem matches_concat_iff (nonempty : last ≠ []) :
    Matches t found (pattern ++ [last]) name ↔ ∃ front cur c, Matches t found pattern front ∧
      opendir t front = some cur ∧ c ∈ readdir t cur ∧ fnmatch last c = true ∧
      name = front ++ [c] := by
  induction pattern generalizing found with
  | nil =>
      constructor
      · rintro (_ | _ | ⟨c, opened, _, listed, matched, ⟨⟩⟩)
        · exact absurd rfl nonempty
        · exact ⟨found, _, c, .done found, opened, listed, matched, rfl⟩
      · rintro ⟨_, cur, c, ⟨⟩, opened, listed, matched, rfl⟩
        exact .step c opened nonempty listed matched (.done _)
  | cons first rest inductionHypothesis =>
      constructor
      · rintro (_ | ⟨opened, later⟩ | ⟨c, opened, named, listed, matched, later⟩)
        · obtain ⟨front, cur, c, matches', here⟩ := inductionHypothesis.mp later
          exact ⟨front, cur, c, .skip opened matches', here⟩
        · obtain ⟨front, cur, c', matches', here⟩ := inductionHypothesis.mp later
          exact ⟨front, cur, c', .step c opened named listed matched matches', here⟩
      · rintro ⟨front, cur, c, matches', here⟩
        cases matches' with
        | skip opened later => exact .skip opened (inductionHypothesis.mpr ⟨front, cur, c, later, here⟩)
        | step c' opened named listed matched later =>
            exact .step c' opened named listed matched
              (inductionHypothesis.mpr ⟨front, cur, c, later, here⟩)

theorem proper_of_child (isChild : c ∈ t.children p) : ProperName c :=
  have ⟨_, found⟩ := Option.isSome_iff_exists.mp (FileTree.mem_children.mp isChild)
  FileTree.entry_valid found c (by simp)

theorem mem_glob_star : name ∈ glob t (pattern ++ [['*']]) ↔ ∃ front cur c,
    Matches t [] pattern front ∧ opendir t front = some cur ∧ c ∈ t.children cur ∧
      c.head? ≠ some '.' ∧ name = front ++ [c] := by
  have star (c : CString) : fnmatch ['*'] c = true ↔ c.head? ≠ some '.' := by
    simpa using @fnmatch_star [] c (by simp)
  rw [mem_glob, matches_concat_iff (List.cons_ne_nil _ _)]
  simp only [star, readdir, List.mem_cons]
  constructor
  · rintro ⟨front, cur, c, matches', opened, listed, visible, rfl⟩
    rcases listed with rfl | rfl | listed
    · exact absurd rfl visible
    · exact absurd rfl visible
    · exact ⟨front, cur, c, matches', opened, listed, visible, rfl⟩
  · rintro ⟨front, cur, c, matches', opened, listed, visible, rfl⟩
    exact ⟨front, cur, c, matches', opened, .inr (.inr listed), visible, rfl⟩

end Patterns

end VpnMgr.LibUseful.Links
