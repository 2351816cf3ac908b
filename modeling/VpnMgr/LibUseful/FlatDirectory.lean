import VpnMgr.LibUseful.FileAccess

/-!
# Directories of files

What `glob` lists behind a path that stands for itself, and the removal of a
directory that holds visible files only.
-/

namespace VpnMgr.LibUseful

open VpnMgr.Machine VpnMgr.Text CString

/-- A name without pattern characters. -/
structure LiteralName (name : CString) : Prop where
  proper : ProperName name
  plain : ∀ c ∈ name, isPatternPlain c = true

/-- It is not left out by `*`. -/
def Visible (name : CString) : Prop := name.head? ≠ some '.'

section Glob

variable {t : Disk} {cur dir : Path} {behind tail : List CString}

theorem listed_of_entry {name : CString} (present : (t.entry (cur ++ [name])).isSome = true) :
    name ∈ readdir t cur :=
  List.mem_cons_of_mem _ (List.mem_cons_of_mem _ (FileTree.mem_children.mpr present))

theorem Walks.literal {name : List CString} (literal : ∀ c ∈ dir, LiteralName c)
    (walks : Walks t cur (dir ++ behind) name) :
    ∃ tail, name = dir ++ tail ∧ Walks t (cur ++ dir) behind tail := by
  induction dir generalizing cur name with
  | nil => exact ⟨name, rfl, by simpa using walks⟩
  | cons first rest inductionHypothesis =>
      obtain ⟨proper, plain⟩ := literal first (by simp)
      obtain ⟨-, here, tail, rfl, goes⟩ := walks
      rw [if_neg proper.nonempty] at goes
      obtain ⟨-, matched, goes⟩ := goes
      obtain rfl := (fnmatch_plain here plain).mp matched
      rw [descend_proper proper] at goes
      obtain ⟨last, rfl, further⟩ := inductionHypothesis
        (fun c membership => literal c (by simp [membership])) goes
      exact ⟨last, rfl, by simpa using further⟩

/-- A walk along such names. -/
theorem walks_literal_iff (literal : ∀ c ∈ dir, LiteralName c) (isDir : t.isDir (cur ++ dir) = true)
    (name : List CString) :
    Walks t cur (dir ++ behind) name ↔
      ∃ tail, name = dir ++ tail ∧ Walks t (cur ++ dir) behind tail := by
  constructor
  · exact Walks.literal literal
  · rintro ⟨tail, rfl, walks⟩
    induction dir generalizing cur with
    | nil => simpa using walks
    | cons first rest inductionHypothesis =>
        have proper := (literal first (by simp)).proper
        have longer : cur ++ first :: rest = cur ++ [first] ++ rest := by simp
        rw [longer] at isDir walks
        have here : t.isDir (cur ++ [first]) = true :=
          FileTree.isDir_of_prefix (List.prefix_append _ _) isDir
        refine ⟨FileTree.isDir_of_prefix (List.prefix_append _ _) here, first, rest ++ tail, rfl, ?_⟩
        rw [if_neg proper.nonempty, descend_proper proper]
        refine ⟨?_, (fnmatch_plain first (literal first (by simp)).plain).mpr rfl, ?_⟩
        · refine listed_of_entry ?_
          rw [FileTree.isDir_iff.mp here]
          rfl
        · exact inductionHypothesis (fun c membership => literal c (by simp [membership])) isDir walks

theorem walks_empty_iff (name : List CString) : Walks t cur ([] :: behind) name ↔
    t.isDir cur = true ∧ ∃ tail, name = [] :: tail ∧ Walks t cur behind tail := by
  simp only [Walks, if_true]
  refine and_congr_right fun _ => ⟨?_, ?_⟩
  · rintro ⟨_, tail, rfl, rfl, walks⟩
    exact ⟨tail, rfl, walks⟩
  · rintro ⟨tail, rfl, walks⟩
    exact ⟨[], tail, rfl, rfl, walks⟩

theorem listed_visible_iff {name : CString} (visible : Visible name) :
    name ∈ readdir t cur ↔ (t.entry (cur ++ [name])).isSome = true := by
  refine ⟨fun listed => ?_, listed_of_entry⟩
  rcases List.mem_cons.mp listed with rfl | listed
  · exact absurd rfl visible
  rcases List.mem_cons.mp listed with rfl | listed
  · exact absurd rfl visible
  · exact FileTree.mem_children.mp listed

/-- A step by `*` and a plain text behind it. -/
theorem walks_star_iff {suffix : CString} (plain : ∀ c ∈ suffix, isPatternPlain c = true)
    (name : List CString) :
    Walks t cur (('*' :: suffix) :: behind) name ↔
      t.isDir cur = true ∧ ∃ first tail, name = first :: tail ∧ Visible first ∧
        suffix <:+ first ∧ (t.entry (cur ++ [first])).isSome = true ∧
          Walks t (cur ++ [first]) behind tail := by
  have nonempty : ('*' :: suffix) ≠ [] := List.cons_ne_nil _ _
  simp only [Walks, if_neg nonempty, fnmatch_star _ plain]
  refine and_congr_right fun isDir => exists_congr fun first => exists_congr fun tail => ?_
  refine and_congr_right fun _ => ?_
  constructor
  · rintro ⟨listed, ⟨visible, ends⟩, walks⟩
    have present := (listed_visible_iff visible).mp listed
    obtain ⟨e, found⟩ := Option.isSome_iff_exists.mp present
    rw [descend_proper (FileTree.entry_valid found first (by simp))] at walks
    exact ⟨visible, ends, present, walks⟩
  · rintro ⟨visible, ends, present, walks⟩
    obtain ⟨e, found⟩ := Option.isSome_iff_exists.mp present
    refine ⟨(listed_visible_iff visible).mpr present, ⟨visible, ends⟩, ?_⟩
    rwa [descend_proper (FileTree.entry_valid found first (by simp))]

theorem readdir_nodup (t : Disk) (cur : Path) : (readdir t cur).Nodup := by
  have proper : ∀ name ∈ t.children cur, ProperName name := by
    intro name listed
    obtain ⟨e, found⟩ := Option.isSome_iff_exists.mp (FileTree.mem_children.mp listed)
    exact FileTree.entry_valid found name (by simp)
  rw [readdir, List.nodup_cons, List.nodup_cons, List.mem_cons, not_or]
  exact ⟨⟨by decide, fun listed => (proper _ listed).notDot rfl⟩,
    fun listed => (proper _ listed).notDots rfl, FileTree.children_nodup⟩

theorem globFrom_nodup (t : Disk) (cur : Path) (pattern : List CString) :
    (globFrom t cur pattern).Nodup := by
  induction pattern generalizing cur with
  | nil => exact List.nodup_singleton []
  | cons first rest inductionHypothesis =>
      have prefixed : ∀ (name : CString) (dir : Path),
          ((globFrom t dir rest).map (name :: ·)).Nodup := fun name dir =>
        (inductionHypothesis dir).map fun _ _ same => (List.cons.inj same).2
      simp only [globFrom]
      split
      · exact List.nodup_nil
      · split
        · exact prefixed [] cur
        · refine List.nodup_flatMap.mpr ⟨fun name _ => prefixed name _, ?_⟩
          refine List.Nodup.pairwise_of_forall_ne ((readdir_nodup t cur).filter _) ?_
          intro name _ other _ different path inFirst inSecond
          obtain ⟨tail, -, rfl⟩ := List.mem_map.mp inFirst
          obtain ⟨_, -, same⟩ := List.mem_map.mp inSecond
          exact different (List.cons.inj same).1.symm

theorem glob_nodup (t : Disk) (pattern : List CString) : (glob t pattern).Nodup :=
  (List.perm_insertionSort _ _).nodup_iff.mpr (globFrom_nodup t [] pattern)

end Glob

/-! ## Removal -/

section Removal

variable {t v : Disk} {dir : Path}

theorem foldl_clears {step : Disk → List CString → Disk} {path : List CString} {q : Path}
    (shrinks : ∀ t path, Shrinks t (step t path)) (paths : List (List CString))
    (clears : ∀ v, Shrinks t v → (step v path).entry q = none) (listed : path ∈ paths) :
    (paths.foldl step t).entry q = none := by
  obtain ⟨front, behind, rfl⟩ := List.append_of_mem listed
  rw [List.foldl_append, List.foldl_cons]
  have before := shrinks_foldl shrinks front t
  rw [Option.eq_none_iff_forall_ne_some]
  intro e found
  have cleared := shrinks_foldl shrinks behind (step (front.foldl step t) path) q e found
  rw [clears _ before] at cleared
  cases cleared

theorem resolve_file {file : CString} {names : List CString} (plain : ∀ c ∈ names, PlainStep c)
    (whole : namesIn names = dir) (present : (t.entry (dir ++ [file])).isSome = true) :
    resolve t [] (names ++ [file]) = some (dir ++ [file]) := by
  obtain ⟨e, found⟩ := Option.isSome_iff_exists.mp present
  have proper := FileTree.entry_valid found file (by simp)
  have isDir := FileTree.entry_parent found
  rw [List.dropLast_concat] at isDir
  have leads : resolve t [] names = some dir := by
    rw [resolve_plain plain (by rwa [List.nil_append, whole]), List.nil_append, whole]
  rw [resolve_append, leads, Option.bind_some]
  simp [resolve, isDir, proper.nonempty, descend_proper proper, found]

theorem lstat_file {file : CString} {names : List CString} (plain : ∀ c ∈ names, PlainStep c)
    (whole : namesIn names = dir) {e : FileEntry CString}
    (found : t.entry (dir ++ [file]) = some e) : lstat t (names ++ [file]) = some e := by
  rw [lstat, resolve_file plain whole (by rw [found]; rfl), Option.bind_some, found]

theorem entry_unlink {file content : CString} {names : List CString}
    (plain : ∀ c ∈ names, PlainStep c) (whole : namesIn names = dir)
    (found : t.entry (dir ++ [file]) = some (.file content)) :
    (unlink t (names ++ [file])).entry (dir ++ [file]) = none := by
  have noDir : t.isDir (dir ++ [file]) = false := by rw [FileTree.isDir, found]
  rw [unlink, resolve_file plain whole (by rw [found]; rfl)]
  simp only [noDir, Bool.false_eq_true, if_false]
  rw [FileTree.entry_remove, if_pos ⟨rfl, by simp, FileTree.children_of_file found⟩]

def unMountStep (fuel maxDepth : Nat) (t : Disk) (path : List CString) : Disk :=
  match lstat t path with
  | some .directory => fileSystemUnMountFlagsDepth fuel path 1 maxDepth t
  | some (.file _) => unlink t path
  | none => t

theorem unMount_eq (fuel : Nat) (name : List CString) (t : Disk) :
    fileSystemUnMountFlagsDepth (fuel + 1) name 0 0 t =
      rmdir ((glob t (name ++ [['*']])).foldl (unMountStep fuel (kernelMaxDepth name 0)) t)
        name := by
  simp only [fileSystemUnMountFlagsDepth, unMountPaths, Nat.zero_le, or_true, if_true]
  rfl

theorem shrinks_unMountStep (fuel maxDepth : Nat) (t : Disk) (path : List CString) :
    Shrinks t (unMountStep fuel maxDepth t path) := by
  unfold unMountStep
  split
  · exact shrinks_unMount fuel path _ _ t
  · exact shrinks_unlink t path
  · exact Shrinks.refl t

theorem entry_unMountStep {file content : CString} {names : List CString}
    (plain : ∀ c ∈ names, PlainStep c) (whole : namesIn names = dir) (fuel maxDepth : Nat)
    (isFile : ∀ e, t.entry (dir ++ [file]) = some e → e = .file content) :
    (unMountStep fuel maxDepth t (names ++ [file])).entry (dir ++ [file]) = none := by
  rcases found : t.entry (dir ++ [file]) with _ | e
  · rw [Option.eq_none_iff_forall_ne_some]
    intro e later
    rw [shrinks_unMountStep fuel maxDepth t _ _ e later] at found
    cases found
  · obtain rfl := isFile e found
    simp only [unMountStep, lstat_file plain whole found]
    exact entry_unlink plain whole found

/-- The path name of a directory, as `DeleteConfig` writes it. -/
def dirName (dir : Path) : List CString := [] :: dir ++ [[]]

theorem dirName_plain (literal : ∀ c ∈ dir, LiteralName c) : ∀ c ∈ dirName dir, PlainStep c := by
  intro c member
  rcases List.mem_append.mp member with inDir | last
  · rcases List.mem_cons.mp inDir with rfl | inDir
    · exact .inl rfl
    · exact .inr (literal c inDir).proper
  · exact .inl (List.mem_singleton.mp last)

theorem namesIn_dirName (literal : ∀ c ∈ dir, LiteralName c) : namesIn (dirName dir) = dir := by
  have front : namesIn ([] :: dir) = namesIn dir := List.filter_cons_of_neg (by simp)
  rw [dirName, namesIn_append, front, namesIn_proper fun c member => (literal c member).proper]
  exact List.append_nil dir

theorem mem_glob_dirName (literal : ∀ c ∈ dir, LiteralName c) {name : CString}
    (visible : Visible name) (present : (t.entry (dir ++ [name])).isSome = true) :
    dirName dir ++ [name] ∈ glob t (dirName dir ++ [['*']]) := by
  obtain ⟨e, found⟩ := Option.isSome_iff_exists.mp present
  have here := FileTree.entry_parent found
  rw [List.dropLast_concat] at here
  rw [mem_glob, dirName, List.append_assoc, List.append_assoc, List.cons_append, List.cons_append,
    walks_empty_iff]
  refine ⟨FileTree.isDir_iff.mpr FileTree.entry_root, _, rfl, ?_⟩
  rw [walks_literal_iff literal here]
  refine ⟨_, rfl, (walks_empty_iff _).mpr ⟨here, _, rfl, ?_⟩⟩
  exact (walks_star_iff (by simp) _).mpr
    ⟨here, name, [], rfl, visible, List.nil_suffix, present, rfl⟩

/-- `rmdir` takes an empty directory away. -/
theorem entry_rmdir_dirName (notRoot : dir ≠ []) (literal : ∀ c ∈ dir, LiteralName c)
    (isDir : ∀ content, t.entry dir ≠ some (.file content))
    (cleared : ∀ name, t.entry (dir ++ [name]) = none) :
    (rmdir t (dirName dir)).entry dir = none := by
  rcases remains : t.entry dir with _ | (_ | content)
  · rw [Option.eq_none_iff_forall_ne_some]
    intro e later
    rw [shrinks_rmdir t _ _ e later] at remains
    cases remains
  · have here := FileTree.isDir_iff.mpr remains
    have whole := namesIn_dirName literal
    have leads : resolve t [] (dirName dir) = some dir := by
      rw [resolve_plain (dirName_plain literal) (by rwa [List.nil_append, whole]),
        List.nil_append, whole]
    have noDot : dir.getLast? ≠ some ".".toList := fun last =>
      (literal _ (List.mem_of_getLast? last)).proper.notDot rfl
    have names : (dirName dir).filter (· ≠ []) = dir := whole
    rw [rmdir, leads]
    simp only [names, here, noDot, ne_eq, not_false_eq_true, decide_true, Bool.and_self, if_true]
    rw [FileTree.entry_remove, if_pos ⟨rfl, notRoot, FileTree.children_eq_nil.mpr cleared⟩]
  · exact absurd remains (isDir content)

/-- A directory that holds visible files only is removed with them. -/
theorem entry_unMount_flat (notRoot : dir ≠ []) (literal : ∀ c ∈ dir, LiteralName c)
    (isDir : ∀ content, t.entry dir ≠ some (.file content))
    (flat : ∀ name e, t.entry (dir ++ [name]) = some e →
      Visible name ∧ ∃ content, e = .file content) (fuel : Nat) :
    (fileSystemUnMountFlagsDepth (fuel + 1) (dirName dir) 0 0 t).entry dir = none := by
  rw [unMount_eq]
  generalize kernelMaxDepth (dirName dir) 0 = maxDepth
  have shrinks := shrinks_unMountStep fuel maxDepth
  have onlyLeft := shrinks_foldl shrinks (glob t (dirName dir ++ [['*']])) t
  refine entry_rmdir_dirName notRoot literal (fun content found => ?_) fun name => ?_
  · exact isDir content (onlyLeft dir _ found)
  · rcases found : t.entry (dir ++ [name]) with _ | e
    · rw [Option.eq_none_iff_forall_ne_some]
      intro e later
      rw [onlyLeft _ e later] at found
      cases found
    · obtain ⟨visible, content, rfl⟩ := flat name e found
      refine foldl_clears shrinks _ (fun v shrunk => ?_)
        (mem_glob_dirName literal visible (by rw [found]; rfl))
      refine @entry_unMountStep v dir name content _ (dirName_plain literal)
        (namesIn_dirName literal) fuel maxDepth fun e still => ?_
      exact Option.some.inj ((shrunk _ e still).symm.trans found)

end Removal

end VpnMgr.LibUseful
