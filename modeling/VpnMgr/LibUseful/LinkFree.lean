import VpnMgr.LibUseful.FileAccess
import VpnMgr.LibUseful.RmDir

/-!
# Trees without links

Where no name stands for a link the file operations are those that know none.
-/

namespace VpnMgr.LibUseful.Links

open VpnMgr.Machine VpnMgr.Text CString

def linkFree (t : Disk) : LinkDisk := t.map .regular

section LinkFree

variable {t : Disk} {cur p : Path} {name found pattern : List CString}

theorem entry_linkFree (t : Disk) (p : Path) :
    (linkFree t).entry p = (t.entry p).map (FileEntry.map .regular) := FileTree.entry_map ..

theorem map_regular_injective : Function.Injective (FileEntry.map Leaf.regular) := by
  rintro (_ | first) (_ | second) same
  · rfl
  · cases same
  · cases same
  · exact congrArg FileEntry.file (Leaf.regular.inj (FileEntry.file.inj same))

theorem isDir_linkFree (t : Disk) (p : Path) : (linkFree t).isDir p = t.isDir p :=
  FileTree.isDir_map ..

theorem readdir_linkFree (t : Disk) (p : Path) : readdir (linkFree t) p = readdir t p := by
  rw [readdir, readdir, linkFree, FileTree.children_map]

theorem walk_linkFree (t : Disk) (follow : Bool) (jump : Path → List CString → Option Path)
    (cur : Path) (name : List CString) :
    walk (linkFree t) follow jump cur name = LibUseful.resolve t cur name := by
  induction name generalizing cur with
  | nil => rfl
  | cons first rest inductionHypothesis =>
      rw [walk, LibUseful.resolve, isDir_linkFree, entry_linkFree]
      cases t.entry (descend cur first) with
      | none => simp [inductionHypothesis]
      | some e => cases e <;> simp [FileEntry.map, inductionHypothesis]

theorem locate_linkFree (t : Disk) (follow : Bool) (name : List CString) :
    locate (linkFree t) follow name = LibUseful.resolve t [] name := walk_linkFree ..

theorem lstat_linkFree (t : Disk) (name : List CString) :
    lstat (linkFree t) name = (LibUseful.lstat t name).map (FileEntry.map .regular) := by
  rw [lstat, LibUseful.lstat, locate_linkFree]
  cases LibUseful.resolve t [] name with
  | none => rfl
  | some p => exact entry_linkFree t p

theorem unlink_linkFree (t : Disk) (name : List CString) :
    unlink (linkFree t) name = linkFree (LibUseful.unlink t name) := by
  rw [unlink, LibUseful.unlink, locate_linkFree]
  cases LibUseful.resolve t [] name with
  | none => rfl
  | some p =>
      simp only [isDir_linkFree]
      split
      · rfl
      · exact FileTree.remove_map ..

theorem resolve_rdropWhile (t : Disk) (name : List CString) :
    (LibUseful.resolve t [] name).filter (t.isDir ·) =
      (LibUseful.resolve t [] (name.rdropWhile (· = []))).filter (t.isDir ·) := by
  induction name using List.reverseRecOn with
  | nil => rfl
  | append_singleton front last inductionHypothesis =>
      by_cases empty : last = []
      · rw [List.rdropWhile_concat_pos _ _ _ (by simpa using empty), ← inductionHypothesis,
          LibUseful.resolve_append]
        cases LibUseful.resolve t [] front with
        | none => rfl
        | some d => cases isDir : t.isDir d <;>
            simp [Option.filter_some, LibUseful.resolve, empty, isDir]
      · rw [List.rdropWhile_concat_neg _ _ _ (by simpa using empty)]

theorem getLast?_rdropWhile (name : List CString) :
    (name.rdropWhile (· = [])).getLast? = (name.filter (· ≠ [])).getLast? := by
  induction name using List.reverseRecOn with
  | nil => rfl
  | append_singleton front last inductionHypothesis =>
      by_cases empty : last = []
      · rw [List.rdropWhile_concat_pos _ _ _ (by simpa using empty), inductionHypothesis]
        simp [empty]
      · rw [List.rdropWhile_concat_neg _ _ _ (by simpa using empty)]
        simp [empty]

theorem rmdirTarget_linkFree (t : Disk) (name : List CString) :
    rmdirTarget (linkFree t) name =
      if (name.filter (· ≠ [])).getLast? = some ".".toList then none
      else (LibUseful.resolve t [] name).filter (t.isDir ·) := by
  unfold rmdirTarget
  simp only [locate_linkFree, isDir_linkFree]
  rw [getLast?_rdropWhile, ← resolve_rdropWhile]

theorem rmdir_linkFree (t : Disk) (name : List CString) :
    rmdir (linkFree t) name = linkFree (LibUseful.rmdir t name) := by
  rw [rmdir, rmdirTarget_linkFree, LibUseful.rmdir]
  by_cases dot : (name.filter (· ≠ [])).getLast? = some ".".toList
  · rw [if_pos dot]
    cases LibUseful.resolve t [] name with
    | none => rfl
    | some p => simp only [dot, ne_eq, not_true_eq_false, decide_false, Bool.and_false,
        Bool.false_eq_true, if_false]
  · rw [if_neg dot]
    cases LibUseful.resolve t [] name with
    | none => rfl
    | some p =>
        cases isDir : t.isDir p with
        | false => simp only [Option.filter_some, isDir, Bool.false_and, Bool.false_eq_true, if_false]
        | true =>
            simp only [Option.filter_some, isDir, dot, ne_eq, not_false_eq_true, decide_true,
              Bool.and_true, if_true]
            exact FileTree.remove_map ..

theorem resolve_names (proper : ∀ c ∈ name, ProperName c)
    (leads : LibUseful.resolve t cur name = some p) : p = cur ++ name := by
  induction name generalizing cur with
  | nil => simpa using (Option.some.inj leads).symm
  | cons first rest inductionHypothesis =>
      have isProper := proper first (by simp)
      rw [LibUseful.resolve, if_neg isProper.nonempty, descend_proper isProper] at leads
      split at leads
      · cases leads
      · split at leads
        · simpa using inductionHypothesis (fun c member => proper c (by simp [member])) leads
        · cases leads

theorem resolve_listed {c : CString} (leads : LibUseful.resolve t [] found = some cur)
    (isDir : t.isDir cur = true) (nonempty : c ≠ []) (listed : c ∈ readdir t cur) :
    LibUseful.resolve t [] (found ++ [c]) = some (descend cur c) := by
  have present : (t.entry (descend cur c)).isSome = true := by
    rcases List.mem_cons.mp listed with rfl | listed
    · rw [descend, if_pos rfl, FileTree.isDir_iff.mp isDir]
      rfl
    rcases List.mem_cons.mp listed with rfl | listed
    · have up := FileTree.isDir_of_prefix (List.dropLast_prefix cur) isDir
      rw [descend, if_neg (by decide), if_pos rfl, FileTree.isDir_iff.mp up]
      rfl
    · have isChild := FileTree.mem_children.mp listed
      obtain ⟨e, isNode⟩ := Option.isSome_iff_exists.mp isChild
      rwa [descend_proper (FileTree.entry_valid isNode c (by simp))]
  rw [resolve_append, leads, Option.bind_some]
  simp [LibUseful.resolve, isDir, nonempty, present]

theorem globFrom_linkFree (leads : LibUseful.resolve t [] found = some cur) :
    globFrom (linkFree t) found pattern =
      (LibUseful.globFrom t cur pattern).map (found ++ ·) := by
  induction pattern generalizing found cur with
  | nil => simp [globFrom, LibUseful.globFrom]
  | cons first rest inductionHypothesis =>
      have opened : opendir (linkFree t) found = (some cur).filter (t.isDir ·) := by
        rw [opendir, locate_linkFree, leads]
        simp only [isDir_linkFree]
      rw [globFrom, LibUseful.globFrom, opened]
      cases isDir : t.isDir cur with
      | false => simp [Option.filter_some, isDir]
      | true =>
          simp only [Option.filter_some, isDir, if_true, Bool.not_true, Bool.false_eq_true, if_false]
          by_cases empty : first = []
          · have further : LibUseful.resolve t [] (found ++ [[]]) = some cur := by
              rw [resolve_append, leads, Option.bind_some]
              simp [LibUseful.resolve, isDir]
            rw [if_pos empty, if_pos empty, inductionHypothesis further, List.map_map]
            simp [Function.comp_def]
          · rw [if_neg empty, if_neg empty, readdir_linkFree, List.map_flatMap]
            refine List.flatMap_congr fun c member => ?_
            obtain ⟨listed, -⟩ := List.mem_filter.mp member
            have nonempty : c ≠ [] := by
              rintro rfl
              simp only [readdir, List.mem_cons] at listed
              rcases listed with dot | dots | isChild
              · exact absurd dot (by decide)
              · exact absurd dots (by decide)
              · exact absurd rfl (proper_of_child (t := linkFree t) (by
                  rwa [linkFree, FileTree.children_map])).nonempty
            rw [inductionHypothesis (resolve_listed leads isDir nonempty listed), List.map_map]
            simp [Function.comp_def]

theorem glob_linkFree (t : Disk) (pattern : List CString) :
    glob (linkFree t) pattern = LibUseful.glob t pattern := by
  have same : globFrom (linkFree t) [] pattern = LibUseful.globFrom t [] pattern := by
    rw [@globFrom_linkFree t [] [] pattern rfl]
    simp
  rw [glob, LibUseful.glob, same]

/-- A removal in a tree without links is the one that knows no links. -/
theorem unMount_linkFree (fuel : Nat) (mountPoint : List CString) (depth maxDepth : Nat) (t : Disk) :
    fileSystemUnMountFlagsDepth fuel mountPoint depth maxDepth (linkFree t) =
      linkFree (LibUseful.fileSystemUnMountFlagsDepth fuel mountPoint depth maxDepth t) := by
  induction fuel generalizing mountPoint depth maxDepth t with
  | zero => rfl
  | succ fuel inductionHypothesis =>
      have paths : unMountPaths mountPoint depth (kernelMaxDepth mountPoint maxDepth) (linkFree t) =
          LibUseful.unMountPaths mountPoint depth (kernelMaxDepth mountPoint maxDepth) t := by
        rw [unMountPaths, LibUseful.unMountPaths, glob_linkFree]
      rw [unMount_succ, paths]
      clear paths
      simp only [LibUseful.fileSystemUnMountFlagsDepth]
      generalize LibUseful.unMountPaths mountPoint depth (kernelMaxDepth mountPoint maxDepth) t = names
      induction names generalizing t with
      | nil => exact rmdir_linkFree t mountPoint
      | cons name rest later =>
          rw [List.foldl_cons, List.foldl_cons]
          refine Eq.trans ?_ (later _)
          congr 2
          rw [unMountStep, lstat_linkFree]
          rcases LibUseful.lstat t name with _ | _ | _
          · rfl
          · exact inductionHypothesis ..
          · exact unlink_linkFree t name

end LinkFree

end VpnMgr.LibUseful.Links
