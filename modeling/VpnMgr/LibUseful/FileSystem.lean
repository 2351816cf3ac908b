import VpnMgr.LibUseful.Glob

/-!
# File operations of the bundled libUseful

The functions of `FileSystem.c` that the saved configurations rest on.  The
tree has files and directories only: no links, and no mount points, so that
`umount` fails at once.
-/

namespace VpnMgr.LibUseful

open VpnMgr.Machine VpnMgr.Text CString

/-- `GetBasename`: a trailing slash stays. -/
def getBasename (path : CString) : CString :=
  match path.getLast? with
  | some '/' => (path.dropLast.reverse.takeWhile (· != '/')).reverse ++ ['/']
  | _ => (path.reverse.takeWhile (· != '/')).reverse

theorem getBasename_append {name : CString} (front : CString) (nonempty : name ≠ [])
    (noSlash : '/' ∉ name) : getBasename (front ++ '/' :: name) = name := by
  have others : ∀ c ∈ name.reverse, (c != '/') = true := by
    intro c membership
    rw [bne_iff_ne]
    rintro rfl
    exact noSlash (List.mem_reverse.mp membership)
  have last : (front ++ '/' :: name).getLast? ≠ some '/' := by
    rw [List.getLast?_append_of_ne_nil _ (List.cons_ne_nil _ _),
      List.getLast?_cons_of_ne_nil nonempty]
    exact fun isLast => noSlash (List.mem_of_getLast? isLast)
  unfold getBasename
  split
  next isLast => exact absurd isLast last
  next =>
    rw [List.reverse_append, List.reverse_cons, List.append_assoc,
      List.takeWhile_append_of_pos others]
    simp

/-- The depth limit for the trees that the kernel provides. -/
def kernelMaxDepth (mountPoint : List CString) (maxDepth : Nat) : Nat :=
  if pathText mountPoint = "/proc".toList ∨ pathText mountPoint = "/sys".toList ∨
      pathText mountPoint = "/dev".toList then 10
  else maxDepth

def unMountPaths (mountPoint : List CString) (depth maxDepth : Nat) (t : Disk) :
    List (List CString) :=
  if maxDepth = 0 ∨ depth ≤ maxDepth then glob t (mountPoint ++ [['*']]) else []

/-- `FileSystemUnMountFlagsDepth` with the flags of `FileSystemRmDir`.  Without
a `maxDepth` the C function recurses without a bound; `fuel` is the depth that
is looked at here. -/
def fileSystemUnMountFlagsDepth :
    (fuel : Nat) → (mountPoint : List CString) → (depth maxDepth : Nat) → Disk → Disk
  | 0, _, _, _, t => t
  | fuel + 1, mountPoint, depth, maxDepth, t =>
      let maxDepth := kernelMaxDepth mountPoint maxDepth
      rmdir
        ((unMountPaths mountPoint depth maxDepth t).foldl
          (fun t path =>
            match lstat t path with
            | some .directory => fileSystemUnMountFlagsDepth fuel path (depth + 1) maxDepth t
            | some (.file _) => unlink t path
            | none => t)
          t)
        mountPoint

/-- `FileSystemRmDir`. -/
def fileSystemRmDir (fuel : Nat) (dir : CString) (t : Disk) : Disk :=
  fileSystemUnMountFlagsDepth fuel (dir.splitOn '/') 0 0 t

def Shrinks {Content : Type} (t u : FileTree ProperName Content) : Prop :=
  ∀ p e, u.entry p = some e → t.entry p = some e

section Shrinking

variable {Content : Type} {t u v : FileTree ProperName Content}

theorem Shrinks.refl (t : FileTree ProperName Content) : Shrinks t t := fun _ _ found => found

theorem Shrinks.trans (first : Shrinks t u) (second : Shrinks u v) : Shrinks t v :=
  fun p e found => first p e (second p e found)

theorem shrinks_remove (t : FileTree ProperName Content) (p : Path) : Shrinks t (t.remove p) :=
  fun _ _ found => FileTree.entry_of_remove found

theorem shrinks_foldl {step : FileTree ProperName Content → List CString → FileTree ProperName Content}
    (shrinks : ∀ t path, Shrinks t (step t path)) (paths : List (List CString))
    (t : FileTree ProperName Content) : Shrinks t (paths.foldl step t) := by
  induction paths generalizing t with
  | nil => exact Shrinks.refl t
  | cons path paths inductionHypothesis => exact (shrinks t path).trans (inductionHypothesis _)

end Shrinking

theorem shrinks_rmdir (t : Disk) (name : List CString) : Shrinks t (rmdir t name) := by
  unfold rmdir
  split
  · split
    · exact shrinks_remove t _
    · exact Shrinks.refl t
  · exact Shrinks.refl t

theorem shrinks_unlink (t : Disk) (name : List CString) : Shrinks t (unlink t name) := by
  unfold unlink
  split
  · split
    · exact Shrinks.refl t
    · exact shrinks_remove t _
  · exact Shrinks.refl t

theorem shrinks_unMount (fuel : Nat) (mountPoint : List CString) (depth maxDepth : Nat)
    (t : Disk) : Shrinks t (fileSystemUnMountFlagsDepth fuel mountPoint depth maxDepth t) := by
  induction fuel generalizing mountPoint depth maxDepth t with
  | zero => exact Shrinks.refl t
  | succ fuel inductionHypothesis =>
      simp only [fileSystemUnMountFlagsDepth]
      refine Shrinks.trans (shrinks_foldl (fun t path => ?_) _ t) (shrinks_rmdir _ mountPoint)
      split
      · exact inductionHypothesis path _ _ t
      · exact shrinks_unlink t path
      · exact Shrinks.refl t

end VpnMgr.LibUseful
