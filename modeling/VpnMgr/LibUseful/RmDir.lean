import VpnMgr.LibUseful.Links

/-!
# What a recursive removal reaches

`FileSystemRmDir` reads its path as a pattern, and the path of every directory
that it comes to.  Only what stands in the directories that these patterns open
can go.
-/

namespace VpnMgr.LibUseful.Links

open VpnMgr.Machine VpnMgr.Text CString

/-- The path names that a removal reads as patterns, by what is there at first. -/
inductive Expands (t : LinkDisk) (mountPoint : List CString) : List CString → Prop
  | start : Expands t mountPoint mountPoint
  | enter {m name : List CString} : Expands t mountPoint m → name ∈ glob t (m ++ [['*']]) →
      lstat t name = some .directory → Expands t mountPoint name

/-- Nodes may go, but only own ones. -/
structure Loses (own : Path → Prop) (t u : LinkDisk) : Prop where
  shrinks : Shrinks t u
  others : ∀ q, ¬ own q → u.entry q = t.entry q

/-- The patterns open own directories only, and at the path itself there is no
other directory that could be empty in the end. -/
structure Confined (own : Path → Prop) (t : LinkDisk) (mountPoint : List CString) : Prop where
  opens : ∀ m, Expands t mountPoint m → ∀ p, Opens t m p → own p
  mount : ∀ p, rmdirTarget t mountPoint = some p →
    own p ∨ ∃ c, (t.entry (p ++ [c])).isSome = true ∧ ¬ own (p ++ [c])

def unMountStep (fuel depth maxDepth : Nat) (t : LinkDisk) (name : List CString) : LinkDisk :=
  match lstat t name with
  | some .directory => fileSystemUnMountFlagsDepth fuel name depth maxDepth t
  | some (.file _) => unlink t name
  | none => t

theorem unMount_succ (fuel depth maxDepth : Nat) (m : List CString) (t : LinkDisk) :
    fileSystemUnMountFlagsDepth (fuel + 1) m depth maxDepth t =
      rmdir ((unMountPaths m depth (kernelMaxDepth m maxDepth) t).foldl
        (unMountStep fuel (depth + 1) (kernelMaxDepth m maxDepth)) t) m := rfl

section Removal

variable {own : Path → Prop} {t u v : LinkDisk} {mountPoint m name : List CString} {p : Path}

theorem Loses.refl (t : LinkDisk) : Loses own t t := ⟨Shrinks.refl t, fun _ _ => rfl⟩

theorem Loses.remove (loses : Loses own t u) (isOwn : own p) : Loses own t (u.remove p) := by
  refine ⟨loses.shrinks.trans (shrinks_remove u p), fun q other => ?_⟩
  rw [FileTree.entry_remove, if_neg, loses.others q other]
  rintro ⟨rfl, -⟩
  exact other isOwn

theorem Loses.unlink (loses : Loses own t u) (inside : ∀ p, locate t false name = some p → own p) :
    Loses own t (unlink u name) := by
  unfold Links.unlink
  split
  next p found =>
    split
    · exact loses
    · exact loses.remove (inside p (locate_of_shrinks loses.shrinks found))
  next => exact loses

theorem Loses.between (loses : Loses own t v) (first : Shrinks t u) (second : Shrinks u v) :
    Loses own t u := by
  refine ⟨first, fun q other => ?_⟩
  ext e
  refine ⟨first q e, fun found => second q e ?_⟩
  rw [loses.others q other]
  exact found

theorem locate_child {front : List CString} {cur : Path} {c : CString}
    (found : locate t false (front ++ [c]) = some p) (opened : opendir t front = some cur)
    (proper : ProperName c) : p = cur ++ [c] := by
  obtain ⟨d, leads, -, rfl⟩ := (locate_eq_some_iff.mp found).parent proper.nonempty
  have same : d = cur :=
    Option.some.inj (leads.resolve.symm.trans (opendir_eq_some_iff.mp opened).1.resolve)
  rw [same, descend_proper proper]

theorem Confined.inside (confined : Confined own t mountPoint)
    (inherited : ∀ p c, own p → own (p ++ [c])) (expands : Expands t mountPoint m)
    (listed : name ∈ glob t (m ++ [['*']])) (found : locate t false name = some p) : own p := by
  obtain ⟨front, cur, c, matches', opened, isChild, -, rfl⟩ := mem_glob_star.mp listed
  rw [locate_child found opened (proper_of_child isChild)]
  exact inherited _ _ (confined.opens m expands cur ⟨front, matches', opened⟩)

theorem Confined.rmdir (confined : Confined own t mountPoint)
    (inherited : ∀ p c, own p → own (p ++ [c])) (expands : Expands t mountPoint m)
    (loses : Loses own t u) : Loses own t (rmdir u m) := by
  unfold Links.rmdir
  split
  next p found =>
    have target := rmdirTarget_of_shrinks loses.shrinks found
    have here : own p ∨ ∃ c, (t.entry (p ++ [c])).isSome = true ∧ ¬ own (p ++ [c]) := by
      cases expands with
      | start => exact confined.mount p target
      | enter before listed _ =>
          left
          refine confined.inside inherited before listed ?_
          obtain ⟨front, cur, c, -, -, isChild, -, rfl⟩ := mem_glob_star.mp listed
          unfold rmdirTarget at target
          rw [List.rdropWhile_concat_neg _ _ _ (by simpa using (proper_of_child isChild).nonempty)]
            at target
          dsimp only at target
          split at target
          · cases target
          · exact (Option.filter_eq_some_iff.mp target).1
    rcases here with isOwn | ⟨c, present, other⟩
    · exact loses.remove isOwn
    · have full : u.children p ≠ [] := by
        refine List.ne_nil_of_mem (FileTree.mem_children.mpr ?_ : c ∈ u.children p)
        rwa [loses.others _ other]
      rw [FileTree.remove, dif_neg full]
      exact loses
  next => exact loses

/-- A removal whose patterns open own directories only takes nothing else away. -/
theorem Confined.loses (confined : Confined own t mountPoint)
    (inherited : ∀ p c, own p → own (p ++ [c])) (expands : Expands t mountPoint m)
    (loses : Loses own t u) (fuel depth maxDepth : Nat) :
    Loses own t (fileSystemUnMountFlagsDepth fuel m depth maxDepth u) := by
  induction fuel generalizing m u depth maxDepth with
  | zero => exact loses
  | succ fuel inductionHypothesis =>
      rw [unMount_succ]
      refine confined.rmdir inherited expands ?_
      have listed : ∀ name ∈ unMountPaths m depth (kernelMaxDepth m maxDepth) u,
          name ∈ glob t (m ++ [['*']]) := by
        intro name member
        unfold unMountPaths at member
        split at member
        · exact mem_glob.mpr ((mem_glob.mp member).of_shrinks loses.shrinks)
        · cases member
      generalize unMountPaths m depth (kernelMaxDepth m maxDepth) u = paths at listed
      induction paths generalizing u with
      | nil => exact loses
      | cons name rest later =>
          have here := listed name List.mem_cons_self
          rw [List.foldl_cons]
          refine later ?_ fun other member => listed other (List.mem_cons_of_mem _ member)
          unfold unMountStep
          split
          next isDir =>
            exact inductionHypothesis (.enter expands here (lstat_of_shrinks loses.shrinks isDir)) loses _ _
          next => exact loses.unlink fun p found => confined.inside inherited expands here found
          next => exact loses

/-! ## What is lost -/

theorem shrinks_unMountStep (fuel depth maxDepth : Nat) (t : LinkDisk) (name : List CString) :
    Shrinks t (unMountStep fuel depth maxDepth t name) := by
  have anything : Confined (fun _ => True) t name := ⟨fun _ _ _ _ => trivial, fun _ _ => .inl trivial⟩
  unfold unMountStep
  split
  · exact (anything.loses (fun _ _ _ => trivial) .start (.refl t) fuel depth maxDepth).shrinks
  · exact (Loses.refl t |>.unlink fun _ _ => (trivial : (fun _ => True) _)).shrinks
  · exact Shrinks.refl t

theorem shrinks_rmdir (t : LinkDisk) (name : List CString) : Shrinks t (rmdir t name) := by
  unfold rmdir
  split
  · exact shrinks_remove t _
  · exact Shrinks.refl t

/-- A visible file that is not an own one, in a directory that the removal's path
opens, is lost, or else another one is. -/
theorem not_loses {c : CString} {leaf : Leaf} {way : List CString}
    (matches' : Matches t [] mountPoint way) (stays : ∀ u, Loses own t u → opendir u way = some p)
    (visible : c.head? ≠ some '.') (isLeaf : t.entry (p ++ [c]) = some (.file leaf))
    (other : ¬ own (p ++ [c])) (fuel maxDepth : Nat) :
    ¬ Loses own t (fileSystemUnMountFlagsDepth (fuel + 1) mountPoint 0 maxDepth t) := by
  intro loses
  have isChild : c ∈ t.children p := FileTree.mem_children.mpr (by rw [isLeaf]; rfl)
  have listed : way ++ [c] ∈ glob t (mountPoint ++ [['*']]) :=
    mem_glob_star.mpr ⟨way, p, c, matches', stays t (.refl t), isChild, visible, rfl⟩
  obtain ⟨before, after, split⟩ := List.append_of_mem listed
  let limit := kernelMaxDepth mountPoint maxDepth
  let u := before.foldl (unMountStep fuel 1 limit) t
  let v := unMountStep fuel 1 limit u (way ++ [c])
  let w := rmdir (after.foldl (unMountStep fuel 1 limit) v) mountPoint
  have whole : fileSystemUnMountFlagsDepth (fuel + 1) mountPoint 0 maxDepth t = w := by
    have run : fileSystemUnMountFlagsDepth (fuel + 1) mountPoint 0 maxDepth t =
        rmdir ((glob t (mountPoint ++ [['*']])).foldl (unMountStep fuel 1 limit) t) mountPoint := by
      rw [unMount_succ, unMountPaths, if_pos (.inr (Nat.zero_le _))]
    rw [run, split, List.foldl_append, List.foldl_cons]
  have first : Shrinks t u := shrinks_foldl (shrinks_unMountStep fuel 1 limit) before t
  have second : Shrinks u v := shrinks_unMountStep fuel 1 limit u _
  have third : Shrinks v w :=
    (shrinks_foldl (shrinks_unMountStep fuel 1 limit) after v).trans (shrinks_rmdir _ _)
  rw [whole] at loses
  -- up to its turn the file is there
  have kept := loses.between first (second.trans third)
  have isLeaf' : u.entry (p ++ [c]) = some (.file leaf) := by rw [kept.others _ other, isLeaf]
  have proper := proper_of_child isChild
  have found : locate u false (way ++ [c]) = some (p ++ [c]) := by
    obtain ⟨leads, isDir⟩ := opendir_eq_some_iff.mp (stays u kept)
    have place : p ++ [c] = descend p c := (descend_proper proper).symm
    rw [place] at isLeaf' ⊢
    exact locate_eq_some_iff.mpr (leads.child isDir proper.nonempty isLeaf')
  have noDir : u.isDir (p ++ [c]) = false := by
    rw [← Bool.not_eq_true, FileTree.isDir_iff, isLeaf']
    simp
  have unlinked : v = u.remove (p ++ [c]) := by
    show unMountStep fuel 1 limit u (way ++ [c]) = _
    rw [unMountStep, lstat, found, Option.bind_some, isLeaf']
    simp only [unlink, found, noDir, Bool.false_eq_true, if_false]
  have gone : v.entry (p ++ [c]) = none := by
    rw [unlinked, FileTree.entry_remove,
      if_pos ⟨rfl, by simp, FileTree.children_of_file isLeaf'⟩]
  have survives := loses.others _ other
  rw [isLeaf] at survives
  rw [third _ _ survives] at gone
  cases gone

end Removal

end VpnMgr.LibUseful.Links
