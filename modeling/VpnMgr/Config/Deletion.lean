import VpnMgr.Config.Store
import VpnMgr.LibUseful.LinkFree

/-!
# What `delete` removes

The name is put into a path unchecked, and `FileSystemRmDir` reads that path as
a pattern.
-/

namespace VpnMgr.Config

open Machine Text CString LibUseful Links

/-- `DeleteConfig` where a name may stand for a link. -/
def deleteLinked (fuel : Nat) (home : CString) (name : CPtr) (t : LinkDisk) : LinkDisk :=
  Links.fileSystemRmDir fuel
    (mCopyStr [some home, some "/.config/vpn_mgr/".toList, name, some ['/']]) t

theorem deleteLinked_eq (fuel : Nat) (home : HomeDir) (name : CString) (t : LinkDisk) :
    deleteLinked fuel home.text (some name) t =
      Links.fileSystemUnMountFlagsDepth fuel (deletedPath home name) 0 0 t := by
  rw [deleteLinked, Links.fileSystemRmDir, splitOn_deletedPath]

theorem deleteLinked_linkFree (fuel : Nat) (home : CString) (name : CPtr) (t : Disk) :
    deleteLinked fuel home name (linkFree t) = linkFree (deleteConfig fuel home name t) :=
  unMount_linkFree ..

/-- The directory of this name in the store, and what stands in it.  The way to
the store may lead through links. -/
def OwnPath (home : HomeDir) (name : CString) (t : LinkDisk) (q : Path) : Prop :=
  ∃ store, opendir t ([] :: home.store) = some store ∧ t.isDir (store ++ [name]) = true ∧
    store ++ [name] <+: q

/-- Where `delete` can be relied on: read as patterns, its path and the paths of
the directories that it comes to open the directory of this name only and those
in it, and `rmdir` finds no other empty one at the path itself. -/
def Deletable (home : HomeDir) (name : CString) (t : LinkDisk) : Prop :=
  Confined (OwnPath home name t) t (deletedPath home name)

section Names

variable {home : HomeDir} {name : CString} {t : LinkDisk}

theorem storeNames_proper (home : HomeDir) : ∀ c ∈ home.store, ProperName c := by
  intro c membership
  rcases List.mem_append.mp membership with inHome | inStore
  · exact home.proper c inHome
  · rcases List.mem_cons.mp inStore with rfl | inStore
    · decide
    · obtain rfl := List.mem_singleton.mp inStore
      decide

theorem splitOn_proper (proper : ProperName name) : name.splitOn '/' = [name] :=
  List.splitOn_eq_singleton proper.noSlash

theorem deletedPath_proper (proper : ProperName name) :
    deletedPath home name = ([] :: home.store) ++ [name, []] := by
  simp [deletedPath, splitOn_proper proper]

theorem ownPath_append (p : Path) (c : CString) (own : OwnPath home name t p) :
    OwnPath home name t (p ++ [c]) := by
  obtain ⟨store, opened, isDir, inside⟩ := own
  exact ⟨store, opened, isDir, inside.trans (List.prefix_append _ _)⟩

/-- The directory of a proper name that is no link's. -/
theorem ownPath_of_opendir (proper : ProperName name)
    (noLink : ∀ store, opendir t ([] :: home.store) = some store →
      ∀ target, t.entry (store ++ [name]) ≠ some (.file (.link target)))
    {p : Path} (opened : opendir t (deletedPath home name) = some p) : OwnPath home name t p := by
  rw [deletedPath_proper proper] at opened
  obtain ⟨whole, isDirHere⟩ := opendir_eq_some_iff.mp opened
  obtain ⟨fewer, store, here, leads⟩ := whole.split
  cases leads with
  | skip => exact absurd rfl proper.nonempty
  | step isDir _ _ _ behind =>
      rw [descend_proper proper] at behind
      cases behind with
      | skip _ last =>
          cases last
          exact ⟨store, opendir_eq_some_iff.mpr ⟨here, isDir⟩, isDirHere, List.prefix_rfl⟩
      | step _ nonempty => exact absurd rfl nonempty
      | last _ nonempty => exact absurd rfl nonempty
      | jump _ nonempty => exact absurd rfl nonempty
  | jump isDir _ found _ =>
      rw [descend_proper proper] at found
      exact absurd found (noLink store (opendir_eq_some_iff.mpr ⟨here, isDir⟩) _)

/-- Names without pattern characters are safe, in a home directory without any,
where the name is no link's and the directories in it have such names too. -/
theorem deletable_of_plain (homePlain : ∀ c ∈ home.names, ∀ ch ∈ c, isPatternPlain ch = true)
    (proper : ProperName name) (plain : ∀ ch ∈ name, isPatternPlain ch = true)
    (noLink : ∀ store, opendir t ([] :: home.store) = some store →
      ∀ target, t.entry (store ++ [name]) ≠ some (.file (.link target)))
    (below : ∀ p c, OwnPath home name t p → t.isDir (p ++ [c]) = true →
      ∀ ch ∈ c, isPatternPlain ch = true) : Deletable home name t := by
  have pathPlain : ∀ c ∈ deletedPath home name, ∀ ch ∈ c, isPatternPlain ch = true := by
    rw [deletedPath_proper proper, HomeDir.store]
    simp only [List.cons_append, List.append_assoc, List.mem_cons, List.mem_append, List.nil_append,
      List.not_mem_nil, or_false]
    rintro c (rfl | inHome | rfl | rfl | rfl | rfl)
    · simp
    · exact homePlain c inHome
    · exact List.all_eq_true.mp (by decide)
    · exact List.all_eq_true.mp (by decide)
    · exact plain
    · simp
  -- every path name is plain and leads into the directory
  have known : ∀ m, Expands t (deletedPath home name) m →
      (∀ c ∈ m, ∀ ch ∈ c, isPatternPlain ch = true) ∧
        ∀ p, opendir t m = some p → OwnPath home name t p := by
    intro m expands
    induction expands with
    | start => exact ⟨pathPlain, fun p => ownPath_of_opendir proper noLink⟩
    | @enter m path _ listed isDir inductionHypothesis =>
        obtain ⟨plainPath, leads⟩ := inductionHypothesis
        obtain ⟨front, cur, c, matches', opened, isChild, -, rfl⟩ := mem_glob_star.mp listed
        obtain rfl : front = m := matches'.plain plainPath
        have own := leads cur opened
        have named := proper_of_child isChild
        obtain ⟨q, found, isNode⟩ := Option.bind_eq_some_iff.mp isDir
        have here : q = cur ++ [c] := locate_child found opened named
        subst here
        have isDir' : t.isDir (cur ++ [c]) = true := FileTree.isDir_iff.mpr isNode
        refine ⟨fun d member => ?_, fun p openedHere => ?_⟩
        · rcases List.mem_append.mp member with old | new
          · exact plainPath d old
          · obtain rfl := List.mem_singleton.mp new
            exact below cur d own isDir'
        · have same := ((locate_eq_some_iff.mp found).followed isDir').resolve.symm.trans
            (opendir_eq_some_iff.mp openedHere).1.resolve
          exact Option.some.inj same ▸ ownPath_append cur c own
  constructor
  · rintro m expands p ⟨path, matches', opened⟩
    obtain ⟨plainPath, leads⟩ := known m expands
    obtain rfl : path = m := matches'.plain plainPath
    exact leads p opened
  · intro p found
    left
    unfold rmdirTarget at found
    have shape : (deletedPath home name).rdropWhile (· = []) = ([] :: home.store) ++ [name] := by
      rw [deletedPath_proper proper]
      have last : ([] :: home.store) ++ [name, []] = ([] :: home.store) ++ [name] ++ [[]] := by simp
      rw [last, List.rdropWhile_concat_pos _ _ _ (by simp),
        List.rdropWhile_concat_neg _ _ _ (by simpa using proper.nonempty)]
    rw [shape] at found
    dsimp only at found
    split at found
    · cases found
    · obtain ⟨located, isDirHere⟩ := Option.filter_eq_some_iff.mp found
      obtain ⟨d, leads, isDir, rfl⟩ := (locate_eq_some_iff.mp located).parent proper.nonempty
      rw [descend_proper proper] at isDirHere ⊢
      exact ⟨d, opendir_eq_some_iff.mpr ⟨leads, isDir⟩, isDirHere, List.prefix_rfl⟩

theorem loses_of_deletable (deletable : Deletable home name t) (fuel : Nat) :
    Loses (OwnPath home name t) t (deleteLinked fuel home.text (some name) t) := by
  rw [deleteLinked_eq]
  exact deletable.loses ownPath_append .start (.refl t) fuel 0 0

end Names

/-- For every name and every tree: where `delete` can be relied on, it takes away
only what stands in the directory of the name.  Where its path, read as a
pattern, opens another directory, by a way that is not through that one, the
visible files there are lost. -/
theorem deleteConfig_outside (home : HomeDir) (name : CString) (t : LinkDisk) :
    (Deletable home name t → ∀ fuel,
      Loses (OwnPath home name t) t (deleteLinked fuel home.text (some name) t)) ∧
    (∀ way p c leaf, Matches t [] (deletedPath home name) way →
      (∀ u, Loses (OwnPath home name t) t u → opendir u way = some p) →
      t.entry (p ++ [c]) = some (.file leaf) → c.head? ≠ some '.' →
      ¬ OwnPath home name t (p ++ [c]) → ∀ fuel,
        ¬ Loses (OwnPath home name t) t (deleteLinked (fuel + 1) home.text (some name) t)) := by
  refine ⟨loses_of_deletable, fun way p c leaf matches' stays isLeaf visible other fuel => ?_⟩
  rw [deleteLinked_eq]
  exact not_loses matches' stays visible isLeaf other fuel 0

section LinkFree

variable {home : HomeDir} {name : CString} {t : Disk}

theorem store_of_opendir {store : Path}
    (opened : opendir (linkFree t) ([] :: home.store) = some store) : store = home.store := by
  have leads := (Option.filter_eq_some_iff.mp opened).1
  rw [locate_linkFree, LibUseful.resolve, FileTree.isDir_iff.mpr FileTree.entry_root] at leads
  simpa using resolve_names (storeNames_proper home) leads

/-- A directory of files with a plain name is deleted, and nothing else. -/
theorem entry_deleteConfig (homePlain : ∀ c ∈ home.names, ∀ ch ∈ c, isPatternPlain ch = true)
    (proper : ProperName name) (plain : ∀ ch ∈ name, isPatternPlain ch = true)
    (noDirs : ∀ rest, rest ≠ [] → t.isDir (home.configDir name ++ rest) = false) (fuel : Nat)
    {q : Path} (outside : ¬ home.configDir name <+: q) :
    (deleteConfig fuel home.text (some name) t).entry q = t.entry q := by
  have deletable : Deletable home name (linkFree t) := by
    refine deletable_of_plain homePlain proper plain (fun store _ target isLink => ?_) ?_
    · rw [entry_linkFree] at isLink
      obtain ⟨e, -, same⟩ := Option.map_eq_some_iff.mp isLink
      cases e <;> cases same
    · rintro _ c ⟨store, opened, -, rest, rfl⟩ isDir
      obtain rfl := store_of_opendir opened
      rw [isDir_linkFree, List.append_assoc] at isDir
      have noDir := noDirs (rest ++ [c]) (by simp)
      rw [HomeDir.configDir, isDir] at noDir
      cases noDir
  have loses := (loses_of_deletable deletable fuel).others q ?_
  · rw [deleteLinked_linkFree, entry_linkFree, entry_linkFree] at loses
    exact Option.map_injective map_regular_injective loses
  · rintro ⟨store, opened, -, inside⟩
    obtain rfl := store_of_opendir opened
    exact outside inside

end LinkFree

/-! ## A store with links -/

def bobsHome : HomeDir := ⟨["home".toList, "bob".toList], by decide⟩

/-- The VPN `office` keeps a link to the other one, whose second name is a link. -/
def bobsStore : LinkDisk :=
  let dirs : List Path := [["home".toList], bobsHome.names, bobsHome.names ++ [".config".toList],
    bobsHome.store, bobsHome.configDir "office".toList, bobsHome.configDir "lab".toList]
  let leaves : List (Path × Leaf) :=
    [(bobsHome.configDir "office".toList ++ ["office.conf".toList],
        .regular "Server=wg:10.1.1.1\n".toList),
      (bobsHome.configDir "office".toList ++ ["other".toList], .link "../lab".toList),
      (bobsHome.configDir "lab".toList ++ ["lab.conf".toList],
        .regular "Server=wg:10.2.2.2\n".toList),
      (bobsHome.configDir "spare".toList, .link "lab".toList)]
  leaves.foldl (fun t node => t.put node.1 (.file node.2))
    (dirs.foldl (fun t dir => t.put dir .directory) FileTree.empty)

/-- The directory of `office` goes with its link; the name of a link leads `delete`
into the other directory. -/
theorem deleteConfig_outside_office :
    (∀ fuel, Loses (OwnPath bobsHome "office".toList bobsStore) bobsStore
      (deleteLinked fuel bobsHome.text (some "office".toList) bobsStore)) ∧
    (∀ fuel, ¬ Loses (OwnPath bobsHome "spare".toList bobsStore) bobsStore
      (deleteLinked (fuel + 1) bobsHome.text (some "spare".toList) bobsStore)) := by
  have opened : opendir bobsStore ([] :: bobsHome.store) = some bobsHome.store := by decide +kernel
  have homePlain : (bobsHome.names.all fun c => c.all isPatternPlain) = true := by decide
  constructor
  · refine (deleteConfig_outside bobsHome "office".toList bobsStore).1
      (deletable_of_plain
        (fun c member => List.all_eq_true.mp (List.all_eq_true.mp homePlain c member)) (by decide)
        (List.all_eq_true.mp (by decide)) (fun store here target => ?_) ?_)
    · obtain rfl := Option.some.inj (opened.symm.trans here)
      have isDir : bobsStore.entry (bobsHome.store ++ ["office".toList]) = some .directory := by
        decide +kernel
      rw [isDir]
      simp
    · rintro _ c ⟨store, here, -, rest, rfl⟩ isDir
      obtain rfl := Option.some.inj (opened.symm.trans here)
      have noDirs : ∀ node ∈ bobsStore.nodes, node.2 = .directory →
          bobsHome.configDir "office".toList <+: node.1 →
          node.1 = bobsHome.configDir "office".toList := by decide +kernel
      have isNode := (FileTree.entry_eq_some_iff (by simp)).mp (FileTree.isDir_iff.mp isDir)
      have short := noDirs _ isNode rfl (by simp [HomeDir.configDir])
      simp [HomeDir.configDir] at short
  · have nothing : ∀ q, ¬ OwnPath bobsHome "spare".toList bobsStore q := by
      rintro q ⟨store, here, isDir, -⟩
      obtain rfl := Option.some.inj (opened.symm.trans here)
      exact absurd isDir (by decide +kernel)
    refine (deleteConfig_outside bobsHome "spare".toList bobsStore).2
      (deletedPath bobsHome "spare".toList) (bobsHome.configDir "lab".toList) "lab.conf".toList
      (.regular "Server=wg:10.2.2.2\n".toList) (mem_globFrom.mp (by decide +kernel))
      (fun u loses => ?_) (by decide +kernel) (by decide) (nothing _)
    have same : Shrinks u bobsStore := fun q e found => (loses.others q (nothing q)).trans found
    exact opendir_of_shrinks same (by decide +kernel)

/-- `delete` without a name removes the other VPNs. -/
theorem deleteConfig_noName_outside :
    ¬ ∀ (home : HomeDir) (name : CString) (t : LinkDisk) (fuel : Nat),
      Loses (OwnPath home name t) t (deleteLinked fuel home.text (some name) t) := by
  intro confined
  have same := (confined bobsHome [] bobsStore 3).others
    (bobsHome.configDir "office".toList ++ ["office.conf".toList]) ?_
  · have run : ((deleteLinked 3 bobsHome.text (some []) bobsStore).entry
        (bobsHome.configDir "office".toList ++ ["office.conf".toList])).isSome = false := by
      decide +kernel
    have before : (bobsStore.entry
        (bobsHome.configDir "office".toList ++ ["office.conf".toList])).isSome = true := by
      decide +kernel
    rw [same, before] at run
    exact absurd run (by decide)
  · rintro ⟨store, -, isDir, -⟩
    exact absurd rfl (FileTree.entry_valid (FileTree.isDir_iff.mp isDir) [] (by simp)).nonempty

end VpnMgr.Config
