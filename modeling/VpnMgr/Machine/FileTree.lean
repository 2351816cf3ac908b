import Mathlib.Data.List.Induction
import Mathlib.Data.List.Nodup
import Mathlib.Tactic.Common

/-!
# File trees

Directories and files by their path from the root.  Every node stands in a
directory, and only empty directories and files can be taken away.
-/

namespace VpnMgr.Machine

/-- What stands at a path. -/
inductive FileEntry (Content : Type) where
  | directory
  | file (content : Content)
  deriving DecidableEq

variable {Content Other : Type}

def FileEntry.map (f : Content → Other) : FileEntry Content → FileEntry Other
  | .directory => .directory
  | .file content => .file (f content)

/-- The nodes of a tree; the root itself is not listed. -/
structure FileTree {Name : Type} (Valid : Name → Prop) (Content : Type) where
  nodes : List (List Name × FileEntry Content)
  named : ∀ node ∈ nodes, ∀ name ∈ node.1, Valid name
  distinct : (nodes.map Prod.fst).Nodup
  rooted : ∀ node ∈ nodes, node.1 ≠ []
  nested : ∀ node ∈ nodes, node.1.dropLast = [] ∨ (node.1.dropLast, .directory) ∈ nodes

namespace FileTree

variable {Name Content : Type} {Valid : Name → Prop}

def empty : FileTree Valid Content := ⟨[], by simp, by simp, by simp, by simp⟩

variable [DecidableEq Name] (t : FileTree Valid Content)

def entry (p : List Name) : Option (FileEntry Content) :=
  if p = [] then some .directory else (t.nodes.find? fun node => node.1 = p).map Prod.snd

def isDir (p : List Name) : Bool :=
  match t.entry p with
  | some .directory => true
  | _ => false

def children (p : List Name) : List Name :=
  (t.nodes.map Prod.fst).filterMap fun path =>
    if path.dropLast = p then path.getLast? else none

variable {t} {p q : List Name} {e : FileEntry Content}

@[simp]
theorem entry_root : t.entry [] = some .directory := if_pos rfl

theorem isDir_iff : t.isDir p = true ↔ t.entry p = some .directory := by
  unfold isDir
  split <;> simp_all

theorem entry_eq_some_iff (notRoot : p ≠ []) : t.entry p = some e ↔ (p, e) ∈ t.nodes := by
  rw [entry, if_neg notRoot, Option.map_eq_some_iff]
  constructor
  · rintro ⟨node, found, rfl⟩
    have here : node.1 = p := by simpa using List.find?_some found
    exact here ▸ List.mem_of_find?_eq_some found
  · intro membership
    cases found : t.nodes.find? fun node => node.1 = p with
    | none => simpa using List.find?_eq_none.mp found _ membership
    | some node =>
        have here : node.1 = p := by simpa using List.find?_some found
        have same : node = (p, e) :=
          List.inj_on_of_nodup_map t.distinct (List.mem_of_find?_eq_some found) membership here
        exact ⟨node, rfl, by rw [same]⟩

theorem entry_valid (some : t.entry p = some e) : ∀ name ∈ p, Valid name := by
  by_cases root : p = []
  · simp [root]
  · exact t.named _ ((entry_eq_some_iff root).mp some)

theorem entry_parent (some : t.entry p = some e) : t.isDir p.dropLast = true := by
  rw [isDir_iff]
  by_cases root : p = []
  · simp [root]
  rcases t.nested _ ((entry_eq_some_iff root).mp some) with parentRoot | parent
  · simp only at parentRoot
    rw [parentRoot, entry_root]
  · exact (entry_eq_some_iff (t.rooted _ parent)).mpr parent

theorem isDir_of_prefix (inside : p <+: q) (isDir : t.isDir q = true) : t.isDir p = true := by
  obtain ⟨rest, rfl⟩ := inside
  induction rest using List.reverseRecOn with
  | nil => simpa using isDir
  | append_singleton rest name inductionHypothesis =>
      have parent := entry_parent (isDir_iff.mp isDir)
      rw [← List.append_assoc, List.dropLast_concat] at parent
      exact inductionHypothesis parent

theorem mem_children {name : Name} :
    name ∈ t.children p ↔ (t.entry (p ++ [name])).isSome = true := by
  have notRoot : p ++ [name] ≠ [] := by simp
  simp only [children, List.mem_filterMap, Option.isSome_iff_exists, entry_eq_some_iff notRoot,
    List.mem_map, Prod.exists, exists_and_right, exists_eq_right]
  constructor
  · rintro ⟨path, ⟨entry, membership⟩, last⟩
    split at last
    next parent =>
      have whole := List.dropLast_append_getLast? name last
      rw [parent] at whole
      exact ⟨entry, whole ▸ membership⟩
    next => exact absurd last (by simp)
  · rintro ⟨entry, membership⟩
    exact ⟨_, ⟨entry, membership⟩, by simp⟩

theorem children_eq_nil : t.children p = [] ↔ ∀ name, t.entry (p ++ [name]) = none := by
  rw [List.eq_nil_iff_forall_not_mem]
  simp [mem_children]

theorem children_nodup : (t.children p).Nodup := by
  refine t.distinct.filterMap fun first second name inFirst inSecond => ?_
  simp only [Option.mem_def] at inFirst inSecond
  split at inFirst
  next firstParent =>
    split at inSecond
    next secondParent =>
      rw [← List.dropLast_append_getLast? name inFirst, firstParent, ← secondParent,
        List.dropLast_append_getLast? name inSecond]
    next => exact absurd inSecond (by simp)
  next => exact absurd inFirst (by simp)

theorem children_of_file {content : Content} (isFile : t.entry p = some (.file content)) :
    t.children p = [] := by
  rw [children_eq_nil]
  intro name
  by_contra present
  obtain ⟨e, found⟩ := Option.ne_none_iff_exists'.mp present
  have parent := entry_parent found
  rw [List.dropLast_concat, isDir_iff, isFile] at parent
  exact absurd parent (by simp)

/-- The tree without the node at `p`, if nothing stands below it. -/
def remove (t : FileTree Valid Content) (p : List Name) : FileTree Valid Content :=
  if empty : t.children p = [] then
    { nodes := t.nodes.filter fun node => node.1 ≠ p
      named := fun node membership => t.named node (List.mem_of_mem_filter membership)
      distinct := by
        refine t.distinct.sublist (List.Sublist.map _ List.filter_sublist)
      rooted := fun node membership => t.rooted node (List.mem_of_mem_filter membership)
      nested := by
        intro node membership
        have inTree := List.mem_of_mem_filter membership
        refine (t.nested node inTree).imp id fun parent => ?_
        refine List.mem_filter.mpr ⟨parent, ?_⟩
        simp only [ne_eq, decide_eq_true_eq]
        rintro rfl
        have notRoot := t.rooted node inTree
        have below := children_eq_nil.mp empty (node.1.getLast notRoot)
        rw [List.dropLast_append_getLast notRoot] at below
        exact absurd below (by rw [(entry_eq_some_iff notRoot).mpr inTree]; simp) }
  else t

theorem entry_remove (t : FileTree Valid Content) (p q : List Name) :
    (t.remove p).entry q = if q = p ∧ p ≠ [] ∧ t.children p = [] then none else t.entry q := by
  unfold remove
  split
  next empty =>
    by_cases root : q = []
    · subst root
      rw [entry_root, if_neg]
      · exact entry_root.symm
      · rintro ⟨rfl, notRoot, -⟩
        exact notRoot rfl
    by_cases here : q = p
    · subst here
      rw [if_pos ⟨rfl, root, empty⟩, Option.eq_none_iff_forall_ne_some]
      intro e found
      have membership := (entry_eq_some_iff root).mp found
      simp at membership
    · rw [if_neg fun ⟨same, _⟩ => here same]
      ext e
      simp [entry_eq_some_iff root, here]
  next full => rw [if_neg fun ⟨_, _, empty⟩ => full empty]

theorem entry_of_remove {removed : List Name} (found : (t.remove removed).entry q = some e) :
    t.entry q = some e := by
  rw [entry_remove] at found
  split at found
  · exact absurd found (by simp)
  · exact found

section Map

variable {Other : Type} (f : Content → Other)

/-- The same tree with other contents. -/
def map (t : FileTree Valid Content) : FileTree Valid Other where
  nodes := t.nodes.map fun node => (node.1, node.2.map f)
  named := by
    intro node membership
    obtain ⟨old, inTree, rfl⟩ := List.mem_map.mp membership
    exact t.named old inTree
  distinct := by
    rw [List.map_map]
    exact t.distinct
  rooted := by
    intro node membership
    obtain ⟨old, inTree, rfl⟩ := List.mem_map.mp membership
    exact t.rooted old inTree
  nested := by
    intro node membership
    obtain ⟨old, inTree, rfl⟩ := List.mem_map.mp membership
    exact (t.nested old inTree).imp id fun parent => List.mem_map.mpr ⟨_, parent, rfl⟩

theorem entry_map (t : FileTree Valid Content) (p : List Name) :
    (t.map f).entry p = (t.entry p).map (FileEntry.map f) := by
  unfold entry
  split
  · rfl
  · rw [map, List.find?_map, Option.map_map, Option.map_map]
    rfl

theorem isDir_map (t : FileTree Valid Content) (p : List Name) : (t.map f).isDir p = t.isDir p := by
  rw [isDir, isDir, entry_map]
  rcases t.entry p with _ | _ | _ <;> rfl

theorem children_map (t : FileTree Valid Content) (p : List Name) :
    (t.map f).children p = t.children p := by
  rw [children, children, map, List.map_map]
  rfl

theorem remove_map (t : FileTree Valid Content) (p : List Name) :
    (t.map f).remove p = (t.remove p).map f := by
  by_cases empty : t.children p = []
  · rw [remove, remove, dif_pos empty, dif_pos (by rw [children_map, empty])]
    simp only [map, List.filter_map, FileTree.mk.injEq]
    rfl
  · rw [remove, remove, dif_neg empty, dif_neg (by rwa [children_map])]

end Map

/-! ## Adding a node -/

variable [DecidablePred Valid]

/-- The tree with this node at `p`, under a valid name in an existing directory
and not in place of a directory. -/
def put (t : FileTree Valid Content) (p : List Name) (e : FileEntry Content) :
    FileTree Valid Content :=
  if free : p ≠ [] ∧ (∀ name ∈ p, Valid name) ∧ t.isDir p.dropLast = true ∧
      t.isDir p = false then
    { nodes := (p, e) :: t.nodes.filter fun node => node.1 ≠ p
      named := by
        intro node membership
        rcases List.mem_cons.mp membership with rfl | old
        · exact free.2.1
        · exact t.named node (List.mem_of_mem_filter old)
      distinct := by
        rw [List.map_cons, List.nodup_cons]
        refine ⟨?_, t.distinct.sublist (List.Sublist.map _ List.filter_sublist)⟩
        simp
      rooted := by
        intro node membership
        rcases List.mem_cons.mp membership with rfl | old
        · exact free.1
        · exact t.rooted node (List.mem_of_mem_filter old)
      nested := by
        have kept : ∀ parent : List Name, t.entry parent = some .directory → parent = [] ∨
            (parent, .directory) ∈ (p, e) :: t.nodes.filter fun node => node.1 ≠ p := by
          intro parent isDir
          by_cases root : parent = []
          · exact .inl root
          · refine .inr (List.mem_cons_of_mem _ (List.mem_filter.mpr ?_))
            refine ⟨(entry_eq_some_iff root).mp isDir, ?_⟩
            simp only [ne_eq, decide_eq_true_eq]
            rintro rfl
            rw [isDir_iff.mpr isDir] at free
            exact absurd free.2.2.2 (by simp)
        intro node membership
        rcases List.mem_cons.mp membership with rfl | old
        · exact kept _ (isDir_iff.mp free.2.2.1)
        · have inTree := List.mem_of_mem_filter old
          refine kept _ (isDir_iff.mp (entry_parent
            ((entry_eq_some_iff (t.rooted node inTree)).mpr inTree))) }
  else t

theorem entry_put (t : FileTree Valid Content) (p q : List Name) (e : FileEntry Content) :
    (t.put p e).entry q =
      if q = p ∧ p ≠ [] ∧ (∀ name ∈ p, Valid name) ∧ t.isDir p.dropLast = true ∧
          t.isDir p = false then some e
      else t.entry q := by
  unfold put
  split
  next free =>
    by_cases root : q = []
    · subst root
      rw [entry_root, if_neg fun ⟨same, notRoot, _⟩ => notRoot same.symm, entry_root]
    by_cases here : q = p
    · subst here
      rw [if_pos ⟨rfl, free⟩, entry_eq_some_iff root]
      exact List.mem_cons_self
    · rw [if_neg fun ⟨same, _⟩ => here same]
      ext other
      simp [entry_eq_some_iff root, here]
  next taken => rw [if_neg fun ⟨_, free⟩ => taken free]

end FileTree

end VpnMgr.Machine
