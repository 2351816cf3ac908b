import VpnMgr.LibUseful.Strings
import VpnMgr.Machine.LastWrite

/-!
# Named variables in lists

`Vars.c` over the lists that `ListCreate()` of `List.c` gives, and the maps from
names to values that they stand for.
-/

namespace VpnMgr.LibUseful

open Machine Text CString

/-- A `ListNode` of a list of variables. -/
structure ListNode where
  tag : CPtr
  itemType : UInt16
  item : CString
  deriving DecidableEq

/-- The nodes after the head.  Where the code has a pointer there is a position,
which is 0 for the head. -/
abbrev Vars := List ListNode

namespace ListNode

/-- `Tag && strcasecmp(Tag, Name) == 0`. -/
def hasTag (name : CString) (node : ListNode) : Bool := node.tag.any fun tag => sameNoCase tag name

/-- `CompareStrNoCase(Tag, Name) == 0`. -/
def isNamed (name : CString) (node : ListNode) : Bool := equalStrNoCase node.tag (some name)

def create (name : CString) (itemType : Int) (item : CString) : ListNode :=
  ⟨if strValid (some name) then some name else none, UInt16.ofInt itemType, item⟩

end ListNode

/-- `LIST_ITEM_ANYTYPE`. -/
def listItemAnyType : Int := -1

/-- `ListConsiderInsertPoint`, in a list without flags. -/
def listConsiderInsertPoint (nodes : Vars) (name : CString) : Nat → Bool
  | 0 => false
  | n + 1 => nodes[n]?.any (·.hasTag name)

/-- The loop of `ListFindNamedItemInsert`, from the node after `Prev`. -/
def listInsertPointFrom (name : CString) : Nat → List ListNode → Nat
  | previous, [] => previous
  | previous, node :: rest =>
      if node.hasTag name then (if previous = 0 then 1 else previous)
      else listInsertPointFrom name (previous + 1) rest

/-- `ListFindNamedItemInsert`; the last item is looked at first. -/
def listFindNamedItemInsert (nodes : Vars) (name : CString) : Nat :=
  if !strValid (some name) then 0
  else if listConsiderInsertPoint nodes name nodes.length then nodes.length
  else listInsertPointFrom name 0 nodes

/-- The loop of `ListFindTypedItem` that goes back over nodes of the same name. -/
def listRewind (nodes : Vars) (name : CString) : Nat → Nat
  | 0 => 0
  | 1 => 1
  | n + 2 => if listConsiderInsertPoint nodes name (n + 1) then listRewind nodes name (n + 1)
      else n + 2

/-- The loop of `ListFindTypedItem` that goes on from a position; the result is
an index. -/
def listSearchFrom (nodes : Vars) (itemType : Int) (name : CString) (position : Nat) : Option Nat :=
  ((nodes.drop (position - 1)).findIdx? fun node => node.isNamed name &&
    (itemType = listItemAnyType || itemType = node.itemType.toNat)).map (· + (position - 1))

/-- The first node that `ListFindTypedItem` looks at: not the head. -/
def listStart (nodes : Vars) (name : CString) : Nat :=
  if listFindNamedItemInsert nodes name = 0 then 1 else listFindNamedItemInsert nodes name

/-- `ListFindTypedItem`. -/
def listFindTypedItem (nodes : Vars) (itemType : Int) (name : CString) : Option Nat :=
  if nodes.length < listStart nodes name then none
  else listSearchFrom nodes itemType name (listRewind nodes name (listStart nodes name))

/-- `SetTypedVar`. -/
def setTypedVar (nodes : Vars) (name : CString) (data : CPtr) (itemType : Int) : Vars :=
  match listFindTypedItem nodes itemType name with
  | some index => nodes.modify index fun node => { node with item := copyStr data }
  | none => nodes ++ [.create name itemType (copyStr data)]

/-- `SetVar`. -/
def setVar (nodes : Vars) (name : CString) (data : CPtr) : Vars := setTypedVar nodes name data 0

/-- `GetVar`. -/
def getVar (nodes : Vars) (name : CString) : CString :=
  match listFindTypedItem nodes listItemAnyType name with
  | some index => (nodes[index]?.map ListNode.item).getD []
  | none => []

/-- `UnsetVar`. -/
def unsetVar (nodes : Vars) (name : CString) : Vars :=
  match listFindTypedItem nodes listItemAnyType name with
  | some index => nodes.eraseIdx index
  | none => nodes

/-! ## Finding a name -/

def nameKey (name : CString) : CString := name.map Char.toLower

def ListNode.key (node : ListNode) : CString := nameKey (copyStr node.tag)

theorem sameNoCase_iff (a b : CString) : sameNoCase a b = true ↔ nameKey a = nameKey b :=
  beq_iff_eq

theorem ListNode.isNamed_iff (name : CString) (node : ListNode) :
    node.isNamed name = true ↔ node.key = nameKey name := by
  rcases node with ⟨_ | (_ | ⟨first, rest⟩), itemType, item⟩
  · cases name <;> simp [isNamed, equalStrNoCase, key, nameKey, copyStr]
  · cases name <;> simp [isNamed, equalStrNoCase, key, nameKey, copyStr]
  · cases name with
    | nil => simp [isNamed, equalStrNoCase, key, nameKey]
    | cons other others => simp [isNamed, equalStrNoCase, key, sameNoCase_iff]

theorem ListNode.hasTag_eq {name : CString} (nonempty : name ≠ []) (node : ListNode) :
    node.hasTag name = node.isNamed name := by
  rw [Bool.eq_iff_iff, isNamed_iff, hasTag, Option.any_eq_true]
  cases tag : node.tag with
  | none => simpa [key, tag, copyStr, nameKey] using nonempty
  | some text => simp [key, tag, sameNoCase_iff]

theorem ListNode.isNamed_of_hasTag {name : CString} {node : ListNode}
    (tagged : node.hasTag name = true) : node.isNamed name = true := by
  obtain ⟨tag, isTag, same⟩ := (Option.any_eq_true _ _).mp tagged
  rw [isNamed_iff, key, show node.tag = some tag from isTag]
  exact (sameNoCase_iff _ _).mp same

@[simp]
theorem ListNode.key_create (name : CString) (itemType : Int) (item : CString) :
    (create name itemType item).key = nameKey name := by
  cases name <;> rfl

section Find

variable {nodes : Vars} {name : CString}

def NamedFrom (nodes : Vars) (name : CString) (position : Nat) : Prop :=
  ∀ node ∈ nodes.take (position - 1), node.isNamed name = false

theorem listInsertPointFrom_namedFrom (nonempty : name ≠ []) (before after : List ListNode)
    (absent : ∀ node ∈ before, node.isNamed name = false) :
    NamedFrom (before ++ after) name (listInsertPointFrom name before.length after) := by
  induction after generalizing before with
  | nil =>
      intro node member
      rw [List.append_nil] at member
      exact absent node (List.mem_of_mem_take member)
  | cons node rest inductionHypothesis =>
      rw [listInsertPointFrom]
      split
      · intro other member
        have short : (if before.length = 0 then 1 else before.length) - 1 ≤ before.length := by
          split <;> omega
        rw [List.take_append_of_le_length short] at member
        exact absent other (List.mem_of_mem_take member)
      · rename_i different
        rw [ListNode.hasTag_eq nonempty, Bool.not_eq_true] at different
        have further := inductionHypothesis (before ++ [node]) fun other member => by
          rcases List.mem_append.mp member with inBefore | isNode
          · exact absent other inBefore
          · rwa [List.mem_singleton.mp isNode]
        simpa using further

/-- The jump to the last item loses nothing where names are distinct. -/
theorem listFindNamedItemInsert_namedFrom (distinct : (nodes.map ListNode.key).Nodup) :
    NamedFrom nodes name (listFindNamedItemInsert nodes name) := by
  unfold listFindNamedItemInsert
  split
  · intro node member
    exact absurd member (by simp)
  · rename_i valid
    have nonempty : name ≠ [] := by simpa [strValid_some_iff] using valid
    split
    · rename_i last
      rcases List.eq_nil_or_concat nodes with rfl | ⟨init, final, rfl⟩
      · exact absurd last (by simp [listConsiderInsertPoint])
      · have isLast : final.isNamed name = true := by
          rw [← ListNode.hasTag_eq nonempty]
          simpa [listConsiderInsertPoint] using last
        intro node member
        have inInit : node ∈ init := by simpa using member
        have different : node.key ≠ final.key := by
          rw [List.concat_eq_append, List.map_append, List.nodup_append] at distinct
          exact distinct.2.2 _ (List.mem_map_of_mem inInit) _ (by simp)
        rw [← Bool.not_eq_true, ListNode.isNamed_iff, ← (ListNode.isNamed_iff name final).mp isLast]
        exact different
    · simpa using listInsertPointFrom_namedFrom nonempty [] nodes (by simp)

theorem listRewind_eq {position : Nat} (fresh : NamedFrom nodes name position) :
    listRewind nodes name position = position := by
  match position with
  | 0 => rfl
  | 1 => rfl
  | n + 2 =>
      rw [listRewind, if_neg]
      intro same
      obtain ⟨node, isNode, tagged⟩ := (Option.any_eq_true _ _).mp same
      have named := ListNode.isNamed_of_hasTag tagged
      have early : node ∈ nodes.take (n + 1) := List.mem_of_getElem? (i := n) (by
        rw [List.getElem?_take_of_lt (Nat.lt_succ_self n)]
        exact isNode)
      rw [fresh node early] at named
      cases named

theorem findIdx?_congr {α : Type} {first second : α → Bool} {items : List α}
    (same : ∀ item ∈ items, first item = second item) :
    items.findIdx? first = items.findIdx? second := by
  induction items with
  | nil => rfl
  | cons item rest inductionHypothesis =>
      rw [List.findIdx?_cons, List.findIdx?_cons, same item List.mem_cons_self,
        inductionHypothesis fun other member => same other (List.mem_cons_of_mem _ member)]

def TypedAlike (itemType : Int) (nodes : Vars) : Prop :=
  ∀ node ∈ nodes, itemType = listItemAnyType ∨ itemType = node.itemType.toNat

theorem listSearchFrom_eq {position : Nat} (fresh : NamedFrom nodes name position)
    (inside : position ≤ nodes.length) {itemType : Int} (alike : TypedAlike itemType nodes) :
    listSearchFrom nodes itemType name position = nodes.findIdx? (·.isNamed name) := by
  have typed : (nodes.drop (position - 1)).findIdx? (fun node => node.isNamed name &&
      (itemType = listItemAnyType || itemType = node.itemType.toNat)) =
      (nodes.drop (position - 1)).findIdx? (·.isNamed name) := by
    refine findIdx?_congr fun node member => ?_
    simpa using fun _ => alike node (List.mem_of_mem_drop member)
  have absent := List.findIdx?_eq_none_iff.mpr fresh
  have length : (nodes.take (position - 1)).length = position - 1 := by
    rw [List.length_take]
    omega
  conv_rhs => rw [← List.take_append_drop (position - 1) nodes]
  rw [listSearchFrom, typed, List.findIdx?_append, absent, Option.none_or, length]

theorem listInsertPointFrom_le (previous : Nat) :
    listInsertPointFrom name previous nodes ≤ previous + nodes.length := by
  induction nodes generalizing previous with
  | nil => exact Nat.le_refl _
  | cons node rest inductionHypothesis =>
      rw [listInsertPointFrom, List.length_cons]
      split
      · split <;> omega
      · exact (inductionHypothesis (previous + 1)).trans (by omega)

theorem listFindNamedItemInsert_le : listFindNamedItemInsert nodes name ≤ nodes.length := by
  unfold listFindNamedItemInsert
  split
  · exact Nat.zero_le _
  · split
    · exact Nat.le_refl _
    · have inside : listInsertPointFrom name 0 nodes ≤ 0 + nodes.length :=
        listInsertPointFrom_le 0
      rwa [Nat.zero_add] at inside

theorem listStart_namedFrom (distinct : (nodes.map ListNode.key).Nodup) :
    NamedFrom nodes name (listStart nodes name) := by
  unfold listStart
  split
  · exact fun node member => absurd member (by simp)
  · exact listFindNamedItemInsert_namedFrom distinct

theorem eq_nil_of_lt_listStart (short : nodes.length < listStart nodes name) : nodes = [] := by
  have inside : listFindNamedItemInsert nodes name ≤ nodes.length := listFindNamedItemInsert_le
  apply List.eq_nil_of_length_eq_zero
  unfold listStart at short
  split at short <;> omega

theorem listFindTypedItem_eq (distinct : (nodes.map ListNode.key).Nodup) {itemType : Int}
    (alike : TypedAlike itemType nodes) :
    listFindTypedItem nodes itemType name = nodes.findIdx? (·.isNamed name) := by
  have fresh : NamedFrom nodes name (listStart nodes name) := listStart_namedFrom distinct
  rw [listFindTypedItem]
  split
  case isTrue short =>
    rw [eq_nil_of_lt_listStart short]
    rfl
  case isFalse inside =>
    rw [listRewind_eq fresh]
    exact listSearchFrom_eq fresh (Nat.le_of_not_lt inside) alike

end Find

/-! ## Lists of variables -/

/-- What `SetVar` and `UnsetVar` leave: every name once, and no types. -/
structure VarsValid (nodes : Vars) : Prop where
  distinct : (nodes.map ListNode.key).Nodup
  untyped : ∀ node ∈ nodes, node.itemType = 0

def varNode (nodes : Vars) (name : CString) : Option ListNode := nodes.find? (·.isNamed name)

section Vars

variable {nodes : Vars}

theorem VarsValid.nil : VarsValid [] := ⟨List.nodup_nil, by simp⟩

theorem VarsValid.alike (valid : VarsValid nodes) : TypedAlike 0 nodes := fun node member => by
  rw [valid.untyped node member]
  exact .inr rfl

theorem getVar_eq (valid : VarsValid nodes) (name : CString) :
    getVar nodes name = ((varNode nodes name).map ListNode.item).getD [] := by
  rw [getVar, listFindTypedItem_eq valid.distinct fun _ _ => .inl rfl, varNode,
    List.find?_eq_bind_findIdx?_getElem?]
  cases nodes.findIdx? (·.isNamed name) <;> rfl

@[simp]
theorem getVar_nil (name : CString) : getVar [] name = [] := getVar_eq .nil name

theorem findIdx?_split {name : CString} {index : Nat}
    (found : nodes.findIdx? (·.isNamed name) = some index) :
    ∃ before node after, nodes = before ++ node :: after ∧ index = before.length ∧
      node.isNamed name = true ∧ ∀ other ∈ before, other.isNamed name = false := by
  obtain ⟨inside, isNamed, earlier⟩ := List.findIdx?_eq_some_iff_getElem.mp found
  refine ⟨nodes.take index, nodes[index], nodes.drop (index + 1), ?_, ?_, isNamed, ?_⟩
  · rw [List.getElem_cons_drop, List.take_append_drop]
  · rw [List.length_take, Nat.min_eq_left inside.le]
  · intro other member
    obtain ⟨place, isPlace, rfl⟩ := List.mem_take_iff_getElem.mp member
    simpa using earlier place (by omega)

theorem isNamed_congr {name other : CString} (same : nameKey name = nameKey other)
    (node : ListNode) : node.isNamed name = node.isNamed other := by
  rw [Bool.eq_iff_iff, ListNode.isNamed_iff, ListNode.isNamed_iff, same]

theorem setVar_cases (valid : VarsValid nodes) (name : CString) (data : CPtr) :
    (∃ before node after, nodes = before ++ node :: after ∧ node.isNamed name = true ∧
      (∀ other ∈ before, other.isNamed name = false) ∧
      setVar nodes name data = before ++ { node with item := copyStr data } :: after) ∨
    ((∀ node ∈ nodes, node.isNamed name = false) ∧
      setVar nodes name data = nodes ++ [.create name 0 (copyStr data)]) := by
  rw [setVar, setTypedVar, listFindTypedItem_eq valid.distinct valid.alike]
  cases found : nodes.findIdx? (·.isNamed name) with
  | none => exact .inr ⟨List.findIdx?_eq_none_iff.mp found, rfl⟩
  | some index =>
      obtain ⟨before, node, after, rfl, rfl, isNamed, absent⟩ := findIdx?_split found
      refine .inl ⟨before, node, after, rfl, isNamed, absent, ?_⟩
      change List.modify _ _ _ = _
      rw [List.modify_eq_take_cons_drop (by simp)]
      simp

theorem unsetVar_cases (valid : VarsValid nodes) (name : CString) :
    (∃ before node after, nodes = before ++ node :: after ∧ node.isNamed name = true ∧
      (∀ other ∈ before, other.isNamed name = false) ∧ unsetVar nodes name = before ++ after) ∨
    ((∀ node ∈ nodes, node.isNamed name = false) ∧ unsetVar nodes name = nodes) := by
  rw [unsetVar, listFindTypedItem_eq valid.distinct fun _ _ => .inl rfl]
  cases found : nodes.findIdx? (·.isNamed name) with
  | none => exact .inr ⟨List.findIdx?_eq_none_iff.mp found, rfl⟩
  | some index =>
      obtain ⟨before, node, after, rfl, rfl, isNamed, absent⟩ := findIdx?_split found
      refine .inl ⟨before, node, after, rfl, isNamed, absent, ?_⟩
      change List.eraseIdx _ _ = _
      rw [List.eraseIdx_append_of_length_le (Nat.le_refl _), Nat.sub_self]
      rfl

theorem setVar_valid (valid : VarsValid nodes) (name : CString) (data : CPtr) :
    VarsValid (setVar nodes name data) := by
  obtain ⟨distinct, untyped⟩ := valid
  rcases setVar_cases ⟨distinct, untyped⟩ name data with
    ⟨before, node, after, rfl, -, -, is⟩ | ⟨absent, is⟩
  · rw [is]
    refine ⟨by simpa [ListNode.key] using distinct, fun other member => ?_⟩
    rcases List.mem_append.mp member with inBefore | inRest
    · exact untyped other (List.mem_append_left _ inBefore)
    · rcases List.mem_cons.mp inRest with rfl | inAfter
      · exact untyped node (by simp)
      · exact untyped other (by simp [inAfter])
  · rw [is]
    refine ⟨?_, fun other member => ?_⟩
    · rw [List.map_append, List.nodup_append]
      refine ⟨distinct, by simp, ?_⟩
      rintro key isKey created isCreated rfl
      obtain ⟨node, inNodes, rfl⟩ := List.mem_map.mp isKey
      have named : node.isNamed name = true := by
        rw [ListNode.isNamed_iff]
        simpa using isCreated
      rw [absent node inNodes] at named
      cases named
    · rcases List.mem_append.mp member with inNodes | isCreated
      · exact untyped other inNodes
      · rw [List.mem_singleton.mp isCreated]
        rfl

theorem unsetVar_valid (valid : VarsValid nodes) (name : CString) :
    VarsValid (unsetVar nodes name) := by
  rcases unsetVar_cases valid name with ⟨before, node, after, rfl, -, -, is⟩ | ⟨-, is⟩
  · rw [is]
    have sub : (before ++ after).Sublist (before ++ node :: after) :=
      List.Sublist.append_left (List.sublist_cons_self _ _) _
    exact ⟨valid.distinct.sublist (sub.map _), fun other member =>
      valid.untyped other (sub.subset member)⟩
  · rwa [is]

theorem find?_append_absent {name : CString} {before after : Vars}
    (absent : ∀ node ∈ before, node.isNamed name = false) :
    varNode (before ++ after) name = varNode after name := by
  rw [varNode, List.find?_append, List.find?_eq_none.mpr fun node member => by
    simp [absent node member], Option.none_or]
  rfl

theorem varNode_cons_of_not {name : CString} {node : ListNode} {after : Vars}
    (isOther : node.isNamed name = false) : varNode (node :: after) name = varNode after name :=
  List.find?_cons_of_neg (by simp [isOther])

theorem varNode_congr {before after after' : Vars} {name : CString}
    (same : varNode after name = varNode after' name) :
    varNode (before ++ after) name = varNode (before ++ after') name := by
  unfold varNode at same ⊢
  rw [List.find?_append, List.find?_append, same]

theorem isNamed_other {name other : CString} {node : ListNode} (isNamed : node.isNamed name = true)
    (different : sameNoCase name other = false) : node.isNamed other = false := by
  rw [← Bool.not_eq_true, ListNode.isNamed_iff, (ListNode.isNamed_iff name node).mp isNamed,
    ← sameNoCase_iff, different]
  exact Bool.false_ne_true

theorem getVar_setVar (valid : VarsValid nodes) (name other : CString) (data : CPtr) :
    getVar (setVar nodes name data) other =
      if sameNoCase name other then copyStr data else getVar nodes other := by
  rw [getVar_eq (setVar_valid valid name data), getVar_eq valid]
  cases same : sameNoCase name other with
  | true =>
      have alike := isNamed_congr ((sameNoCase_iff name other).mp same)
      rw [if_pos rfl]
      rcases setVar_cases valid name data with ⟨before, node, after, -, isNamed, absent, is⟩ |
        ⟨absent, is⟩
      · rw [is, find?_append_absent fun item member => by rw [← alike, absent item member], varNode,
          List.find?_cons_of_pos (by rw [← alike]; exact isNamed)]
        rfl
      · rw [is, find?_append_absent fun item member => by rw [← alike, absent item member], varNode,
          List.find?_cons_of_pos ((ListNode.isNamed_iff _ _).mpr ?_)]
        · rfl
        · rw [ListNode.key_create, (sameNoCase_iff name other).mp same]
  | false =>
      rw [if_neg Bool.false_ne_true]
      rcases setVar_cases valid name data with ⟨before, node, after, rfl, isNamed, -, is⟩ | ⟨-, is⟩
      · have different := isNamed_other isNamed same
        have changed : ({ node with item := copyStr data } : ListNode).isNamed other = false :=
          different
        rw [is, varNode_congr ((varNode_cons_of_not changed).trans
          (varNode_cons_of_not different).symm)]
      · have isNamed : (ListNode.create name 0 (copyStr data)).isNamed name = true :=
          (ListNode.isNamed_iff _ _).mpr (ListNode.key_create name 0 _)
        have isOther := isNamed_other isNamed same
        have none : varNode [ListNode.create name 0 (copyStr data)] other = varNode [] other :=
          varNode_cons_of_not isOther
        rw [is, varNode_congr none, List.append_nil]

theorem getVar_unsetVar (valid : VarsValid nodes) (name other : CString) :
    getVar (unsetVar nodes name) other =
      if sameNoCase name other then [] else getVar nodes other := by
  rw [getVar_eq (unsetVar_valid valid name), getVar_eq valid]
  cases same : sameNoCase name other with
  | true =>
      have alike := isNamed_congr ((sameNoCase_iff name other).mp same)
      rw [if_pos rfl]
      have gone : varNode (unsetVar nodes name) other = none := by
        refine List.find?_eq_none.mpr fun item member => ?_
        rw [← alike, Bool.not_eq_true]
        rcases unsetVar_cases valid name with ⟨before, node, after, rfl, isNamed, absent, is⟩ |
          ⟨absent, is⟩
        · rw [is] at member
          rcases List.mem_append.mp member with inBefore | inAfter
          · exact absent item inBefore
          · have distinct := valid.distinct
            rw [List.map_append, List.map_cons, List.nodup_append] at distinct
            rw [← Bool.not_eq_true, ListNode.isNamed_iff,
              ← (ListNode.isNamed_iff name node).mp isNamed]
            exact fun equal => (List.nodup_cons.mp distinct.2.1).1
              (equal ▸ List.mem_map_of_mem inAfter)
        · rw [is] at member
          exact absent item member
      rw [gone]
      rfl
  | false =>
      rw [if_neg Bool.false_ne_true]
      rcases unsetVar_cases valid name with ⟨before, node, after, rfl, isNamed, -, is⟩ | ⟨-, is⟩
      · rw [is, varNode_congr (varNode_cons_of_not (isNamed_other isNamed same)).symm]
      · rw [is]

end Vars

inductive VarOperation where
  | set (name : CString) (data : CPtr)
  | unset (name : CString)
  deriving DecidableEq

namespace VarOperation

def run (nodes : Vars) : VarOperation → Vars
  | set name data => setVar nodes name data
  | unset name => unsetVar nodes name

def gives (name : CString) : VarOperation → Option CString
  | set written data => if sameNoCase written name then some (copyStr data) else none
  | unset written => if sameNoCase written name then some [] else none

end VarOperation

/-- A list that `SetVar` and `UnsetVar` made. -/
structure VarTable where
  nodes : Vars
  valid : VarsValid nodes

namespace VarTable

def empty : VarTable := ⟨[], .nil⟩

def run (table : VarTable) (operation : VarOperation) : VarTable where
  nodes := operation.run table.nodes
  valid := by
    cases operation with
    | set name data => exact setVar_valid table.valid name data
    | unset name => exact unsetVar_valid table.valid name

theorem getVar_run (table : VarTable) (operation : VarOperation) (name : CString) :
    getVar (table.run operation).nodes name =
      (operation.gives name).getD (getVar table.nodes name) := by
  cases operation with
  | set written data =>
      refine (getVar_setVar table.valid written name data).trans ?_
      rw [VarOperation.gives]
      split <;> rfl
  | unset written =>
      refine (getVar_unsetVar table.valid written name).trans ?_
      rw [VarOperation.gives]
      split <;> rfl

theorem foldl_nodes (operations : List VarOperation) (table : VarTable) :
    (operations.foldl run table).nodes = operations.foldl VarOperation.run table.nodes :=
  (List.foldl_hom nodes fun _ _ => rfl).symm

end VarTable

section Runs

variable (operations : List VarOperation) (name : CString)

theorem foldl_run_nodes : (operations.foldl VarTable.run .empty).nodes =
    operations.foldl VarOperation.run [] := VarTable.foldl_nodes operations .empty

theorem getVar_foldl : getVar (operations.foldl VarOperation.run []) name =
    (lastGiven (VarOperation.gives name) operations).getD [] := by
  rw [← foldl_run_nodes, ← getVar_nil name]
  exact read_foldl VarTable.run (fun table => getVar table.nodes name) (VarOperation.gives name)
    (fun table operation => table.getVar_run operation name) operations .empty

/-- Whatever was set and unset before, a name, in any case, has the value it was
given last, and no name is in the list twice. -/
theorem vars_lastWrite :
    getVar (operations.foldl VarOperation.run []) name =
        (lastGiven (VarOperation.gives name) operations).getD [] ∧
      ((operations.foldl VarOperation.run []).map ListNode.key).Nodup := by
  refine ⟨getVar_foldl operations name, ?_⟩
  rw [← foldl_run_nodes]
  exact (operations.foldl VarTable.run .empty).valid.distinct

end Runs

end VpnMgr.LibUseful
