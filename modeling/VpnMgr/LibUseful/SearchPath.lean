import VpnMgr.LibUseful.Tokenizer

/-!
# Search paths

`FindFileInPath` of `FileSystem.c`.  What is looked up is the directory tree at
that moment: whether there is a name, and whether it is a symbolic link.
-/

namespace VpnMgr.LibUseful

open Text CString

/-- What `lstat` finds under a name. -/
inductive PathEntry where
  | link
  | other
  deriving DecidableEq

abbrev LStat := CString → Option PathEntry

/-- `SlashTerminateDirectoryPath`. -/
def slashTerminateDirectoryPath (dirPath : CString) : CString :=
  match dirPath.getLast? with
  | none => ['/']
  | some '/' => dirPath
  | some _ => dirPath ++ ['/']

/-- `AppendPath` without a subdirectory. -/
def appendPath (path file : CString) : CString := slashTerminateDirectoryPath path ++ file

/-- The names that `FindFileInPath` looks at.  An empty entry of the path stands
for the root directory. -/
def pathCandidates (file : CString) (path : CPtr) : List CString :=
  if file.head? = some '/' then [appendPath [] file]
  else (getTokens path ":".toList noFlags).map (appendPath · file)

/-- The loop of `FindFileInPath`; a link is only remembered. -/
def findCandidate (lstat : LStat) : CString → List CString → CString
  | link, [] => link
  | link, candidate :: rest =>
      match lstat candidate with
      | none => findCandidate lstat link rest
      | some .link => findCandidate lstat (if strValid (some link) then link else candidate) rest
      | some .other => candidate

/-- `FindFileInPath`. -/
def findFileInPath (lstat : LStat) (file : CString) (path : CPtr) : CString :=
  findCandidate lstat [] (pathCandidates file path)

theorem appendPath_ne_nil (path file : CString) : appendPath path file ≠ [] := by
  unfold appendPath slashTerminateDirectoryPath
  split
  · simp
  · rename_i last
    rintro empty
    rw [List.append_eq_nil_iff] at empty
    rw [empty.1] at last
    cases last
  · simp

theorem pathCandidates_ne_nil (file : CString) (path : CPtr) :
    ∀ candidate ∈ pathCandidates file path, candidate ≠ [] := by
  intro candidate member
  unfold pathCandidates at member
  split at member
  · rw [List.mem_singleton.mp member]
    exact appendPath_ne_nil _ _
  · obtain ⟨dir, -, rfl⟩ := List.mem_map.mp member
    exact appendPath_ne_nil _ _

theorem findCandidate_eq (lstat : LStat) (link : CString) (candidates : List CString)
    (nonempty : ∀ candidate ∈ candidates, candidate ≠ []) :
    findCandidate lstat link candidates =
      (candidates.find? (lstat · = some .other)).getD
        (if strValid (some link) then link
        else (candidates.find? (lstat · = some .link)).getD []) := by
  induction candidates generalizing link with
  | nil => cases link <;> rfl
  | cons candidate rest inductionHypothesis =>
      have others : ∀ other ∈ rest, other ≠ [] := fun other member =>
        nonempty other (List.mem_cons_of_mem _ member)
      rw [findCandidate]
      cases found : lstat candidate with
      | none => simp [found, inductionHypothesis link others]
      | some entry =>
          cases entry with
          | other => simp [found]
          | link =>
              have isValid : strValid (some candidate) = true :=
                (strValid_some_iff _).mpr (nonempty candidate List.mem_cons_self)
              simp only [inductionHypothesis _ others]
              cases remembered : strValid (some link) <;> simp [found, remembered, isValid]

theorem findFileInPath_eq (lstat : LStat) (file : CString) (path : CPtr) :
    findFileInPath lstat file path =
      ((pathCandidates file path).find? (lstat · = some .other)).getD
        (((pathCandidates file path).find? (lstat · = some .link)).getD []) :=
  findCandidate_eq lstat [] _ (pathCandidates_ne_nil file path)

/-- A name is found exactly when some directory of the path has it. -/
theorem findFileInPath_valid_iff (lstat : LStat) (file : CString) (path : CPtr) :
    strValid (some (findFileInPath lstat file path)) = true ↔
      ∃ candidate ∈ pathCandidates file path, (lstat candidate).isSome = true := by
  have found : ∀ {entry : PathEntry} {candidate : CString}, (pathCandidates file path).find? (lstat · = some entry) =
      some candidate → candidate ∈ pathCandidates file path ∧ (lstat candidate).isSome = true ∧
        strValid (some candidate) = true := fun isFound => by
    have member := List.mem_of_find?_eq_some isFound
    have isEntry := List.find?_some isFound
    rw [decide_eq_true_eq] at isEntry
    exact ⟨member, by rw [isEntry]; rfl,
      (strValid_some_iff _).mpr (pathCandidates_ne_nil file path _ member)⟩
  rw [findFileInPath_eq]
  cases other : (pathCandidates file path).find? (lstat · = some .other) with
  | some candidate =>
      obtain ⟨member, isSome, isValid⟩ := found other
      exact iff_of_true isValid ⟨candidate, member, isSome⟩
  | none =>
      cases link : (pathCandidates file path).find? (lstat · = some .link) with
      | some candidate =>
          obtain ⟨member, isSome, isValid⟩ := found link
          exact iff_of_true isValid ⟨candidate, member, isSome⟩
      | none =>
          refine iff_of_false Bool.false_ne_true ?_
          rintro ⟨candidate, member, isSome⟩
          obtain ⟨entry, isEntry⟩ := Option.isSome_iff_exists.mp isSome
          cases entry with
          | other => exact absurd isEntry (by simpa using List.find?_eq_none.mp other candidate member)
          | link => exact absurd isEntry (by simpa using List.find?_eq_none.mp link candidate member)

end VpnMgr.LibUseful
