import Mathlib.Tactic.Common

/-!
# Files by path

A store of files that are written, removed and moved; a missing file is `none`.
-/

namespace VpnMgr.Machine

abbrev Files (Path Content : Type) := Path → Option Content

namespace Files

variable {Path Content : Type} [DecidableEq Path]

def put (files : Files Path Content) (path : Path) (content : Option Content) :
    Files Path Content :=
  fun other => if other = path then content else files other

/-- Move a file over another; without it nothing happens. -/
def move (files : Files Path Content) (source target : Path) : Files Path Content :=
  match files source with
  | some content => (files.put source none).put target (some content)
  | none => files

variable (files : Files Path Content) {path other source target : Path}

@[simp]
theorem put_same (path : Path) (content : Option Content) : files.put path content path = content :=
  if_pos rfl

theorem put_other (content : Option Content) (different : other ≠ path) :
    files.put path content other = files other := if_neg different

theorem put_put (path : Path) (first second : Option Content) :
    (files.put path first).put path second = files.put path second := by
  funext other
  by_cases same : other = path
  · simp [put, same]
  · simp [put, same]

theorem move_source (different : source ≠ target) : files.move source target source = none := by
  rcases found : files source with _ | content
  · simp [move, found]
  · simp [move, found, put, different]

theorem move_target (source target : Path) :
    files.move source target target = (files source).or (files target) := by
  rcases found : files source with _ | content
  · simp [move, found]
  · simp [move, found]

theorem move_other (notSource : other ≠ source) (notTarget : other ≠ target) :
    files.move source target other = files other := by
  rcases found : files source with _ | content
  · simp [move, found]
  · simp [move, found, put, notSource, notTarget]

def Agree (paths : Path → Prop) (files others : Files Path Content) : Prop :=
  ∀ path, paths path → files path = others path

variable {paths : Path → Prop} {files} {others : Files Path Content}

omit [DecidableEq Path] in
theorem Agree.trans {more : Files Path Content} (first : Agree paths files others)
    (second : Agree paths others more) : Agree paths files more :=
  fun path inside => (first path inside).trans (second path inside)

theorem Agree.put (agree : Agree paths files others) (path : Path) (content : Option Content) :
    Agree paths (files.put path content) (others.put path content) := by
  intro other inside
  unfold Files.put
  split
  · rfl
  · exact agree other inside

theorem Agree.move (agree : Agree paths files others) (inside : paths source) (target : Path) :
    Agree paths (files.move source target) (others.move source target) := by
  unfold Files.move
  rw [agree source inside]
  split
  · exact (agree.put source none).put target _
  · exact agree

theorem Agree.put_outside (outside : ¬ paths path) (content : Option Content) :
    Agree paths (files.put path content) files :=
  fun _ inside => files.put_other content fun same => outside (same ▸ inside)

end Files

end VpnMgr.Machine
