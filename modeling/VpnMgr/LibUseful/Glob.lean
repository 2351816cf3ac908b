import VpnMgr.Machine.FileTree
import VpnMgr.Text.CString
import Mathlib.Data.List.Sort

/-!
# Patterns and paths of the C library

`fnmatch` as `glob` calls it on the names of a directory (with `FNM_PERIOD`, in
the `C` locale), `glob` itself, and the resolution of path names.  A path name
is handled as the list of the texts between its slashes.
-/

namespace VpnMgr.LibUseful

open VpnMgr.Machine VpnMgr.Text CString

/-! ## `fnmatch` -/

/-- An item of a bracket expression. -/
inductive BracketItem where
  | range (low high : Char)
  | charClass (name : CString)

/-- An element of a pattern. -/
inductive GlobItem where
  | star
  | question
  | bracket (negated : Bool) (items : List BracketItem)
  | char (c : Char)

/-- `[:name:]`. -/
def inCharClass (name : CString) (c : Char) : Bool :=
  if name = "alpha".toList then c.isAlpha
  else if name = "digit".toList then c.isDigit
  else if name = "alnum".toList then c.isAlphanum
  else if name = "upper".toList then c.isUpper
  else if name = "lower".toList then c.isLower
  else if name = "space".toList then isSpace c
  else if name = "blank".toList then c = ' ' || c = '\t'
  else if name = "cntrl".toList then c.toNat < 32 || c.toNat = 127
  else if name = "print".toList then 32 ≤ c.toNat && c.toNat < 127
  else if name = "graph".toList then 32 < c.toNat && c.toNat < 127
  else if name = "punct".toList then 32 < c.toNat && c.toNat < 127 && !c.isAlphanum
  else if name = "xdigit".toList then c.isDigit || ('a' ≤ c.toLower && c.toLower ≤ 'f')
  else false

def BracketItem.contains (c : Char) : BracketItem → Bool
  | range low high => low ≤ c && c ≤ high
  | charClass name => inCharClass name c

/-- An end of a range: a character, escaped or as `[.c.]` or `[=c=]`. -/
def bracketChar : CString → Option (Char × CString)
  | '\\' :: c :: rest => some (c, rest)
  | '[' :: '.' :: c :: '.' :: ']' :: rest => some (c, rest)
  | '[' :: '=' :: c :: '=' :: ']' :: rest => some (c, rest)
  | c :: rest => some (c, rest)
  | [] => none

/-- The items up to the closing bracket and the text behind it; `first` is set
where a `]` stands for itself.  Every item uses up a character. -/
def bracketItems : Nat → Bool → CString → Option (List BracketItem × CString)
  | 0, _, _ => none
  | fuel + 1, first, text =>
      match text with
      | [] => none
      | ']' :: rest =>
          if first then (bracketItems fuel false rest).map fun (items, behind) =>
            (.range ']' ']' :: items, behind)
          else some ([], rest)
      | '[' :: ':' :: rest =>
          let name := rest.takeWhile (· != ':')
          match rest.dropWhile (· != ':') with
          | ':' :: ']' :: rest => (bracketItems fuel false rest).map fun (items, behind) =>
              (.charClass name :: items, behind)
          | _ => (bracketItems fuel false (':' :: rest)).map fun (items, behind) =>
              (.range '[' '[' :: items, behind)
      | text =>
          (bracketChar text).bind fun (low, rest) =>
            match rest with
            | '-' :: c :: more =>
                if c = ']' then
                  (bracketItems fuel false rest).map fun (items, behind) =>
                    (.range low low :: items, behind)
                else
                  (bracketChar (c :: more)).bind fun (high, rest) =>
                    (bracketItems fuel false rest).map fun (items, behind) =>
                      (.range low high :: items, behind)
            | rest => (bracketItems fuel false rest).map fun (items, behind) =>
                (.range low low :: items, behind)

/-- A pattern's elements.  An unclosed bracket stands for itself, and a final
backslash escapes the slash behind the pattern. -/
def globItems : Nat → CString → List GlobItem
  | 0, _ => []
  | fuel + 1, pattern =>
      match pattern with
      | [] => []
      | '*' :: rest => .star :: globItems fuel rest
      | '?' :: rest => .question :: globItems fuel rest
      | '\\' :: c :: rest => .char c :: globItems fuel rest
      | ['\\'] => []
      | '[' :: rest =>
          let (negated, body) :=
            match rest with
            | '!' :: body => (true, body)
            | '^' :: body => (true, body)
            | body => (false, body)
          match bracketItems (body.length + 1) true body with
          | some (items, behind) => .bracket negated items :: globItems fuel behind
          | none => .char '[' :: globItems fuel rest
      | c :: rest => .char c :: globItems fuel rest

/-- A `*` in front of a pattern. -/
def matchStar (next : CString → Bool) : CString → Bool
  | [] => next []
  | c :: rest => next (c :: rest) || matchStar next rest

def matchItems : List GlobItem → CString → Bool
  | [], name => name = []
  | .star :: items, name => matchStar (matchItems items) name
  | .question :: items, name =>
      match name with
      | [] => false
      | _ :: rest => matchItems items rest
  | .bracket negated set :: items, name =>
      match name with
      | [] => false
      | c :: rest => (set.any (·.contains c) != negated) && matchItems items rest
  | .char expected :: items, name =>
      match name with
      | [] => false
      | c :: rest => c = expected && matchItems items rest

/-- A leading period is matched by a period only. -/
def periodAllowed (items : List GlobItem) (name : CString) : Bool :=
  if name.head? = some '.' then
    match items with
    | .char '.' :: _ => true
    | _ => false
  else true

/-- `fnmatch(pattern, name, FNM_PERIOD) == 0`. -/
def fnmatch (pattern name : CString) : Bool :=
  let items := globItems pattern.length pattern
  periodAllowed items name && matchItems items name

/-- A name that a directory can hold. -/
structure ProperName (name : CString) : Prop where
  nonempty : name ≠ []
  noSlash : '/' ∉ name
  notDot : name ≠ ".".toList
  notDots : name ≠ "..".toList

instance : DecidablePred ProperName := fun name =>
  decidable_of_iff
    (name ≠ [] ∧ '/' ∉ name ∧ name ≠ ".".toList ∧ name ≠ "..".toList)
    ⟨fun ⟨nonempty, noSlash, notDot, notDots⟩ => ⟨nonempty, noSlash, notDot, notDots⟩,
      fun ⟨nonempty, noSlash, notDot, notDots⟩ => ⟨nonempty, noSlash, notDot, notDots⟩⟩

abbrev Path := List CString

abbrev Disk := FileTree ProperName CString

/-- Where `name` leads from a directory. -/
def descend (cur : Path) (name : CString) : Path :=
  if name = ".".toList then cur
  else if name = "..".toList then cur.dropLast
  else cur ++ [name]

theorem descend_proper {cur : Path} {name : CString} (proper : ProperName name) :
    descend cur name = cur ++ [name] := by
  rw [descend, if_neg proper.notDot, if_neg proper.notDots]

/-- The kernel's walk along a path name; an empty text between two slashes is
skipped. -/
def resolve (t : Disk) : Path → List CString → Option Path
  | cur, [] => some cur
  | cur, name :: rest =>
      if !t.isDir cur then none
      else if name = [] then resolve t cur rest
      else if (t.entry (descend cur name)).isSome then resolve t (descend cur name) rest
      else none

/-- `lstat`. -/
def lstat (t : Disk) (name : List CString) : Option (FileEntry CString) :=
  (resolve t [] name).bind t.entry

/-- `unlink`. -/
def unlink (t : Disk) (name : List CString) : Disk :=
  match resolve t [] name with
  | some p => if t.isDir p then t else t.remove p
  | none => t

/-- `rmdir`; a path name that ends in `.` is refused. -/
def rmdir (t : Disk) (name : List CString) : Disk :=
  match resolve t [] name with
  | some p =>
      if t.isDir p && (name.filter (· ≠ [])).getLast? ≠ some ".".toList then t.remove p else t
  | none => t

/-- What `readdir` lists. -/
def readdir {Content : Type} (t : FileTree ProperName Content) (p : Path) : List CString :=
  ".".toList :: "..".toList :: t.children p

/-- The path names that a pattern matches from a directory on. -/
def globFrom (t : Disk) : Path → List CString → List (List CString)
  | _, [] => [[]]
  | cur, pattern :: rest =>
      if !t.isDir cur then []
      else if pattern = [] then (globFrom t cur rest).map ([] :: ·)
      else ((readdir t cur).filter (fnmatch pattern)).flatMap fun name =>
        (globFrom t (descend cur name) rest).map (name :: ·)

def pathText (name : List CString) : CString := ['/'].intercalate name

/-- The order of `strcoll` in the `C` locale. -/
def collates : CString → CString → Bool
  | [], _ => true
  | _ :: _, [] => false
  | c :: a, d :: b => c.toNat < d.toNat || c = d && collates a b

/-- `glob`, with the matches in the order of `strcoll`. -/
def glob (t : Disk) (pattern : List CString) : List (List CString) :=
  (globFrom t [] pattern).insertionSort fun a b => collates (pathText a) (pathText b) = true

def Walks (t : Disk) : Path → List CString → List CString → Prop
  | _, [], name => name = []
  | cur, pattern :: rest, name =>
      t.isDir cur = true ∧ ∃ first tail, name = first :: tail ∧
        if pattern = [] then first = [] ∧ Walks t cur rest tail
        else first ∈ readdir t cur ∧ fnmatch pattern first = true ∧
          Walks t (descend cur first) rest tail

theorem mem_globFrom {t : Disk} (cur : Path) (pattern name : List CString) :
    name ∈ globFrom t cur pattern ↔ Walks t cur pattern name := by
  induction pattern generalizing cur name with
  | nil => simp [globFrom, Walks]
  | cons first rest inductionHypothesis =>
      simp only [globFrom, Walks]
      cases t.isDir cur with
      | false => simp
      | true =>
          simp only [Bool.not_true, Bool.false_eq_true, if_false, true_and]
          by_cases empty : first = []
          · simp only [empty, if_true, List.mem_map, inductionHypothesis]
            constructor
            · rintro ⟨tail, walks, rfl⟩
              exact ⟨[], tail, rfl, rfl, walks⟩
            · rintro ⟨_, tail, rfl, rfl, walks⟩
              exact ⟨tail, walks, rfl⟩
          · simp only [empty, if_false, List.mem_flatMap, List.mem_filter, List.mem_map,
              inductionHypothesis]
            constructor
            · rintro ⟨here, ⟨listed, matched⟩, tail, walks, rfl⟩
              exact ⟨here, tail, rfl, listed, matched, walks⟩
            · rintro ⟨here, tail, rfl, listed, matched, walks⟩
              exact ⟨here, ⟨listed, matched⟩, tail, walks, rfl⟩

theorem mem_glob {t : Disk} (pattern name : List CString) :
    name ∈ glob t pattern ↔ Walks t [] pattern name := by
  rw [glob, List.mem_insertionSort, mem_globFrom]

def isPatternPlain (c : Char) : Bool := c != '*' && c != '?' && c != '[' && c != '\\'

theorem globItems_plain (fuel : Nat) (pattern : CString) (enough : pattern.length ≤ fuel)
    (plain : ∀ c ∈ pattern, isPatternPlain c = true) :
    globItems fuel pattern = pattern.map .char := by
  induction fuel generalizing pattern with
  | zero =>
      obtain rfl : pattern = [] := by simpa using enough
      rfl
  | succ fuel inductionHypothesis =>
      cases pattern with
      | nil => rfl
      | cons c rest =>
          have head := plain c (by simp)
          have tail := inductionHypothesis rest (by simpa using enough) fun d membership =>
            plain d (by simp [membership])
          simp only [isPatternPlain, Bool.and_eq_true, bne_iff_ne, ne_eq, and_assoc] at head
          obtain ⟨noStar, noQuestion, noBracket, noBackslash⟩ := head
          rw [List.map_cons, ← tail]
          simp only [globItems]
          split <;> simp_all

theorem matchItems_chars (pattern name : CString) :
    matchItems (pattern.map .char) name = true ↔ name = pattern := by
  induction pattern generalizing name with
  | nil => simp [matchItems]
  | cons c pattern inductionHypothesis =>
      cases name with
      | nil => simp [matchItems]
      | cons d name => simp [matchItems, inductionHypothesis]

theorem fnmatch_plain {pattern : CString} (name : CString)
    (plain : ∀ c ∈ pattern, isPatternPlain c = true) :
    fnmatch pattern name = true ↔ name = pattern := by
  rw [fnmatch, globItems_plain _ pattern le_rfl plain, Bool.and_eq_true, matchItems_chars]
  refine and_iff_right_of_imp ?_
  rintro rfl
  unfold periodAllowed
  split
  next dot =>
    cases name with
    | nil => simp at dot
    | cons c rest =>
        obtain rfl : c = '.' := by simpa using dot
        rfl
  next => rfl

theorem matchStar_true (next : CString → Bool) (name : CString) :
    matchStar next name = true ↔ ∃ pre rest, name = pre ++ rest ∧ next rest = true := by
  induction name with
  | nil =>
      simp only [matchStar]
      constructor
      · exact fun matched => ⟨[], [], rfl, matched⟩
      · rintro ⟨pre, rest, whole, matched⟩
        obtain ⟨-, rfl⟩ := List.append_eq_nil_iff.mp whole.symm
        exact matched
  | cons c name inductionHypothesis =>
      simp only [matchStar, Bool.or_eq_true, inductionHypothesis]
      constructor
      · rintro (here | ⟨pre, rest, rfl, later⟩)
        · exact ⟨[], _, rfl, here⟩
        · exact ⟨c :: pre, rest, rfl, later⟩
      · rintro ⟨pre, rest, whole, matched⟩
        cases pre with
        | nil => exact .inl (whole ▸ matched)
        | cons d pre =>
            obtain ⟨rfl, rfl⟩ := List.cons_eq_cons.mp whole
            exact .inr ⟨pre, rest, rfl, matched⟩

theorem fnmatch_star {suffix : CString} (name : CString)
    (plain : ∀ c ∈ suffix, isPatternPlain c = true) :
    fnmatch ('*' :: suffix) name = true ↔ name.head? ≠ some '.' ∧ suffix <:+ name := by
  have items : globItems ('*' :: suffix).length ('*' :: suffix) = .star :: suffix.map .char := by
    rw [List.length_cons, globItems, globItems_plain _ suffix le_rfl plain]
  rw [fnmatch, items, Bool.and_eq_true, matchItems, matchStar_true]
  simp only [matchItems_chars, periodAllowed]
  constructor
  · rintro ⟨visible, pre, rest, rfl, rfl⟩
    refine ⟨fun dot => ?_, pre, rfl⟩
    simp [dot] at visible
  · rintro ⟨visible, pre, rfl⟩
    rw [if_neg visible]
    exact ⟨rfl, pre, suffix, rfl, rfl⟩

end VpnMgr.LibUseful
