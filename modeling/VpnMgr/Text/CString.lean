import Mathlib.Data.List.DropRight

/-!
# C strings as lists of characters

A C string is the list of its bytes up to the terminating NUL, one `Char` per
byte, and a pointer into it is the suffix that starts there.  Only the ASCII
range is classified, as the C library does in the `C` locale.
-/

namespace VpnMgr.Text

abbrev CString := List Char

/-- A `char *` that may be NULL. -/
abbrev CPtr := Option CString

namespace CString

/-- `isspace` of the `C` locale. -/
def isSpace (c : Char) : Bool :=
  c = ' ' || c = '\t' || c = '\n' || c = '\x0b' || c = '\x0c' || c = '\r'

/-- `strcasecmp(a, b) == 0`. -/
def sameNoCase (a b : CString) : Bool := a.map Char.toLower == b.map Char.toLower

theorem sameNoCase_self (a : CString) : sameNoCase a a = true := beq_self_eq_true _

/-- `strncasecmp(s, word, strlen(word)) == 0`. -/
def hasPrefixNoCase (word s : CString) : Bool := sameNoCase (s.take word.length) word

/-- `strncmp(s, word, strlen(word)) == 0`. -/
def hasPrefix (word s : CString) : Bool := word.isPrefixOf s

theorem hasPrefix_iff (word s : CString) :
    hasPrefix word s = true ↔ ∃ rest, s = word ++ rest := by
  simp only [hasPrefix, List.isPrefixOf_iff_prefix, List.IsPrefix]
  exact exists_congr fun rest => eq_comm

@[simp]
theorem hasPrefix_append (word rest : CString) : hasPrefix word (word ++ rest) = true :=
  (hasPrefix_iff word _).mpr ⟨rest, rfl⟩

/-- `while (isspace(*ptr)) ptr++`. -/
def skipSpace (s : CString) : CString := s.dropWhile isSpace

theorem solid_of_all {s : CString} (all : (s.all fun c => !isSpace c) = true) :
    ∀ c ∈ s, isSpace c = false := by
  simpa using all

def dropTrailingSpace (s : CString) : CString := s.rdropWhile isSpace

/-- Characters that a text must avoid to be read back verbatim: white space,
quotes and backslashes. -/
def isPlain (c : Char) : Bool := !isSpace c && c != '"' && c != '\'' && c != '\\'

/-- A field value free of white space, quotes and backslashes. -/
def Clean (s : CString) : Prop := ∀ c ∈ s, isPlain c = true

instance (s : CString) : Decidable (Clean s) :=
  decidable_of_iff (s.all isPlain = true) List.all_eq_true

theorem Clean.append {a b : CString} (left : Clean a) (right : Clean b) : Clean (a ++ b) := by
  intro c membership
  rcases List.mem_append.mp membership with inLeft | inRight
  · exact left c inLeft
  · exact right c inRight

theorem isPlain_iff (c : Char) :
    isPlain c = true ↔ isSpace c = false ∧ c ≠ '"' ∧ c ≠ '\'' ∧ c ≠ '\\' := by
  simp [isPlain, and_assoc]

theorem not_isSpace_of_isPlain {c : Char} (plain : isPlain c = true) : isSpace c = false :=
  ((isPlain_iff c).mp plain).1

theorem Clean.dropTrailingSpace {s : CString} (clean : Clean s) : dropTrailingSpace s = s := by
  apply List.rdropWhile_eq_self_iff.mpr
  intro nonempty
  simp [not_isSpace_of_isPlain (clean _ (List.getLast_mem nonempty))]

theorem dropTrailingSpace_append (a b : CString) :
    CString.dropTrailingSpace (a ++ b) =
      if CString.dropTrailingSpace b = [] then CString.dropTrailingSpace a
      else a ++ CString.dropTrailingSpace b := by
  simp only [CString.dropTrailingSpace, List.rdropWhile, List.reverse_append, List.dropWhile_append,
    List.isEmpty_iff, List.reverse_eq_nil_iff]
  split <;> simp

theorem dropTrailingSpace_concat {s : CString} {c : Char} (solid : isSpace c = false) :
    CString.dropTrailingSpace (s ++ [c]) = s ++ [c] := by
  simp [CString.dropTrailingSpace, solid]

theorem Clean.skipSpace {s : CString} (clean : Clean s) : skipSpace s = s := by
  cases s with
  | nil => rfl
  | cons c rest =>
      simp [CString.skipSpace, not_isSpace_of_isPlain (clean c (by simp))]

end CString

end VpnMgr.Text
