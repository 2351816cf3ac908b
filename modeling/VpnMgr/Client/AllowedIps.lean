import VpnMgr.Client.Wireguard
import VpnMgr.Shell.Blanks

/-!
# Filter and routes of a WireGuard connection

`AllowedIPs` is read twice: `wg` is given the text, and `RouteSetup` takes it
apart.
-/

namespace VpnMgr.Client

open Machine Text CString LibUseful Command Shell

/-- A character that neither the shell nor the tokenizer treats specially. -/
def isEntryChar (c : Char) : Bool := isBare c && isPlain c && c != ','

/-- An address of whatever kind, a keyword, or anything else of one word. -/
structure ListEntry where
  text : CString
  nonempty : text ≠ []
  plain : text.all isEntryChar = true

/-- The entries that `RouteSetup` reads as the default route. -/
def ListEntry.IsKeyword (entry : ListEntry) : Prop :=
  entry.text = "all".toList ∨ entry.text = "default".toList

instance (entry : ListEntry) : Decidable entry.IsKeyword :=
  inferInstanceAs (Decidable (_ ∨ _))

/-- An entry of the list, with the blanks around it. -/
structure ListItem where
  before : Nat := 0
  entry : ListEntry
  after : Nat := 0

def ListItem.text (item : ListItem) : CString :=
  List.replicate item.before ' ' ++ item.entry.text ++ List.replicate item.after ' '

/-- The text of `AllowedIPs`. -/
def listText (items : List ListItem) : CString := [','].intercalate (items.map ListItem.text)

/-- The commands of `RouteSetup`. -/
def routeCommands (destAddressList : CPtr) (dev : CString) : List CString :=
  (getTokens destAddressList ",".toList getTokenQuotes).map fun address =>
    routeCommand (stripTrailingWhitespace (stripLeadingWhitespace address)) dev

theorem each_map {α β : Type} (items : List α) (f : α → β) (body : β → Driver Unit) :
    Process.each (items.map f) body = Process.each items fun item => body (f item) := by
  induction items with
  | nil => rfl
  | cons item rest inductionHypothesis =>
      simp only [List.map_cons, Process.each, inductionHypothesis]

theorem routeSetup_eq (destAddressList : CPtr) (dev : CString) :
    routeSetup destAddressList dev = Process.each (routeCommands destAddressList dev) command :=
  (each_map _ _ _).symm

def specialChars : List Char :=
  [' ', '\t', '\n', '\x0b', '\x0c', '\r', ';', '#', '~', '\'', ',', '|', '&', '<', '>', '(', ')',
    '$', '`', '\\', '"', '*', '?', '[']

theorem isEntryChar_of {property : Char → Bool}
    (noSpecial : specialChars.all (fun c => !property c) = true) {c : Char}
    (holds : property c = true) : isEntryChar c = true := by
  have ne : c ∉ specialChars := fun member => by
    have fails := List.all_eq_true.mp noSpecial c member
    rw [holds] at fails
    cases fails
  simp only [specialChars, List.mem_cons, List.not_mem_nil, or_false, not_or] at ne
  simp [isEntryChar, isBare, isInert, isBlank, isSeparator, isLeader, isActive, isPlain, isSpace, ne]

theorem isEntryChar_of_isDigit {c : Char} (digit : c.isDigit = true) : isEntryChar c = true :=
  isEntryChar_of (by decide : specialChars.all (fun c => !c.isDigit) = true) digit

theorem isEntryChar_of_mem {entry : ListEntry} {c : Char} (member : c ∈ entry.text) :
    isEntryChar c = true := List.all_eq_true.mp entry.plain c member

theorem isEntryChar_iff (c : Char) :
    isEntryChar c = true ↔ isBare c = true ∧ isPlain c = true ∧ c ≠ ',' := by
  simp [isEntryChar, and_assoc]

theorem entryText_clean (entry : ListEntry) : Clean entry.text := fun c member =>
  ((isEntryChar_iff c).mp (isEntryChar_of_mem member)).2.1

theorem mem_itemText {item : ListItem} {c : Char} (member : c ∈ item.text) :
    c = ' ' ∨ isEntryChar c = true := by
  simp only [ListItem.text, List.mem_append, List.mem_replicate] at member
  rcases member with (⟨-, blank⟩ | inEntry) | ⟨-, blank⟩
  · exact .inl blank
  · exact .inr (isEntryChar_of_mem inEntry)
  · exact .inl blank

theorem itemText_ne_nil (item : ListItem) : item.text ≠ [] := by
  simp [ListItem.text, item.entry.nonempty]

theorem itemText_noComma (item : ListItem) : ',' ∉ item.text := fun member => by
  rcases mem_itemText member with blank | usual
  · revert blank
    decide
  · exact ((isEntryChar_iff ',').mp usual).2.2 rfl

/-- `RouteSetup` takes the blanks off. -/
theorem strip_itemText (item : ListItem) :
    stripTrailingWhitespace (stripLeadingWhitespace item.text) = item.entry.text := by
  have leading : stripLeadingWhitespace item.text =
      item.entry.text ++ List.replicate item.after ' ' := by
    have blanks : ∀ c ∈ List.replicate item.before ' ', isSpace c = true := by
      intro c member
      rw [(List.mem_replicate.mp member).2]
      rfl
    rw [ListItem.text, List.append_assoc, stripLeadingWhitespace, skipSpace,
      List.dropWhile_append_of_pos blanks]
    rcases split : item.entry.text with _ | ⟨c, tail⟩
    · exact absurd split (item.entry.nonempty)
    · have plain := entryText_clean item.entry c (split ▸ List.mem_cons_self)
      simp [not_isSpace_of_isPlain plain]
  have trailing : stripTrailingWhitespace (List.replicate item.after ' ') = [] := by
    refine List.rdropWhile_eq_nil_iff.mpr fun c member => ?_
    rw [(List.mem_replicate.mp member).2]
    rfl
  rw [leading, stripTrailingWhitespace_append, if_pos trailing]
  exact (entryText_clean item.entry).dropTrailingSpace

theorem getTokens_listText (items : List ListItem) :
    getTokens (some (listText items)) [','] getTokenQuotes = items.map ListItem.text := by
  refine getTokensFrom_intercalate rfl rfl rfl (fun text member => ?_) (fun text member => ?_) _
    le_rfl
  · obtain ⟨item, -, rfl⟩ := List.mem_map.mp member
    exact itemText_ne_nil item
  · obtain ⟨item, -, rfl⟩ := List.mem_map.mp member
    intro c inside
    refine ⟨?_, fun comma => itemText_noComma item (comma ▸ inside)⟩
    rcases mem_itemText inside with rfl | usual
    · rfl
    · exact isUnquoted_of_isPlain ((isEntryChar_iff c).mp usual).2.1

theorem bare_of_isEntryChar {c : Char} (usual : isEntryChar c = true) : isBare c = true :=
  ((isEntryChar_iff c).mp usual).1

section Reading

variable {shell : CString → Option (List (List Word))} (splits : SplitsAtBlanks shell)

include splits

theorem route_words {text : CString} (bare : ∀ c ∈ text, c = ' ' ∨ isBare c = true) :
    shell ("route add ".toList ++ text) =
      some ["route".toList :: "add".toList :: blankWords text] :=
  @SplitsAtBlanks.argument shell splits "route".toList "add".toList text (by decide) (by decide)
    (by decide) (by decide) bare

end Reading

/-- The address that `RouteSetup` reads in an entry. -/
def ListEntry.target (entry : ListEntry) : CString :=
  if entry.IsKeyword then "0.0.0.0/0".toList else entry.text

section Entries

variable {shell : CString → Option (List (List Word))} (splits : SplitsAtBlanks shell)

include splits

end Entries

/-! ## The option -/

section Option

variable (vpn : TVpn) (dev peer : CString) (host port : CPtr)

end Option

section Filter

variable {shell : CString → Option (List (List Word))} (splits : SplitsAtBlanks shell)
  (vpn : TVpn) {text : CString} (dev peer : CString) (host port : CPtr)

include splits

end Filter

end VpnMgr.Client
