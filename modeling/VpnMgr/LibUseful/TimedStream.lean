import VpnMgr.Text.CString

/-!
# Reading a stream that can time out

`STREAMReadToMultiTerminator` returns what it has collected up to a terminator,
a timeout or the end of the stream, and NULL once the stream has ended.
-/

namespace VpnMgr.LibUseful

open VpnMgr.Text CString

/-- What a read of one character comes to; behind the last event the stream is closed. -/
inductive ReadEvent where
  | byte (inchar : Char)
  | timeout
  deriving DecidableEq

/-- `STREAMReadToMultiTerminator`, with what is collected so far: the string it
returns, and what is left unread. -/
def streamReadToMultiTerminator (terms : CString) :
    CString → List ReadEvent → CPtr × List ReadEvent
  | retStr, [] => (if retStr = [] then none else some retStr, [])
  | retStr, .timeout :: rest => (some retStr, rest)
  | retStr, .byte inchar :: rest =>
      if inchar = '\x00' then streamReadToMultiTerminator terms retStr rest
      else if inchar ∈ terms then (some (retStr ++ [inchar]), rest)
      else streamReadToMultiTerminator terms (retStr ++ [inchar]) rest

/-- The strings it returns until it returns NULL, each with what is left behind it. -/
def streamReadTexts (terms : CString) :
    CString → List ReadEvent → List (CString × List ReadEvent)
  | retStr, [] => if retStr = [] then [] else [(retStr, [])]
  | retStr, .timeout :: rest => (retStr, rest) :: streamReadTexts terms [] rest
  | retStr, .byte inchar :: rest =>
      if inchar = '\x00' then streamReadTexts terms retStr rest
      else if inchar ∈ terms then (retStr ++ [inchar], rest) :: streamReadTexts terms [] rest
      else streamReadTexts terms (retStr ++ [inchar]) rest

theorem streamReadTexts_eq (terms retStr : CString) (events : List ReadEvent) :
    streamReadTexts terms retStr events =
      match streamReadToMultiTerminator terms retStr events with
      | (none, _) => []
      | (some text, left) => (text, left) :: streamReadTexts terms [] left := by
  induction events generalizing retStr with
  | nil =>
      unfold streamReadTexts streamReadToMultiTerminator
      split
      case isTrue => rfl
      case isFalse => rfl
  | cons event rest inductionHypothesis =>
      cases event with
      | timeout => rfl
      | byte inchar =>
          rw [streamReadTexts, streamReadToMultiTerminator]
          split
          case isTrue => exact inductionHypothesis retStr
          case isFalse =>
            split
            case isTrue => rfl
            case isFalse => exact inductionHypothesis (retStr ++ [inchar])

theorem streamRead_none {terms retStr : CString} {events left : List ReadEvent}
    (read : streamReadToMultiTerminator terms retStr events = (none, left)) : left = [] := by
  induction events generalizing retStr with
  | nil => exact (Prod.mk.inj read).2.symm
  | cons event rest inductionHypothesis =>
      cases event with
      | timeout => cases (Prod.mk.inj read).1
      | byte inchar =>
          rw [streamReadToMultiTerminator] at read
          split at read
          case isTrue => exact inductionHypothesis read
          case isFalse =>
            split at read
            case isTrue => cases (Prod.mk.inj read).1
            case isFalse => exact inductionHypothesis read

/-- A read that returns a string takes something of the stream. -/
theorem streamRead_shorter {terms retStr text : CString} {events left : List ReadEvent}
    (read : streamReadToMultiTerminator terms retStr events = (some text, left)) :
    left.length < events.length ∨ events = [] := by
  induction events generalizing retStr with
  | nil => exact .inr rfl
  | cons event rest inductionHypothesis =>
      refine .inl ?_
      have later : ∀ {retStr}, streamReadToMultiTerminator terms retStr rest = (some text, left) →
          left.length < rest.length + 1 := by
        intro retStr read
        rcases inductionHypothesis read with shorter | rfl
        · exact shorter.trans (Nat.lt_succ_self _)
        · rw [streamReadToMultiTerminator] at read
          rw [← (Prod.mk.inj read).2]
          exact Nat.zero_lt_succ _
      cases event with
      | timeout =>
          obtain ⟨-, rfl⟩ := Prod.mk.inj read
          exact Nat.lt_succ_self _
      | byte inchar =>
          rw [streamReadToMultiTerminator] at read
          split at read
          case isTrue => exact later read
          case isFalse =>
            split at read
            case isTrue =>
              obtain ⟨-, rfl⟩ := Prod.mk.inj read
              exact Nat.lt_succ_self _
            case isFalse => exact later read

def withoutTimeouts (events : List ReadEvent) : List ReadEvent :=
  events.filter fun event => event ≠ .timeout

@[simp]
theorem withoutTimeouts_nil : withoutTimeouts [] = [] := rfl

@[simp]
theorem withoutTimeouts_timeout (rest : List ReadEvent) :
    withoutTimeouts (.timeout :: rest) = withoutTimeouts rest := rfl

@[simp]
theorem withoutTimeouts_byte (inchar : Char) (rest : List ReadEvent) :
    withoutTimeouts (.byte inchar :: rest) = .byte inchar :: withoutTimeouts rest := rfl

/-- A line as it is read with the timeouts: the strings, each with what is left
behind it, and what is left behind the line. -/
structure CutLine where
  strings : List (CString × List ReadEvent)
  left : List ReadEvent

def CutLine.text (line : CutLine) : CString := line.strings.flatMap Prod.fst

/-- The lines of a stream, with the strings of the present line read so far. -/
def cutLines (terms : CString) :
    List (CString × List ReadEvent) → CString → List ReadEvent → List CutLine
  | strings, retStr, [] => [⟨strings ++ streamReadTexts terms retStr [], []⟩]
  | strings, retStr, .timeout :: rest => cutLines terms (strings ++ [(retStr, rest)]) [] rest
  | strings, retStr, .byte inchar :: rest =>
      if inchar = '\x00' then cutLines terms strings retStr rest
      else if inchar ∈ terms then
        ⟨strings ++ [(retStr ++ [inchar], rest)], rest⟩ :: cutLines terms [] [] rest
      else cutLines terms strings (retStr ++ [inchar]) rest

section Lines

variable (terms retStr : CString) (strings : List (CString × List ReadEvent))
  (events : List ReadEvent)

theorem cutLines_strings :
    (cutLines terms strings retStr events).flatMap CutLine.strings =
      strings ++ streamReadTexts terms retStr events := by
  induction events generalizing strings retStr with
  | nil => simp [cutLines]
  | cons event rest inductionHypothesis =>
      cases event with
      | timeout => simp [cutLines, streamReadTexts, inductionHypothesis]
      | byte inchar =>
          rw [cutLines, streamReadTexts]
          split
          case isTrue => exact inductionHypothesis ..
          case isFalse =>
            split
            case isTrue => simp [inductionHypothesis]
            case isFalse => exact inductionHypothesis ..

/-- Without the timeouts each line is read whole, and a last line of timeouts alone not at all. -/
theorem cutLines_whole :
    ((cutLines terms strings retStr events).filter fun line => line.text ≠ []).map
        (fun line => (line.text, withoutTimeouts line.left)) =
      streamReadTexts terms (strings.flatMap Prod.fst ++ retStr) (withoutTimeouts events) := by
  induction events generalizing strings retStr with
  | nil =>
      have text : CutLine.text ⟨strings ++ streamReadTexts terms retStr [], []⟩ =
          strings.flatMap Prod.fst ++ retStr := by
        rw [CutLine.text, List.flatMap_append, streamReadTexts]
        split
        case isTrue empty => rw [empty, List.flatMap_nil]
        case isFalse => simp
      rw [cutLines, withoutTimeouts_nil, List.filter_cons, text]
      generalize strings.flatMap Prod.fst ++ retStr = whole at text
      have plain : streamReadTexts terms whole [] = if whole = [] then [] else [(whole, [])] := rfl
      rw [plain]
      by_cases empty : whole = []
      · simp [empty]
      · simp [empty, text]
  | cons event rest inductionHypothesis =>
      cases event with
      | timeout =>
          rw [cutLines, withoutTimeouts_timeout, inductionHypothesis]
          simp
      | byte inchar =>
          rw [cutLines, withoutTimeouts_byte, streamReadTexts]
          split
          case isTrue => exact inductionHypothesis ..
          case isFalse =>
            split
            case isTrue =>
              have text : CutLine.text ⟨strings ++ [(retStr ++ [inchar], rest)], rest⟩ =
                  strings.flatMap Prod.fst ++ retStr ++ [inchar] := by simp [CutLine.text]
              rw [List.filter_cons_of_pos (by simp [text]), List.map_cons, inductionHypothesis, text]
              rfl
            case isFalse => rw [inductionHypothesis, List.append_assoc]

end Lines

/-! ## What is left grows less -/

def bytesLeft (events : List ReadEvent) : Nat := (withoutTimeouts events).length

def Descends : Nat → List (CString × List ReadEvent) → Prop
  | _, [] => True
  | bound, string :: rest =>
      bytesLeft string.2 ≤ bound ∧ (string.1 ≠ [] → bytesLeft string.2 < bound) ∧
        Descends (bytesLeft string.2) rest

/-- The same of the lines; `line.left` is behind all strings of a line. -/
def LinesDescend : Nat → List CutLine → Prop
  | _, [] => True
  | bound, line :: rest =>
      Descends bound line.strings ∧ (∀ string ∈ line.strings, bytesLeft line.left ≤ bytesLeft string.2) ∧
        bytesLeft line.left ≤ bound ∧ LinesDescend (bytesLeft line.left) rest

section Descends

variable {bound least : Nat} {strings more : List (CString × List ReadEvent)}

theorem Descends.mono (descends : Descends least more) (larger : least ≤ bound) :
    Descends bound more := by
  cases more with
  | nil => trivial
  | cons string rest =>
      obtain ⟨first, less, later⟩ := descends
      exact ⟨first.trans larger, fun holds => (less holds).trans_le larger, later⟩

theorem Descends.append (first : Descends bound strings) (second : Descends least more)
    (bounded : ∀ string ∈ strings, least ≤ bytesLeft string.2) (larger : least ≤ bound) :
    Descends bound (strings ++ more) := by
  induction strings generalizing bound with
  | nil => exact second.mono larger
  | cons string rest inductionHypothesis =>
      obtain ⟨here, less, later⟩ := first
      exact ⟨here, less, inductionHypothesis later
        (fun other member => bounded other (List.mem_cons_of_mem _ member))
        (bounded string List.mem_cons_self)⟩

/-- The lines of a stream descend, from what is left behind the strings read so far. -/
theorem cutLines_descend (terms retStr : CString) (events : List ReadEvent)
    (descends : Descends bound strings) (bounded : ∀ string ∈ strings, least ≤ bytesLeft string.2)
    (larger : least ≤ bound) (enough : bytesLeft events ≤ least)
    (collected : retStr ≠ [] → bytesLeft events < least) :
    LinesDescend bound (cutLines terms strings retStr events) := by
  induction events generalizing bound least strings retStr with
  | nil =>
      have last : Descends least (streamReadTexts terms retStr []) := by
        rw [streamReadTexts]
        split
        case isTrue => trivial
        case isFalse holds => exact ⟨Nat.zero_le _, fun _ => collected holds, trivial⟩
      exact ⟨descends.append last bounded larger, fun _ _ => Nat.zero_le _, Nat.zero_le _, trivial⟩
  | cons event rest inductionHypothesis =>
      have behind : ∀ text : CString, (text ≠ [] → bytesLeft rest < least) → bytesLeft rest ≤ least →
          Descends bound (strings ++ [(text, rest)]) ∧
            ∀ string ∈ strings ++ [(text, rest)], bytesLeft rest ≤ bytesLeft string.2 := by
        intro text holds fewer
        refine ⟨descends.append ⟨fewer, holds, trivial⟩ bounded larger, fun string member => ?_⟩
        rcases List.mem_append.mp member with before | last
        · exact fewer.trans (bounded string before)
        · rw [List.mem_singleton.mp last]
      cases event with
      | timeout =>
          obtain ⟨before, all⟩ := behind retStr collected enough
          exact inductionHypothesis [] before all (enough.trans larger) le_rfl fun holds => absurd rfl holds
      | byte inchar =>
          have fewer : bytesLeft rest < least := enough
          rw [cutLines]
          split
          case isTrue =>
            exact inductionHypothesis retStr descends bounded larger fewer.le fun _ => fewer
          case isFalse =>
            split
            case isTrue =>
              obtain ⟨before, all⟩ := behind (retStr ++ [inchar]) (fun _ => fewer) fewer.le
              refine ⟨before, all, fewer.le.trans larger, ?_⟩
              exact inductionHypothesis [] trivial (by simp) le_rfl le_rfl fun holds => absurd rfl holds
            case isFalse =>
              exact inductionHypothesis _ descends bounded larger fewer.le fun _ => fewer

theorem Descends.less (descends : Descends bound strings) {string : CString × List ReadEvent}
    (member : string ∈ strings) (holds : string.1 ≠ []) : bytesLeft string.2 < bound := by
  induction strings generalizing bound with
  | nil => cases member
  | cons first rest inductionHypothesis =>
      obtain ⟨here, less, later⟩ := descends
      rcases List.mem_cons.mp member with rfl | member
      · exact less holds
      · exact (inductionHypothesis later member).trans_le here

theorem Descends.empty (descends : Descends 0 strings) : ∀ string ∈ strings, string.1 = [] := by
  intro string member
  by_contra holds
  exact absurd (descends.less member holds) (Nat.not_lt_zero _)

theorem bytesLeft_withoutTimeouts (events : List ReadEvent) :
    bytesLeft (withoutTimeouts events) = bytesLeft events := by
  simp [bytesLeft, withoutTimeouts]

theorem CutLine.less {line : CutLine} (descends : Descends bound line.strings)
    (least : ∀ string ∈ line.strings, bytesLeft line.left ≤ bytesLeft string.2)
    (holds : line.text ≠ []) : bytesLeft line.left < bound := by
  obtain ⟨inchar, member⟩ := List.exists_mem_of_ne_nil _ holds
  obtain ⟨string, isString, inside⟩ := List.mem_flatMap.mp member
  exact (least string isString).trans_lt (descends.less isString (List.ne_nil_of_mem inside))

end Descends

end VpnMgr.LibUseful
