import Mathlib.Data.List.Nodup
import VpnMgr.Client.Ssh

/-!
# Host names in the ssh configuration

`SSHHostLookupIP` reads `~/.ssh/config` line by line and carries the alias of the
last `Host` line along.  How much of a block it recognises is up to the blanks
in it.
-/

namespace VpnMgr.Client

open Machine Text CString LibUseful Process

def Blanks (text : CString) : Prop := ∀ c ∈ text, isSpace c = true ∧ c ≠ '\n'

instance blanksDecidable (text : CString) : Decidable (Blanks text) :=
  decidable_of_iff ((text.all fun c => isSpace c && c != '\n') = true) (by simp [Blanks])

/-- A line with a keyword and one argument, and how it is laid out. -/
structure KeywordLine where
  indent : CString
  keyword : CString
  gap : CString
  argument : CString
  trailing : CString
  indentBlank : Blanks indent
  gapBlank : Blanks gap
  gapNonempty : gap ≠ []
  trailingBlank : Blanks trailing
  argumentNonempty : argument ≠ []
  argumentSolid : ∀ c ∈ argument, isSpace c = false

namespace KeywordLine

variable (line : KeywordLine)

def text : CString :=
  line.indent ++ (line.keyword ++ (line.gap ++ (line.argument ++ line.trailing)))

/-- `ssh` takes keywords in any case. -/
def Spells (word : CString) : Prop := sameNoCase line.keyword word = true

/-- The line begins with that word and one blank, as `strncmp` sees it. -/
def Plain (word : CString) : Prop := line.keyword = word ∧ line.gap.head? = some ' '

instance plainDecidable (word : CString) : Decidable (line.Plain word) :=
  inferInstanceAs (Decidable (_ ∧ _))

end KeywordLine

/-- The keyword of a line; there may be a `=` behind it. -/
def firstWord (text : CString) : CString :=
  (skipSpace text).takeWhile fun c => !isSpace c && c != '='

/-- Another option, a comment, or an empty line. -/
structure OtherLine where
  text : CString
  oneLine : '\n' ∉ text
  unrelated : ∀ word ∈ ["Host".toList, "HostName".toList, "Match".toList],
    sameNoCase (firstWord text) word = false

inductive BlockLine where
  | hostName (line : KeywordLine) (spells : line.Spells "HostName".toList)
  | other (line : OtherLine)

namespace BlockLine

def text : BlockLine → CString
  | hostName line _ => line.text
  | other line => line.text

def name? : BlockLine → Option KeywordLine
  | hostName line _ => some line
  | other _ => none

end BlockLine

structure HostBlock where
  host : KeywordLine
  spells : host.Spells "Host".toList
  lines : List BlockLine

namespace HostBlock

variable (block : HostBlock)

def hostAlias : CString := block.host.argument

def hostNames : List KeywordLine := block.lines.filterMap BlockLine.name?

def texts : List CString := block.host.text :: block.lines.map BlockLine.text

end HostBlock

/-- A configuration of blocks with one alias each: no alias has two blocks, and no
block two host names. -/
structure SshConfig where
  preamble : List OtherLine
  blocks : List HostBlock
  oneBlock : (blocks.map HostBlock.hostAlias).Nodup
  oneName : ∀ block ∈ blocks, block.hostNames.length ≤ 1

namespace SshConfig

variable (config : SshConfig)

def texts : List CString :=
  config.preamble.map OtherLine.text ++ config.blocks.flatMap HostBlock.texts

/-- The file; an empty line at the end is a newline at the end. -/
def text : CString := ['\n'].intercalate config.texts

def given (host : CString) : Option CString :=
  (config.blocks.find? fun block => block.hostAlias = host).bind fun block =>
    block.hostNames.head?.map KeywordLine.argument

/-- What the lookup is to return. -/
def resolved (resolve : CString → CPtr) (host : CString) : CString :=
  match config.given host with
  | some name => copyStr (resolve name)
  | none => []

end SshConfig

inductive Seen where
  | host (name : CString)
  | hostName (name : CString)
  | nothing

def seen (line : CString) : Seen :=
  let text := stripLeadingWhitespace (stripTrailingWhitespace line)
  if hasPrefix "Host ".toList text then .host (text.drop "Host ".toList.length)
  else if hasPrefix "HostName ".toList text then
    .hostName (skipSpace (text.drop "HostName ".toList.length))
  else .nothing

/-- `CurrHost` and `IP` after a line. -/
def afterLine (resolve : CString → CPtr) (host : CString) (state : CString × CString)
    (line : CString) : CString × CString :=
  match seen line with
  | .host name => (name, state.2)
  | .hostName name => if host = state.1 then (state.1, copyStr (resolve name)) else state
  | .nothing => state

def lookedUp (resolve : CString → CPtr) (host : CString) (lines : List CString) : CString :=
  (lines.foldl (afterLine resolve host) ([], [])).2

def sshConfigPath (settings : Settings) : CString :=
  mCopyStr [some settings.homeDir, some "/.ssh/config".toList]

/-- From some moment on the host has this file, and looks names up like this. -/
structure HasConfig (settings : Settings) (text : CString) (resolve : CString → CPtr)
    (env : Environment Answer) (before : History Answer) : Prop where
  opens : ∀ made, env (before ++ made)
    (.streamOpen (.file (sshConfigPath settings)) (sshConfigPath settings) "r".toList) = true
  reads : ∀ made, env (before ++ made) (.streamReadLine (.file (sshConfigPath settings))) =
    (streamReadLines text)[linesTaken (.file (sshConfigPath settings)) made]?
  resolves : ∀ made name, env (before ++ made) (.lookupHostIP name) = resolve name

/-! ## Single lines -/

section Lines

variable {line : KeywordLine} {word text : CString}

theorem Blanks.space {blanks : CString} (blank : Blanks blanks) : ∀ c ∈ blanks, isSpace c = true :=
  fun c member => (blank c member).1

theorem hasPrefix_word_iff {rest : CString} (same : line.keyword.length = word.length) :
    hasPrefix (word ++ [' ']) (line.keyword ++ rest) = true ↔
      line.keyword = word ∧ rest.head? = some ' ' := by
  rw [hasPrefix_iff]
  constructor
  · rintro ⟨behind, whole⟩
    rw [List.append_assoc] at whole
    obtain ⟨isWord, isRest⟩ := List.append_inj whole same
    exact ⟨isWord, by rw [isRest]; rfl⟩
  · rintro ⟨isWord, first⟩
    obtain ⟨behind, rfl⟩ := List.head?_eq_some_iff.mp first
    exact ⟨behind, by rw [isWord]; simp⟩

namespace KeywordLine

theorem Spells.length (spells : line.Spells word) : line.keyword.length = word.length := by
  have same := congrArg List.length (eq_of_beq spells)
  rwa [List.length_map, List.length_map] at same

theorem Spells.solid (spells : line.Spells word)
    (solid : ∀ c ∈ word.map Char.toLower, isSpace c = false) :
    ∀ c ∈ line.keyword, isSpace c = false := by
  intro c member
  have lower := solid c.toLower (eq_of_beq spells ▸ List.mem_map_of_mem member)
  by_contra blank
  rw [Bool.not_eq_false] at blank
  simp only [isSpace, Bool.or_eq_true, decide_eq_true_eq] at blank
  rcases blank with ((((rfl | rfl) | rfl) | rfl) | rfl) | rfl <;> exact absurd lower (by decide)

/-- What is left of a line when the blanks at its ends are gone. -/
theorem stripped_text (spells : line.Spells word)
    (solid : ∀ c ∈ word.map Char.toLower, isSpace c = false) (nonempty : word ≠ []) :
    stripLeadingWhitespace (stripTrailingWhitespace line.text) =
      line.keyword ++ (line.gap ++ line.argument) := by
  have whole : line.text =
      (line.indent ++ (line.keyword ++ (line.gap ++ line.argument))) ++ line.trailing := by
    simp [text]
  have ends : line.indent ++ (line.keyword ++ (line.gap ++ line.argument)) ≠ [] := by
    simp [line.argumentNonempty]
  have last : (line.indent ++ (line.keyword ++ (line.gap ++ line.argument))).getLast ends ∈
      line.argument := by
    simp only [← List.append_assoc, List.getLast_append_of_ne_nil _ line.argumentNonempty]
    exact List.getLast_mem line.argumentNonempty
  rw [whole, stripTrailingWhitespace_blank line.trailingBlank.space ends
    (line.argumentSolid _ last)]
  have first : line.keyword ≠ [] := by
    rw [← List.length_pos_iff, spells.length, List.length_pos_iff]
    exact nonempty
  obtain ⟨c, rest, isKeyword⟩ := List.exists_cons_of_ne_nil first
  have isSolid := spells.solid solid c (by simp [isKeyword])
  rw [stripLeadingWhitespace, skipSpace, List.dropWhile_append_of_pos line.indentBlank.space,
    isKeyword, List.cons_append, List.dropWhile_cons_of_neg (by simp [isSolid])]

end KeywordLine

theorem hasPrefix_getElem? {front text : CString} (isFront : hasPrefix front text = true) {n : Nat}
    (inside : n < front.length) : text[n]? = some front[n] := by
  obtain ⟨rest, rfl⟩ := (hasPrefix_iff front text).mp isFront
  rw [List.getElem?_append_left inside, List.getElem?_eq_getElem inside]

theorem seen_newline (text : CString) : seen (text ++ ['\n']) = seen text := by
  have nothing : stripTrailingWhitespace ['\n'] = [] := rfl
  rw [seen, seen, stripTrailingWhitespace_append, if_pos nothing]

/-- A `Host` line is seen where the blank behind the keyword is a space, and then
the other blanks are taken for a part of the alias. -/
theorem KeywordLine.seen_host (spells : line.Spells "Host".toList) :
    seen line.text = if line.Plain "Host".toList then .host (line.gap.tail ++ line.argument)
      else .nothing := by
  have stripped := stripped_text spells (solid_of_all (by decide)) (by decide)
  have length := spells.length
  obtain ⟨blank, behind, isGap⟩ := List.exists_cons_of_ne_nil line.gapNonempty
  have isHost : hasPrefix "Host ".toList (line.keyword ++ (line.gap ++ line.argument)) = true ↔
      line.Plain "Host".toList := by
    rw [Plain, isGap]
    exact hasPrefix_word_iff length
  have noHostName : ¬ hasPrefix "HostName ".toList
      (line.keyword ++ (line.gap ++ line.argument)) = true := by
    intro isFront
    have fifth := @hasPrefix_getElem? _ _ isFront 4 (by decide)
    rw [List.getElem?_append_right (by rw [length]; decide), length, isGap] at fifth
    obtain rfl : blank = 'N' := Option.some.inj fifth
    exact absurd (line.gapBlank.space 'N' (by simp [isGap])) (by decide)
  rw [seen, stripped, if_neg noHostName]
  by_cases plain : line.Plain "Host".toList
  · have dropped : (line.keyword ++ (line.gap ++ line.argument)).drop "Host ".toList.length =
        line.gap.tail ++ line.argument := by
      rw [plain.1, isGap]
      rfl
    rw [if_pos (isHost.mpr plain), if_pos plain, dropped]
  · rw [if_neg (mt isHost.mp plain), if_neg plain]

/-- In a `HostName` line they are skipped. -/
theorem KeywordLine.seen_hostName (spells : line.Spells "HostName".toList) :
    seen line.text = if line.Plain "HostName".toList then .hostName line.argument else .nothing := by
  have stripped := stripped_text spells (solid_of_all (by decide)) (by decide)
  have length := spells.length
  obtain ⟨blank, behind, isGap⟩ := List.exists_cons_of_ne_nil line.gapNonempty
  have isHostName : hasPrefix "HostName ".toList (line.keyword ++ (line.gap ++ line.argument)) = true
      ↔ line.Plain "HostName".toList := by
    rw [Plain, isGap]
    exact hasPrefix_word_iff length
  have noHost : ¬ hasPrefix "Host ".toList
      (line.keyword ++ (line.gap ++ line.argument)) = true := by
    intro isFront
    have fifth := @hasPrefix_getElem? _ _ isFront 4 (by decide)
    have inside : 4 < line.keyword.length := by rw [length]; decide
    rw [List.getElem?_append_left inside, List.getElem?_eq_getElem inside] at fifth
    have solid := spells.solid (solid_of_all (by decide)) _ (List.getElem_mem inside)
    rw [Option.some.inj fifth] at solid
    exact absurd solid (by decide)
  rw [seen, stripped, if_neg noHost]
  by_cases plain : line.Plain "HostName".toList
  · have dropped : (line.keyword ++ (line.gap ++ line.argument)).drop "HostName ".toList.length =
        line.gap.tail ++ line.argument := by
      rw [plain.1, isGap]
      rfl
    have blanks : ∀ c ∈ line.gap.tail, isSpace c = true :=
      fun c member => line.gapBlank.space c (List.mem_of_mem_tail member)
    obtain ⟨c, rest, isArgument⟩ := List.exists_cons_of_ne_nil line.argumentNonempty
    have solid := line.argumentSolid c (by simp [isArgument])
    rw [if_pos (isHostName.mpr plain), if_pos plain, dropped, skipSpace,
      List.dropWhile_append_of_pos blanks, isArgument,
      List.dropWhile_cons_of_neg (by simp [solid])]
  · rw [if_neg (mt isHostName.mp plain), if_neg plain]

theorem firstWord_of_hasPrefix (solid : ∀ c ∈ word, (!isSpace c && c != '=') = true)
    (isFront : hasPrefix (word ++ [' ']) (stripLeadingWhitespace (stripTrailingWhitespace text)) =
      true) : firstWord text = word := by
  have front : stripTrailingWhitespace text <+: text := List.rdropWhile_prefix ..
  obtain ⟨behind, whole⟩ := front
  obtain ⟨rest, isText⟩ := (hasPrefix_iff _ _).mp isFront
  rw [stripLeadingWhitespace, skipSpace, List.append_assoc] at isText
  rw [firstWord, skipSpace, ← whole, List.dropWhile_append, isText, if_neg (by simp),
    List.append_assoc, List.takeWhile_append_of_pos solid, List.singleton_append, List.cons_append,
    List.takeWhile_cons_of_neg (by decide), List.append_nil]

theorem OtherLine.seen_eq (line : OtherLine) : seen line.text = .nothing := by
  have noHost : ¬ hasPrefix "Host ".toList
      (stripLeadingWhitespace (stripTrailingWhitespace line.text)) = true := by
    intro isFront
    have unrelated := line.unrelated "Host".toList (by simp)
    rw [@firstWord_of_hasPrefix "Host".toList _
      (List.all_eq_true.mp (by decide)) isFront] at unrelated
    exact absurd unrelated (by decide)
  have noHostName : ¬ hasPrefix "HostName ".toList
      (stripLeadingWhitespace (stripTrailingWhitespace line.text)) = true := by
    intro isFront
    have unrelated := line.unrelated "HostName".toList (by simp)
    rw [@firstWord_of_hasPrefix "HostName".toList _
      (List.all_eq_true.mp (by decide)) isFront] at unrelated
    exact absurd unrelated (by decide)
  rw [seen, if_neg noHost, if_neg noHostName]

end Lines

/-! ## The loop -/

section Run

variable {settings : Settings} {text : CString} {resolve : CString → CPtr}
  {env : Environment Answer} {before : History Answer} {host : CPtr}

/-- A loop that takes the lines of a stream one by one. -/
theorem loop_lines {σ α : Type} {body : σ → Driver (σ ⊕ α)} {step : σ → CString → σ}
    {final : σ → α} {stream : StreamId} {lines : List CString}
    (takes : ∀ state made line, lines[linesTaken stream made]? = some line →
      ∃ more, body state env (before ++ made) =
        some (.returned (.inl (step state line)), before ++ (made ++ more)) ∧
          linesTaken stream more = 1)
    (ends : ∀ state made, lines[linesTaken stream made]? = none →
      ∃ more, body state env (before ++ made) =
        some (.returned (.inr (final state)), before ++ (made ++ more)))
    (fuel : Nat) (state : σ) (made : History Answer)
    (among : linesTaken stream made ≤ lines.length)
    (enough : lines.length < linesTaken stream made + fuel) :
    ∃ more, Process.loop body fuel state env (before ++ made) =
      some (.returned (final ((lines.drop (linesTaken stream made)).foldl step state)),
        before ++ more) := by
  induction fuel generalizing state made with
  | zero => exact absurd enough (Nat.not_lt.mpr among)
  | succ fuel inductionHypothesis =>
      rw [Process.loop, bind_run]
      rcases here : lines[linesTaken stream made]? with _ | line
      · obtain ⟨more, run⟩ := ends state made here
        rw [run, List.drop_eq_nil_iff.mpr (List.getElem?_eq_none_iff.mp here)]
        exact ⟨made ++ more, rfl⟩
      · obtain ⟨more, run, one⟩ := takes state made line here
        obtain ⟨inside, rfl⟩ := List.getElem?_eq_some_iff.mp here
        have taken : linesTaken stream (made ++ more) = linesTaken stream made + 1 := by
          rw [linesTaken_append, one]
        obtain ⟨all, rest⟩ := inductionHypothesis (step state _) (made ++ more)
          (by omega) (by omega)
        rw [run, ← List.getElem_cons_drop inside, List.foldl_cons, ← taken]
        exact ⟨all, rest⟩

def lookupRound (path : CString) (host : CPtr) (state : CString × CString) :
    Driver ((CString × CString) ⊕ CString) := do
  match ← streamReadLine (.file path) with
  | none => pure (.inr state.2)
  | some line =>
      let text := stripLeadingWhitespace (stripTrailingWhitespace line)
      if hasPrefix "Host ".toList text then pure (.inl (text.drop "Host ".toList.length, state.2))
      else if hasPrefix "HostName ".toList text && copyStr host = state.1 then
        let found ← ask (.lookupHostIP (skipSpace (text.drop "HostName ".toList.length)))
        pure (.inl (state.1, copyStr found))
      else pure (.inl state)

namespace HasConfig

variable (has : HasConfig settings text resolve env before)
include has

theorem streamReadLine_run (made : History Answer) :
    let line := (streamReadLines text)[linesTaken (.file (sshConfigPath settings)) made]?
    streamReadLine (.file (sshConfigPath settings)) env (before ++ made) =
      some (.returned line,
        before ++ (made ++ [⟨.streamReadLine (.file (sshConfigPath settings)), line⟩])) := by
  intro line
  rw [streamReadLine, ask, Process.ask, has.reads made, List.append_assoc]
  rfl

theorem lookupHostIP_run (made : History Answer) (name : CString) :
    (ask (.lookupHostIP name) : Driver CPtr) env (before ++ made) =
      some (.returned (resolve name), before ++ (made ++ [⟨.lookupHostIP name, resolve name⟩])) := by
  rw [ask, Process.ask, has.resolves made name, List.append_assoc]

theorem lookupRound_line {made : History Answer} {line : CString} (state : CString × CString)
    (here : (streamReadLines text)[linesTaken (.file (sshConfigPath settings)) made]? = some line) :
    ∃ more, lookupRound (sshConfigPath settings) host state env (before ++ made) =
      some (.returned (.inl (afterLine resolve (copyStr host) state line)),
        before ++ (made ++ more)) ∧
        linesTaken (.file (sshConfigPath settings)) more = 1 := by
  have read := has.streamReadLine_run made
  rw [here] at read
  have one : linesTaken (.file (sshConfigPath settings))
      [⟨.streamReadLine (.file (sshConfigPath settings)), some line⟩] = 1 := by
    simp [linesTaken, isLineRead]
  rw [lookupRound, bind_run, read, afterLine, seen]
  dsimp only
  split
  case isTrue => exact ⟨_, rfl, one⟩
  case isFalse =>
    cases hasPrefix "HostName ".toList (stripLeadingWhitespace (stripTrailingWhitespace line)) with
    | false => exact ⟨_, rfl, one⟩
    | true =>
        let name := skipSpace ((stripLeadingWhitespace (stripTrailingWhitespace line)).drop
          "HostName ".toList.length)
        by_cases current : copyStr host = state.1
        · have found := has.lookupHostIP_run
            (made ++ [⟨.streamReadLine (.file (sshConfigPath settings)), some line⟩]) name
          refine ⟨[⟨.streamReadLine (.file (sshConfigPath settings)), some line⟩,
            ⟨.lookupHostIP name, resolve name⟩], ?_, by simp [linesTaken, isLineRead]⟩
          simp only [Bool.true_and, current, decide_true, if_true]
          show ((ask (.lookupHostIP name) : Driver CPtr) >>= _ : Driver _) env _ = _
          rw [bind_run, found, List.append_assoc]
          rfl
        · simp only [Bool.true_and, current, decide_false, if_true, if_false]
          exact ⟨_, rfl, one⟩

theorem lookupRound_end {made : History Answer} (state : CString × CString)
    (here : (streamReadLines text)[linesTaken (.file (sshConfigPath settings)) made]? = none) :
    ∃ more, lookupRound (sshConfigPath settings) host state env (before ++ made) =
      some (.returned (.inr state.2), before ++ (made ++ more)) := by
  have read := has.streamReadLine_run made
  rw [here] at read
  rw [lookupRound, bind_run, read]
  exact ⟨_, rfl⟩

/-- The lookup goes through the lines of the file. -/
theorem sshHostLookupIP_run {fuel : Nat} (enough : (streamReadLines text).length < fuel) :
    ∃ made, sshHostLookupIP settings fuel host env before =
      some (.returned (lookedUp resolve (copyStr host) (streamReadLines text)),
        before ++ made) := by
  have opens := has.opens []
  rw [List.append_nil] at opens
  have isOpened : streamOpen (.file (sshConfigPath settings)) (sshConfigPath settings) "r".toList
      env before = some (.returned true, before ++ [⟨.streamOpen (.file (sshConfigPath settings))
        (sshConfigPath settings) "r".toList, true⟩]) := by
    rw [streamOpen, ask, Process.ask, opens]
    rfl
  have started : linesTaken (.file (sshConfigPath settings)) [⟨.streamOpen
      (.file (sshConfigPath settings)) (sshConfigPath settings) "r".toList, true⟩] = 0 := by
    simp [linesTaken, isLineRead]
  obtain ⟨more, run⟩ := loop_lines (fun state made line here =>
      @lookupRound_line _ _ _ _ _ host has made line state here)
    (fun state made here => has.lookupRound_end state here) fuel ([], []) _
    (started.trans_le (Nat.zero_le _)) (by rwa [started, Nat.zero_add])
  rw [started] at run
  refine ⟨more ++ [⟨.streamClose (.file (sshConfigPath settings)), ()⟩], ?_⟩
  show (streamOpen (.file (sshConfigPath settings)) (sshConfigPath settings) "r".toList >>= _ :
    Driver CString) env before = _
  rw [bind_run, isOpened]
  show (Process.loop (lookupRound (sshConfigPath settings) host) fuel ([], []) >>= _ :
    Driver CString) env _ = _
  rw [bind_run, run, ← List.append_assoc]
  rfl

end HasConfig

end Run

/-! ## Blocks -/

section Blocks

variable {resolve : CString → CPtr} {host : CString} {state : CString × CString}

theorem afterLine_host {line : KeywordLine} (spells : line.Spells "Host".toList) :
    afterLine resolve host state line.text =
      if line.Plain "Host".toList then (line.gap.tail ++ line.argument, state.2) else state := by
  rw [afterLine, line.seen_host spells]
  by_cases plain : line.Plain "Host".toList
  · rw [if_pos plain, if_pos plain]
  · rw [if_neg plain, if_neg plain]

theorem afterLine_hostName {line : KeywordLine} (spells : line.Spells "HostName".toList) :
    afterLine resolve host state line.text =
      if line.Plain "HostName".toList ∧ host = state.1 then
        (state.1, copyStr (resolve line.argument)) else state := by
  rw [afterLine, line.seen_hostName spells]
  by_cases plain : line.Plain "HostName".toList
  · by_cases current : host = state.1
    · rw [if_pos plain, if_pos ⟨plain, current⟩]
      exact if_pos current
    · rw [if_pos plain, if_neg fun both => current both.2]
      exact if_neg current
  · rw [if_neg plain, if_neg fun both => plain both.1]

theorem afterLine_other (line : OtherLine) : afterLine resolve host state line.text = state := by
  rw [afterLine, line.seen_eq]

/-- The lines behind the first one leave `CurrHost` alone. -/
theorem foldl_blockLines (lines : List BlockLine) (state : CString × CString) :
    (lines.map BlockLine.text).foldl (afterLine resolve host) state =
      (state.1, (lines.filterMap BlockLine.name?).foldl (fun ip name =>
        if name.Plain "HostName".toList ∧ host = state.1 then copyStr (resolve name.argument)
        else ip) state.2) := by
  induction lines generalizing state with
  | nil => rfl
  | cons line lines inductionHypothesis =>
      rw [List.map_cons, List.foldl_cons, inductionHypothesis]
      cases line with
      | hostName line spells =>
          rw [BlockLine.text, afterLine_hostName spells]
          show _ = (state.1, (line :: lines.filterMap BlockLine.name?).foldl _ _)
          rw [List.foldl_cons]
          by_cases found : line.Plain "HostName".toList ∧ host = state.1
          · rw [if_pos found, if_pos found]
          · rw [if_neg found, if_neg found]
      | other line =>
          rw [BlockLine.text, afterLine_other]
          rfl

namespace HostBlock

variable (block : HostBlock)

/-- `CurrHost` behind the block. -/
def current (previous : CString) : CString :=
  if block.host.Plain "Host".toList then block.host.gap.tail ++ block.hostAlias else previous

/-- The `Host` line has one space between the keyword and the alias. -/
def Exact : Prop := block.host.keyword = "Host".toList ∧ block.host.gap = [' ']

variable {block}

theorem Exact.current (exact' : block.Exact) (previous : CString) :
    block.current previous = block.hostAlias := by
  rw [HostBlock.current, if_pos ⟨exact'.1, by rw [exact'.2]; rfl⟩, exact'.2]
  rfl

theorem exact_of_current {previous : CString} (solid : ∀ c ∈ host, isSpace c = false)
    (isHost : block.current previous = host) (other : previous ≠ host) :
    block.Exact ∧ block.hostAlias = host := by
  rw [HostBlock.current] at isHost
  split at isHost
  case isFalse => exact absurd isHost other
  case isTrue plain =>
    obtain ⟨behind, isGap⟩ := List.head?_eq_some_iff.mp plain.2
    rw [isGap, List.tail_cons] at isHost
    have nothing : behind = [] := by
      refine List.eq_nil_iff_forall_not_mem.mpr fun c member => ?_
      have blank := block.host.gapBlank.space c (by simp [isGap, member])
      rw [solid c (isHost ▸ List.mem_append_left _ member)] at blank
      exact absurd blank (by decide)
    rw [nothing] at isGap isHost
    exact ⟨⟨plain.1, isGap⟩, isHost⟩

theorem foldl_texts (one : block.hostNames.length ≤ 1) (state : CString × CString) :
    block.texts.foldl (afterLine resolve host) state =
      (block.current state.1, match block.hostNames.head? with
        | some name => if name.Plain "HostName".toList ∧ host = block.current state.1 then
            copyStr (resolve name.argument) else state.2
        | none => state.2) := by
  have first : afterLine resolve host state block.host.text = (block.current state.1, state.2) := by
    rw [afterLine_host block.spells, HostBlock.current]
    split
    · rfl
    · rfl
  rw [texts, List.foldl_cons, first, foldl_blockLines]
  show (_, block.hostNames.foldl _ _) = _
  match names : block.hostNames, one with
  | [], _ => rfl
  | [name], _ => rfl

end HostBlock

/-- No block has both the alias and a host name that is seen. -/
theorem foldl_blocks_unseen {blocks : List HostBlock}
    (one : ∀ block ∈ blocks, block.hostNames.length ≤ 1)
    (found : ∀ block ∈ blocks, ∀ name ∈ block.hostNames, block.Exact)
    (unseen : ∀ block ∈ blocks, block.hostAlias = host →
      ∀ name ∈ block.hostNames, ¬ name.Plain "HostName".toList) (state : CString × CString) :
    ((blocks.flatMap HostBlock.texts).foldl (afterLine resolve host) state).2 = state.2 := by
  induction blocks generalizing state with
  | nil => rfl
  | cons block blocks inductionHypothesis =>
      have here : (block.texts.foldl (afterLine resolve host) state).2 = state.2 := by
        rw [HostBlock.foldl_texts (one block (by simp))]
        cases names : block.hostNames with
        | nil => rfl
        | cons name rest =>
            have member : name ∈ block.hostNames := by simp [names]
            refine if_neg fun both => unseen block (by simp) ?_ name member both.1
            rw [both.2, (found block (by simp) name member).current]
      rw [List.flatMap_cons, List.foldl_append, inductionHypothesis
        (fun other member => one other (by simp [member]))
        (fun other member => found other (by simp [member]))
        (fun other member => unseen other (by simp [member])), here]

/-- No `Host` line is taken for the alias. -/
theorem foldl_blocks_unnamed (solid : ∀ c ∈ host, isSpace c = false) {blocks : List HostBlock}
    (one : ∀ block ∈ blocks, block.hostNames.length ≤ 1)
    (unnamed : ∀ block ∈ blocks, block.hostAlias = host → ¬ block.Exact)
    {state : CString × CString} (other : state.1 ≠ host) :
    ((blocks.flatMap HostBlock.texts).foldl (afterLine resolve host) state).2 = state.2 := by
  induction blocks generalizing state with
  | nil => rfl
  | cons block blocks inductionHypothesis =>
      have still : block.current state.1 ≠ host := fun isHost =>
        have named := HostBlock.exact_of_current solid isHost other
        unnamed block (by simp) named.2 named.1
      have here : block.texts.foldl (afterLine resolve host) state =
          (block.current state.1, state.2) := by
        rw [HostBlock.foldl_texts (one block (by simp))]
        cases block.hostNames with
        | nil => rfl
        | cons name rest => exact congrArg _ (if_neg fun both => still both.2.symm)
      rw [List.flatMap_cons, List.foldl_append, here]
      exact inductionHypothesis (fun other member => one other (by simp [member]))
        (fun other member => unnamed other (by simp [member])) still

/-- The one block with the alias decides. -/
theorem foldl_blocks_found {blocks : List HostBlock}
    (distinct : (blocks.map HostBlock.hostAlias).Nodup)
    (one : ∀ block ∈ blocks, block.hostNames.length ≤ 1)
    (found : ∀ block ∈ blocks, ∀ name ∈ block.hostNames,
      block.Exact ∧ name.Plain "HostName".toList) (state : CString × CString) :
    ((blocks.flatMap HostBlock.texts).foldl (afterLine resolve host) state).2 =
      match (blocks.find? fun block => block.hostAlias = host).bind fun block =>
        block.hostNames.head? with
      | some name => copyStr (resolve name.argument)
      | none => state.2 := by
  induction blocks generalizing state with
  | nil => rfl
  | cons block blocks inductionHypothesis =>
      rw [List.map_cons, List.nodup_cons] at distinct
      have oneLater : ∀ other ∈ blocks, other.hostNames.length ≤ 1 :=
        fun other member => one other (by simp [member])
      have foundLater : ∀ other ∈ blocks, ∀ name ∈ other.hostNames,
          other.Exact ∧ name.Plain "HostName".toList :=
        fun other member => found other (by simp [member])
      rw [List.flatMap_cons, List.foldl_append, HostBlock.foldl_texts (one block (by simp))]
      by_cases isHost : block.hostAlias = host
      · have later : ∀ other ∈ blocks, other.hostAlias = host →
            ∀ name ∈ other.hostNames, ¬ name.Plain "HostName".toList := fun other member same =>
          absurd (List.mem_map.mpr ⟨other, member, same.trans isHost.symm⟩) distinct.1
        rw [foldl_blocks_unseen oneLater (fun other member name named =>
          (foundLater other member name named).1) later]
        rw [List.find?_cons_of_pos (by simpa using isHost), Option.bind_some]
        cases names : block.hostNames with
        | nil => rfl
        | cons name rest =>
            have here := found block (by simp) name (by simp [names])
            exact if_pos ⟨here.2, by rw [here.1.current, isHost]⟩
      · rw [inductionHypothesis distinct.2 oneLater foundLater,
          List.find?_cons_of_neg (by simpa using isHost)]
        cases names : block.hostNames with
        | nil => rfl
        | cons name rest =>
            have here := found block (by simp) name (by simp [names])
            have other : ¬ (name.Plain "HostName".toList ∧ host = block.current state.1) :=
              fun both => isHost (by rw [both.2, here.1.current])
            simp only [List.head?_cons, if_neg other]

end Blocks

theorem Blanks.oneLine {blanks : CString} (blank : Blanks blanks) : '\n' ∉ blanks :=
  fun member => (blank '\n' member).2 rfl

theorem KeywordLine.Spells.oneLine {line : KeywordLine} {word : CString} (spells : line.Spells word)
    (solid : ∀ c ∈ word.map Char.toLower, isSpace c = false) : '\n' ∉ line.text := by
  have inKeyword : '\n' ∉ line.keyword := fun member =>
    absurd (spells.solid solid '\n' member) (by decide)
  have inArgument : '\n' ∉ line.argument := fun member =>
    absurd (line.argumentSolid '\n' member) (by decide)
  simp [text, line.indentBlank.oneLine, line.gapBlank.oneLine, line.trailingBlank.oneLine,
    inKeyword, inArgument]

theorem BlockLine.oneLine : ∀ line : BlockLine, '\n' ∉ line.text
  | hostName _ spells => spells.oneLine (solid_of_all (by decide))
  | other line => line.oneLine

namespace SshConfig

variable (config : SshConfig) {resolve : CString → CPtr} {host : CString}

theorem oneLine : ∀ line ∈ config.texts, '\n' ∉ line := by
  intro text member
  rcases List.mem_append.mp member with inPreamble | inBlocks
  · obtain ⟨line, -, rfl⟩ := List.mem_map.mp inPreamble
    exact line.oneLine
  · obtain ⟨block, -, inBlock⟩ := List.mem_flatMap.mp inBlocks
    rcases List.mem_cons.mp inBlock with rfl | inLines
    · exact block.spells.oneLine (solid_of_all (by decide))
    · obtain ⟨line, -, rfl⟩ := List.mem_map.mp inLines
      exact line.oneLine

theorem foldl_preamble (lines : List OtherLine) (state : CString × CString) :
    (lines.map OtherLine.text).foldl (afterLine resolve host) state = state := by
  induction lines with
  | nil => rfl
  | cons line lines inductionHypothesis =>
      rw [List.map_cons, List.foldl_cons, afterLine_other, inductionHypothesis]

theorem lookedUp_text : lookedUp resolve host (streamReadLines config.text) =
    ((config.blocks.flatMap HostBlock.texts).foldl (afterLine resolve host) ([], [])).2 := by
  have newline : ∀ state line, afterLine resolve host state (line ++ ['\n']) =
      afterLine resolve host state line := by
    intro state line
    rw [afterLine, seen_newline]
    rfl
  rw [lookedUp, text, foldl_streamReadLines newline (fun _ => rfl) config.oneLine, texts,
    List.foldl_append, foldl_preamble]

variable {block : HostBlock} {name : KeywordLine}

theorem eq_of_hostAlias (member : block ∈ config.blocks) {other : HostBlock}
    (memberOther : other ∈ config.blocks) (same : other.hostAlias = block.hostAlias) :
    other = block :=
  List.inj_on_of_nodup_map config.oneBlock memberOther member same

theorem hostNames_eq (member : block ∈ config.blocks) (named : name ∈ block.hostNames) :
    block.hostNames = [name] := by
  have one := config.oneName block member
  generalize block.hostNames = names at one named
  match names, one, named with
  | [only], _, named => rw [List.mem_singleton.mp named]

theorem given_hostAlias (member : block ∈ config.blocks) (named : name ∈ block.hostNames) :
    config.given block.hostAlias = some name.argument := by
  have isFirst : config.blocks.find? (fun other => other.hostAlias = block.hostAlias) =
      some block := by
    rcases isFirst : config.blocks.find? (fun other => other.hostAlias = block.hostAlias) with
      _ | other
    · exact absurd (decide_eq_true rfl) (List.find?_eq_none.mp isFirst block member)
    · have same : other.hostAlias = block.hostAlias := by simpa using List.find?_some isFirst
      exact isFirst.trans (congrArg some
        (config.eq_of_hostAlias member (List.mem_of_find?_eq_some isFirst) same))
  rw [given, isFirst, Option.bind_some, config.hostNames_eq member named]
  rfl

/-- The blocks with host names are laid out such that they are recognised. -/
def Recognised : Prop := ∀ block ∈ config.blocks, ∀ name ∈ block.hostNames,
  block.Exact ∧ name.Plain "HostName".toList

theorem lookedUp_recognised (recognised : config.Recognised) :
    lookedUp resolve host (streamReadLines config.text) = config.resolved resolve host := by
  rw [lookedUp_text, foldl_blocks_found config.oneBlock config.oneName recognised, resolved, given]
  cases config.blocks.find? fun block => block.hostAlias = host with
  | none => rfl
  | some block => cases names : block.hostNames <;> simp [names]

/-- Where names resolve to themselves, the aliases show what is not recognised. -/
theorem recognised_of_lookedUp (lookups : ∀ host, lookedUp some host (streamReadLines config.text) =
    config.resolved some host) : config.Recognised := by
  have given : ∀ block ∈ config.blocks, ∀ name ∈ block.hostNames,
      ((config.blocks.flatMap HostBlock.texts).foldl (afterLine some block.hostAlias)
        ([], [])).2 ≠ [] := by
    intro block member name named
    have isGiven := config.given_hostAlias member named
    rw [← lookedUp_text, lookups, resolved, isGiven]
    exact name.argumentNonempty
  have exact' : ∀ block ∈ config.blocks, ∀ name ∈ block.hostNames, block.Exact := by
    intro block member name named
    by_contra inexact
    refine given block member name named (foldl_blocks_unnamed block.host.argumentSolid
      config.oneName (fun other memberOther same => ?_) block.host.argumentNonempty.symm)
    rwa [config.eq_of_hostAlias member memberOther same]
  refine fun block member name named => ⟨exact' block member name named, ?_⟩
  by_contra unseen
  refine given block member name named (foldl_blocks_unseen config.oneName exact'
    (fun other memberOther same otherName namedOther => ?_) ([], []))
  obtain rfl := config.eq_of_hostAlias member memberOther same
  rw [config.hostNames_eq memberOther named, List.mem_singleton] at namedOther
  rwa [namedOther]

end SshConfig

/-- The host of a configuration file, where every name resolves to itself. -/
def configHost (settings : Settings) (text : CString) : Environment Answer
  | made, .streamReadLine _ =>
      (streamReadLines text)[linesTaken (.file (sshConfigPath settings)) made]?
  | _, .lookupHostIP name => some name
  | made, call => obligingHost made call

theorem hasConfig_configHost (settings : Settings) (text : CString) :
    HasConfig settings text some (configHost settings text) [] where
  opens _ := rfl
  reads _ := rfl
  resolves _ _ := rfl

/-- `SSHHostLookupIP` returns the address of the host name in the block of the
alias, and nothing where there is none, exactly if each block with a host name
begins with `Host`, a single space and the alias, and a space follows on
`HostName`. -/
theorem sshHostLookupIP_resolves_iff (settings : Settings) (config : SshConfig) :
    (∀ host resolve env before fuel, HasConfig settings config.text resolve env before →
      (streamReadLines config.text).length < fuel →
      ∃ made, sshHostLookupIP settings fuel host env before =
        some (.returned (config.resolved resolve (copyStr host)), before ++ made)) ↔
    ∀ block ∈ config.blocks, ∀ name ∈ block.hostNames,
      block.host.keyword = "Host".toList ∧ block.host.gap = [' '] ∧
        name.keyword = "HostName".toList ∧ name.gap.head? = some ' ' := by
  have same : config.Recognised ↔ ∀ block ∈ config.blocks, ∀ name ∈ block.hostNames,
      block.host.keyword = "Host".toList ∧ block.host.gap = [' '] ∧
        name.keyword = "HostName".toList ∧ name.gap.head? = some ' ' := by
    simp only [SshConfig.Recognised, HostBlock.Exact, KeywordLine.Plain, and_assoc]
  rw [← same]
  constructor
  · intro resolves
    refine config.recognised_of_lookedUp fun host => ?_
    have has := hasConfig_configHost settings config.text
    obtain ⟨made, run⟩ := resolves (some host) some _ [] _ has (Nat.lt_succ_self _)
    obtain ⟨other, isRun⟩ := @HasConfig.sshHostLookupIP_run _ _ _ _ _ (some host) has _
      (Nat.lt_succ_self _)
    have ending := (Prod.mk.inj (Option.some.inj (isRun.symm.trans run))).1
    exact Ending.returned.inj ending
  · intro recognised host resolve env before fuel has enough
    obtain ⟨made, run⟩ := @HasConfig.sshHostLookupIP_run _ _ _ _ _ host has _ enough
    rw [config.lookedUp_recognised recognised] at run
    exact ⟨made, run⟩

/-- `Host  gate`, with two blanks, and its host name. -/
def wideConfig : SshConfig where
  preamble := []
  blocks := [⟨⟨[], "Host".toList, "  ".toList, "gate".toList, [], by decide, by decide, by decide,
      by decide, by decide, solid_of_all (by decide)⟩, rfl,
    [.hostName ⟨"    ".toList, "HostName".toList, " ".toList, "192.0.2.7".toList, [], by decide,
      by decide, by decide, by decide, by decide, solid_of_all (by decide)⟩ rfl]⟩]
  oneBlock := by decide
  oneName := by decide

theorem sshHostLookupIP_misses_gate :
    wideConfig.text = "Host  gate\n    HostName 192.0.2.7".toList ∧
    wideConfig.resolved some "gate".toList = "192.0.2.7".toList ∧
    ¬ ∃ made, sshHostLookupIP plainSettings 3 (some "gate".toList)
        (configHost plainSettings wideConfig.text) [] =
      some (.returned (wideConfig.resolved some "gate".toList), made) := by
  refine ⟨by decide +kernel, by decide +kernel, ?_⟩
  rintro ⟨made, run⟩
  have missed : (sshHostLookupIP plainSettings 3 (some "gate".toList)
      (configHost plainSettings wideConfig.text) []).map Prod.fst = some (.returned []) := by
    decide +kernel
  rw [run] at missed
  exact absurd (Ending.returned.inj (Option.some.inj missed)) (by decide +kernel)

end VpnMgr.Client
