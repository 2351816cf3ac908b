import Mathlib.Data.Nat.Count
import VpnMgr.Client.Ppp
import VpnMgr.Client.ShellSync

/-!
# Looking for a remote command

`SSHHostFindCommand` reads one line for each `ls` that it sends.  A terminal
that echoes brings back two.
-/

namespace VpnMgr.Client

open Machine Text CString LibUseful Process

/-- A column of `ls -l` and the blanks behind it. -/
structure Column where
  word : CString
  /-- one less than there are -/
  blanks : Nat
  nonempty : word ≠ []
  solid : ∀ c ∈ word, isSpace c = false
  /-- a backslash at the end would escape the blank -/
  closed : escapesNext word = false

namespace Column

def text (column : Column) : CString := column.word ++ ' ' :: List.replicate column.blanks ' '

end Column

/-- What `ls -l` says of a regular file in front of its name. -/
structure FileColumns where
  columns : List Column
  eight : columns.length = 8
  dash : (columns.head?.bind fun column => column.word.head?) = some '-'

/-- The line that `ls -l -1` answers with for one path. -/
inductive LsAnswer where
  | file (columns : FileColumns)
  /-- a directory, a device, a link, or a message that there is no such path -/
  | other (line : CString) (noDash : line.head? ≠ some '-') (oneLine : '\n' ∉ line)

namespace LsAnswer

def isFile : LsAnswer → Bool
  | file _ => true
  | other .. => false

def line (path : CString) : LsAnswer → CString
  | file columns => columns.columns.flatMap Column.text ++ path
  | other line _ _ => line

end LsAnswer

abbrev RemoteFiles := CString → LsAnswer

def commandPath (cmd dir : CString) : CString := dir ++ '/' :: cmd

/-- The path in the first of the directories in which the command is a regular
file; empty if it is in none. -/
def firstOnPath (files : RemoteFiles) (cmd : CString) (dirs : List CString) : CString :=
  ((dirs.map (commandPath cmd)).find? fun path => (files path).isFile).getD []

def lsCommand : CString := "ls -l -1 ".toList

def lsRequest (path : CString) : CString := lsCommand ++ (path ++ ['\n'])

def requestPath (typed : CString) : CString := (typed.drop lsCommand.length).dropLast

/-- A remote shell on a terminal.  It answers each request with one line, in
order, and it may print what was typed, each line before or after answers to
earlier ones. -/
structure Terminal where
  files : RemoteFiles
  /-- is the line that comes back at this place an echo? -/
  isEcho : Nat → Bool
  lineEnd : CString
  blank : ∀ c ∈ lineEnd, isSpace c = true

namespace Terminal

variable (terminal : Terminal)

/-- How many of the first lines that come back are answers. -/
def answered (lines : Nat) : Nat := Nat.count (fun n => terminal.isEcho n = false) lines

def echoed (lines : Nat) : Nat := Nat.count (fun n => terminal.isEcho n = true) lines

def answer (typed : CString) : CString :=
  (terminal.files (requestPath typed)).line (requestPath typed)

/-- The line that comes back at this place, once these lines have been typed. -/
def comesBack (typed : List CString) (n : Nat) : CPtr :=
  if terminal.isEcho n then
    typed[terminal.echoed n]?.map fun line => line.dropLast ++ terminal.lineEnd
  else typed[terminal.answered n]?.map fun line => terminal.answer line ++ terminal.lineEnd

end Terminal

/-- The stream is that terminal, from some moment on. -/
def Terminal.Serves (terminal : Terminal) (env : Environment Answer) (before : History Answer) :
    Prop :=
  ∀ made, env (before ++ made) (.streamReadLine .ssh) =
    terminal.comesBack (linesSent made) (linesTaken .ssh made)

/-- The name of a command. -/
structure CommandName (cmd : CString) : Prop where
  nonempty : cmd ≠ []
  noSlash : '/' ∉ cmd
  solid : ∀ c ∈ cmd, isSpace c = false

section Listing

variable {rest path : CString}

def StartsSolid (text : CString) : Prop := ∀ c, text.head? = some c → isSpace c = false

theorem StartsSolid.skipSpace {text : CString} (starts : StartsSolid text) :
    skipSpace text = text := by
  cases text with
  | nil => rfl
  | cons c rest => exact List.dropWhile_cons_of_neg (by simp [starts c rfl])

theorem skipSpace_replicate (n : Nat) (starts : StartsSolid rest) :
    skipSpace (List.replicate n ' ' ++ rest) = rest := by
  induction n with
  | zero => exact starts.skipSpace
  | succ n inductionHypothesis => exact inductionHypothesis

theorem startsSolid_of_solid (solid : ∀ c ∈ path, isSpace c = false) : StartsSolid path :=
  fun c first => solid c (List.mem_of_head? first)

namespace Column

variable (column : Column)

theorem startsSolid (rest : CString) : StartsSolid (column.text ++ rest) := by
  intro c first
  rw [text, List.append_assoc, List.head?_append_of_ne_nil _ column.nonempty] at first
  exact column.solid c (List.mem_of_head? first)

theorem token (starts : StartsSolid rest) :
    getToken (some (column.text ++ rest)) "\\S".toList noFlags = ⟨some rest, column.word⟩ := by
  have walk := unbroken_of_solid column.word column.solid
  rw [if_neg (by simp [column.closed])] at walk
  have behind := getToken_unbroken (.inl rfl) walk (List.replicate column.blanks ' ' ++ rest)
  rw [skipSpace_replicate _ starts] at behind
  rw [text, List.append_assoc, List.cons_append, behind]

end Column

theorem sshHostParseLS_file (cmd : CString) (columns : FileColumns) (nonempty : path ≠ [])
    (solid : ∀ c ∈ path, isSpace c = false) :
    sshHostParseLS cmd ((LsAnswer.file columns).line path) =
      if cmd = getBasename path then path else [] := by
  obtain ⟨columns, eight, dash⟩ := columns
  obtain ⟨c1, c2, c3, c4, c5, c6, c7, c8, rfl⟩ : ∃ c1 c2 c3 c4 c5 c6 c7 c8,
      columns = [c1, c2, c3, c4, c5, c6, c7, c8] := by
    match columns, eight with
    | [c1, c2, c3, c4, c5, c6, c7, c8], _ => exact ⟨c1, c2, c3, c4, c5, c6, c7, c8, rfl⟩
  have starts := startsSolid_of_solid solid
  have isFile : (c1.text ++ (c2.text ++ (c3.text ++ (c4.text ++ (c5.text ++ (c6.text ++ (c7.text ++
      (c8.text ++ path)))))))).head? = some '-' := by
    rw [Column.text, List.append_assoc, List.head?_append_of_ne_nil _ c1.nonempty]
    exact dash
  simp only [sshHostParseLS, LsAnswer.line, List.flatMap_cons, List.flatMap_nil, List.append_nil,
    List.append_assoc, isFile, if_true]
  simp only [Column.token _ (Column.startsSolid _ _), Column.token _ starts,
    getToken_solid_last nonempty solid]

theorem sshHostParseLS_other (cmd : CString) {line : CString} (noDash : line.head? ≠ some '-') :
    sshHostParseLS cmd line = [] := by
  rw [sshHostParseLS, if_neg noDash]

end Listing

section Terminals

variable (terminal : Terminal) {cmd : CString}

theorem requestPath_lsRequest (path : CString) : requestPath (lsRequest path) = path := by
  rw [requestPath, lsRequest, List.drop_left, List.dropLast_concat]

theorem Terminal.answered_succ (n : Nat) :
    terminal.answered (n + 1) = terminal.answered n + if terminal.isEcho n = false then 1 else 0 :=
  Nat.count_succ ..

theorem Terminal.answered_le (n : Nat) : terminal.answered n ≤ n := Nat.count_le _

theorem Terminal.echoed_le (n : Nat) : terminal.echoed n ≤ n := Nat.count_le _

namespace CommandName

variable {dir : CString} (isName : CommandName cmd)
include isName

theorem path_solid (solid : ∀ c ∈ dir, isSpace c = false) :
    ∀ c ∈ commandPath cmd dir, isSpace c = false := by
  intro c member
  rcases List.mem_append.mp member with inDir | member
  · exact solid c inDir
  · rcases List.mem_cons.mp member with rfl | inName
    · decide
    · exact isName.solid c inName

theorem basename (dir : CString) : getBasename (commandPath cmd dir) = cmd :=
  getBasename_append dir isName.nonempty isName.noSlash

end CommandName

theorem commandPath_ne_nil (cmd dir : CString) : commandPath cmd dir ≠ [] :=
  List.append_ne_nil_of_right_ne_nil _ (List.cons_ne_nil _ _)

/-- What is recognised in the answer about a path. -/
theorem parse_answer (isName : CommandName cmd) {dir : CString}
    (solid : ∀ c ∈ dir, isSpace c = false) :
    sshHostParseLS cmd (stripTrailingWhitespace
        (terminal.answer (lsRequest (commandPath cmd dir)) ++ terminal.lineEnd)) =
      if (terminal.files (commandPath cmd dir)).isFile = true then commandPath cmd dir else [] := by
  rw [Terminal.answer, requestPath_lsRequest]
  have pathSolid := isName.path_solid solid
  have nonempty := commandPath_ne_nil cmd dir
  cases terminal.files (commandPath cmd dir) with
  | file columns =>
      have ends : (LsAnswer.file columns).line (commandPath cmd dir) ≠ [] :=
        List.append_ne_nil_of_right_ne_nil _ nonempty
      have last : isSpace (((LsAnswer.file columns).line (commandPath cmd dir)).getLast ends) =
          false := by
        simp only [LsAnswer.line, List.getLast_append_of_ne_nil _ nonempty]
        exact pathSolid _ (List.getLast_mem nonempty)
      rw [stripTrailingWhitespace_blank terminal.blank ends last,
        sshHostParseLS_file cmd columns nonempty pathSolid, isName.basename, if_pos rfl]
      rfl
  | other line noDash oneLine =>
      refine sshHostParseLS_other cmd fun dash => noDash ?_
      have front : stripTrailingWhitespace (line ++ terminal.lineEnd) <+: line ++ terminal.lineEnd :=
        List.rdropWhile_prefix ..
      obtain ⟨behind, whole⟩ := front
      have first : (line ++ terminal.lineEnd).head? = some '-' := by
        rw [← whole, List.head?_append]
        exact congrArg (Option.or · _) dash
      cases line with
      | cons c rest => exact first
      | nil =>
          have blank := terminal.blank '-' (List.mem_of_head? first)
          exact absurd blank (by decide)

theorem parse_echo (path : CString) :
    sshHostParseLS cmd (stripTrailingWhitespace
      ((lsRequest path).dropLast ++ terminal.lineEnd)) = [] := by
  refine sshHostParseLS_other cmd fun dash => ?_
  have typed : (lsRequest path).dropLast ++ terminal.lineEnd =
      "ls".toList ++ (" -l -1 ".toList ++ (path ++ terminal.lineEnd)) := by
    have request : lsRequest path = (lsCommand ++ path) ++ ['\n'] := (List.append_assoc ..).symm
    rw [request, List.dropLast_concat, List.append_assoc]
    rfl
  rw [typed, stripTrailingWhitespace_append] at dash
  split at dash
  · exact absurd dash (by decide)
  · exact absurd (Option.some.inj dash) (by decide)

end Terminals

/-! ## The search -/

section Search

variable {files : RemoteFiles} {cmd : CString} {dirs front : List CString}

theorem firstOnPath_eq_nil_iff :
    firstOnPath files cmd dirs = [] ↔ ∀ dir ∈ dirs, (files (commandPath cmd dir)).isFile = false := by
  rcases isFirst : (dirs.map (commandPath cmd)).find? (fun path => (files path).isFile) with _ | path
  · rw [firstOnPath, isFirst]
    refine iff_of_true rfl fun dir listed => ?_
    simpa using List.find?_eq_none.mp isFirst _ (List.mem_map_of_mem listed)
  · rw [firstOnPath, isFirst]
    obtain ⟨dir, listed, rfl⟩ := List.mem_map.mp (List.mem_of_find?_eq_some isFirst)
    refine iff_of_false (commandPath_ne_nil cmd dir) fun none => ?_
    have isFile := @List.find?_some _ (fun path => (files path).isFile) _ _ isFirst
    exact absurd ((none dir listed).symm.trans isFile) (by decide)

theorem firstOnPath_append_none (none : firstOnPath files cmd front = []) (behind : List CString) :
    firstOnPath files cmd (front ++ behind) = firstOnPath files cmd behind := by
  have nothing : (front.map (commandPath cmd)).find? (fun path => (files path).isFile) = .none := by
    rw [List.find?_eq_none]
    intro path member
    obtain ⟨dir, listed, rfl⟩ := List.mem_map.mp member
    simp [firstOnPath_eq_nil_iff.mp none dir listed]
  rw [firstOnPath, List.map_append, List.find?_append, nothing]
  rfl

end Search

section Run

variable {terminal : Terminal} {env : Environment Answer} {before : History Answer} {cmd : CString}

/-- What is recognised in a line that comes back once all of these directories
have been asked about, and nothing was in the lines before. -/
theorem recognised (isName : CommandName cmd) {asked : List CString}
    (solid : ∀ dir ∈ asked, ∀ c ∈ dir, isSpace c = false) {n : Nat} (among : n < asked.length)
    (none : firstOnPath terminal.files cmd (asked.take (terminal.answered n)) = []) :
    sshHostParseLS cmd (stripTrailingWhitespace (copyStr (terminal.comesBack
        (asked.map fun dir => lsRequest (commandPath cmd dir)) n))) =
      firstOnPath terminal.files cmd (asked.take (terminal.answered (n + 1))) := by
  rw [terminal.answered_succ, Terminal.comesBack]
  by_cases echo : terminal.isEcho n = true
  · have earlier := (terminal.echoed_le n).trans_lt among
    rw [if_pos echo, if_neg (by simp [echo]), Nat.add_zero, none, List.getElem?_map,
      List.getElem?_eq_getElem earlier]
    exact parse_echo terminal _
  · have earlier := (terminal.answered_le n).trans_lt among
    rw [if_neg echo, if_pos (by simpa using echo), List.take_succ_eq_append_getElem earlier,
      firstOnPath_append_none none, List.getElem?_map, List.getElem?_eq_getElem earlier]
    refine (parse_answer terminal isName (solid _ (List.getElem_mem earlier))).trans ?_
    rw [firstOnPath, List.map_singleton, List.find?_singleton]
    split
    · rfl
    · rfl

end Run

/-! ## Terminals with and without an echo -/

end VpnMgr.Client
