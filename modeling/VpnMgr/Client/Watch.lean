import VpnMgr.Client.AllowedIps
import VpnMgr.Client.Connect
import VpnMgr.Command.Quoting
import VpnMgr.LibUseful.TokenChars
import VpnMgr.Machine.Contract
import VpnMgr.Shell.Arguments

/-!
# Watching a driver

A monitor of a driver's calls: the streams it uses are open, it launches its
own programs only, and a command is one command of one of them as long as the
host's texts are harmless.
-/

namespace VpnMgr.Client

open Machine Text CString LibUseful Command Process Shell

/-- The remote peer of pppd is the SSH stream where there is one. -/
def isOpen (opened : List StreamId) : StreamId → Bool
  | .remotePeer => opened.contains .remotePeer || opened.contains .ssh
  | stream => opened.contains stream

/-- The stream that a `RunCommandOpen` of this text is for, and its flags. -/
def launched (text : CString) : Option (StreamId × FlagWord) :=
  if hasPrefix "ssh ".toList text then some (.ssh, 0)
  else if hasPrefix "openvpn ".toList text then some (.openvpn, cmdAsRoot ||| cmdKill)
  else if hasPrefix "pppd ".toList text then some (.pppd, cmdSudo ||| cmdSu ||| cmdNoStderr)
  else none

theorem launched_ssh {text : CString} (starts : hasPrefix "ssh ".toList text = true) :
    launched text = some (.ssh, 0) := by
  obtain ⟨rest, rfl⟩ := (hasPrefix_iff _ _).mp starts
  rfl

theorem launched_openvpn {text : CString} (starts : hasPrefix "openvpn ".toList text = true) :
    launched text = some (.openvpn, cmdAsRoot ||| cmdKill) := by
  obtain ⟨rest, rfl⟩ := (hasPrefix_iff _ _).mp starts
  rfl

theorem launched_pppd {text : CString} (starts : hasPrefix "pppd ".toList text = true) :
    launched text = some (.pppd, cmdSudo ||| cmdSu ||| cmdNoStderr) := by
  obtain ⟨rest, rfl⟩ := (hasPrefix_iff _ _).mp starts
  rfl

/-- The streams that must be open for a call. -/
def usedStreams : Call → List StreamId
  | .streamGetValue stream _ | .streamReadLine stream | .streamReadToMultiTerminator stream
  | .streamReadBytes stream | .streamWriteLine stream _ | .streamWriteBytes stream _ => [stream]
  | .runCommandReadLoop => [.ssh]
  | .runCommandCleanUp flags => if flags = cmdKill then [.ssh] else [.pppd]
  | .streamSelect => [.pppd, .remotePeer]
  | _ => []

/-- The stream that a call opens if it succeeds. -/
def openedStream : Call → Option StreamId
  | .runCommandOpen text _ => (launched text).map (·.1)
  | .streamOpen stream _ _ => some stream
  | _ => none

def closedStream : Call → Option StreamId
  | .streamClose stream => some stream
  | _ => none

def succeeded : Sigma Answer → Bool
  | ⟨.runCommandOpen .., answer⟩ => Option.getD answer false
  | ⟨.streamOpen .., answer⟩ => answer
  | _ => false

/-- A used stream is open, an opened one is not, and one that is closed was opened. -/
def streamsFit (opened : List StreamId) (call : Call) : Bool :=
  (usedStreams call).all (isOpen opened) && (openedStream call).all (fun stream => !isOpen opened stream)
    && (closedStream call).all (opened.contains ·)

/-- The open streams after a call, or `none` where it is no call to make. -/
def streamStep (opened : List StreamId) (interaction : Sigma Answer) : Option (List StreamId) :=
  if streamsFit opened interaction.1 then
    let fresh := if succeeded interaction then openedStream interaction.1 else none
    some ((closedStream interaction.1).elim id (fun stream => (·.erase stream)) (fresh.toList ++ opened))
  else none

section Streams

variable {opened : List StreamId} {call : Call} {stream : StreamId}

@[simp]
theorem isOpen_head : isOpen (stream :: opened) stream = true := by
  cases stream <;> simp [isOpen]

theorem streamStep_use (noOpening : openedStream call = none) (noClosing : closedStream call = none)
    (areOpen : (usedStreams call).all (isOpen opened) = true) (answer : Answer call) :
    streamStep opened ⟨call, answer⟩ = some opened := by
  simp [streamStep, streamsFit, noOpening, noClosing, areOpen]

theorem streamStep_open (opening : openedStream call = some stream)
    (noUse : usedStreams call = []) (noClosing : closedStream call = none)
    (closed : isOpen opened stream = false) (answer : Answer call) :
    streamStep opened ⟨call, answer⟩ =
      some (if succeeded ⟨call, answer⟩ then stream :: opened else opened) := by
  cases success : succeeded ⟨call, answer⟩ <;>
    simp [streamStep, streamsFit, opening, noUse, noClosing, closed, success]

theorem streamStep_close (answer : Answer (.streamClose stream)) :
    streamStep (stream :: opened) ⟨.streamClose stream, answer⟩ = some opened := by
  have noUse : usedStreams (.streamClose stream) = [] := rfl
  simp [streamStep, streamsFit, noUse, openedStream, closedStream]

end Streams

/-- The word that `RunCmdSetup` looks up. -/
def programOf (text : CString) : CString := (getToken (some text) "\\S".toList noFlags).text

/-- The programs that a protocol's driver runs, besides the scripts. -/
def programsOf (protocol : Protocol) : List CString :=
  let own : List String :=
    match protocol with
    | .wireguard => ["modprobe", "chmod", "ip", "wg", "wireguard-go", "boringtun-cli"]
    | .ssh => ["modprobe", "chmod", "ip", "ssh"]
    | .openVpn => ["modprobe", "chmod", "ip", "openvpn", "kill"]
    | .pppSsh => ["ssh", "pppd"]
    | .pppTls => ["pppd"]
  (["route", "ifconfig", "mv"] ++ own).map String.toList

/-- A launch other than a script's is one of the protocol's programs, with the flags of its kind. -/
def ownProgram (protocol : Protocol) : Call → Bool
  | .runCommand text flags => (programsOf protocol).contains (programOf text) && flags = cmdAsRoot
  | .runCommandOpen text flags =>
      (programsOf protocol).contains (programOf text) && ((launched text).map (·.2) = some flags)
  | .streamOpen .sshConfig url _ =>
      hasPrefix "cmd:".toList url && (programsOf protocol).contains (programOf (url.drop 4))
  | _ => true

/-- A `?` is replaced by file names at most, so it may as well be a letter. -/
def withoutPatterns (text : CString) : CString := text.map fun c => if c = '?' then 'x' else c

/-- The shell reads the text as one command of one of these programs. -/
def isCommandOf (programs : List CString) (text : CString) : Bool :=
  ((bareArgv (withoutPatterns text)).bind List.head?).any (programs.contains ·)

def isScriptCommand (text : CString) : Bool :=
  ((bareArgv text).bind List.head?).any (hasPrefix "/".toList)

def oneCommand (protocol : Protocol) : Call → Bool
  | .runCommand text _ => isCommandOf (programsOf protocol) text
  | .runCommandOpen text _ => isCommandOf (programsOf protocol) text
  | .runScript text => isScriptCommand text
  | .streamOpen .sshConfig url _ =>
      hasPrefix "cmd:".toList url && isCommandOf ["ssh".toList] (url.drop 4)
  | _ => true

/-- A text without a meaning to the shell, apart from blanks and `?`. -/
def harmless (text : CString) : Bool := (withoutPatterns text).all isHarmless

/-- A name, a number or an address that the drivers take from the host is harmless. -/
def tameAnswer : Sigma Answer → Bool
  | ⟨.readFile path, text⟩ => path = procNetRoute || harmless (stripTrailingWhitespace text)
  | ⟨.streamReadLine .openvpn, line⟩ => harmless (stripTrailingWhitespace (copyStr line))
  | ⟨.netLoadDevices, table⟩ => (netLoadDevices table).all fun dev => harmless dev.name
  | ⟨.getInterfaceIP _, ip⟩ => harmless ip
  | ⟨.lookupHostIP _, ip⟩ => harmless (copyStr ip)
  | _ => true

/-! ## The monitor -/

structure Watch where
  opened : List StreamId
  /-- the host's texts were all harmless so far -/
  tame : Bool

def watchStep (protocol : Protocol) (watch : Watch) (interaction : Sigma Answer) :
    Option Watch :=
  if ownProgram protocol interaction.1 && (!watch.tame || oneCommand protocol interaction.1) then
    (streamStep watch.opened interaction).map fun opened =>
      { opened, tame := watch.tame && tameAnswer interaction }
  else none

/-- From these open streams on the monitor accepts the process, which on a tame
host may rely on one fact and establishes another. -/
def Monitored {α : Type} (protocol : Protocol) (opened : List StreamId) (given : Prop)
    (process : Driver α) (after : α → List StreamId) (good : α → Prop) : Prop :=
  process.Follows (watchStep protocol)
    (fun watch => watch.opened = opened ∧ (watch.tame = true → given))
    fun result watch => watch.opened = after result ∧ (watch.tame = true → good result)

def Keeps {α : Type} (protocol : Protocol) (opened : List StreamId) (given : Prop)
    (process : Driver α) : Prop :=
  Monitored protocol opened given process (fun _ => opened) fun _ => True

section Rules

variable {α β σ : Type} {protocol : Protocol} {opened : List StreamId} {given stronger : Prop}
  {process : Driver α} {next : α → Driver β} {after : α → List StreamId}
  {last : β → List StreamId} {good better : α → Prop} {final : β → Prop}

theorem watchStep_tame {watch later : Watch} {interaction : Sigma Answer}
    (stepped : watchStep protocol watch interaction = some later) (tame : later.tame = true) :
    watch.tame = true := by
  unfold watchStep at stepped
  split at stepped
  case isTrue =>
    obtain ⟨opened, -, rfl⟩ := Option.map_eq_some_iff.mp stepped
    exact (Bool.and_eq_true_iff.mp tame).1
  case isFalse => cases stepped

namespace Monitored

theorem mono (monitored : Monitored protocol opened given process after good)
    (enough : stronger → given) (gives : ∀ result, stronger → good result → better result) :
    Monitored protocol opened stronger process after better := by
  have weakened : process.Follows (watchStep protocol)
      (fun watch => watch.opened = opened ∧ (watch.tame = true → stronger))
      fun result watch => watch.opened = after result ∧ (watch.tame = true → good result) :=
    Follows.mono monitored (fun _ held => ⟨held.1, fun tame => enough (held.2 tame)⟩) fun _ _ => id
  refine Follows.mono (weakened.frame (fun _ _ _ => watchStep_tame) stronger) ?_ ?_
  · exact fun _ held => ⟨held, held.2⟩
  · exact fun result _ held => ⟨held.1.1, fun tame => gives result (held.2 tame) (held.1.2 tame)⟩

theorem bind (monitored : Monitored protocol opened given process after good)
    (continued : ∀ result,
      Monitored protocol (after result) (given ∧ good result) (next result) last final) :
    Monitored protocol opened given (process >>= next) last final := by
  have known : Monitored protocol opened given process after fun result => given ∧ good result :=
    mono monitored id fun _ => And.intro
  exact Follows.bind known continued

theorem bind_yields {fact : α → Prop} (monitored : Monitored protocol opened given process after good)
    (yields : process.Yields fun result _ => fact result)
    (continued : ∀ result, fact result →
      Monitored protocol (after result) (given ∧ good result) (next result) last final) :
    Monitored protocol opened given (process >>= next) last final := by
  have known : Monitored protocol opened given process after fun result => given ∧ good result :=
    mono monitored id fun _ => And.intro
  exact Follows.bind_yields known yields continued

theorem pure {result : α} (same : opened = after result) (held : given → good result) :
    Monitored protocol opened given (pure result) after good :=
  Follows.pure fun _ before => ⟨before.1.trans same, fun tame => held (before.2 tame)⟩

theorem exit : Monitored protocol opened given (Process.exit : Driver α) after good := Follows.exit

theorem ite {condition : Prop} [Decidable condition] {yes no : Driver α}
    (monitoredYes : condition → Monitored protocol opened given yes after good)
    (monitoredNo : ¬ condition → Monitored protocol opened given no after good) :
    Monitored protocol opened given (if condition then yes else no) after good :=
  Follows.ite monitoredYes monitoredNo

theorem ask {call : Call} {after : Answer call → List StreamId} {good : Answer call → Prop}
    (own : ownProgram protocol call = true) (one : given → oneCommand protocol call = true)
    (step : ∀ answer, streamStep opened ⟨call, answer⟩ = some (after answer))
    (learned : ∀ answer, given → tameAnswer ⟨call, answer⟩ = true → good answer) :
    Monitored protocol opened given (ask call) after good := by
  refine Follows.ask fun watch answer before => ?_
  obtain ⟨isOpened, known⟩ := before
  have permitted : (ownProgram protocol call && (!watch.tame || oneCommand protocol call)) = true := by
    cases tame : watch.tame with
    | false => simp [own]
    | true => simp [own, one (known tame)]
  refine ⟨⟨after answer, watch.tame && tameAnswer ⟨call, answer⟩⟩, ?_, rfl, fun tame => ?_⟩
  · rw [watchStep, if_pos permitted, isOpened, step answer, Option.map_some]
  · obtain ⟨wasTame, isTame⟩ := Bool.and_eq_true_iff.mp tame
    exact learned answer (known wasTame) isTame

/-- A loop that keeps the streams and, on a tame host, a condition on its variables. -/
theorem loop {body : σ → Driver (σ ⊕ α)} (invariant : σ → Prop) (good : α → Prop)
    (round : ∀ state, Monitored protocol opened (given ∧ invariant state) (body state)
      (fun _ => opened) fun next =>
        match next with
        | .inl later => invariant later
        | .inr result => good result)
    (fuel : Nat) {state : σ} (initial : given → invariant state) :
    Monitored protocol opened given (Process.loop body fuel state) (fun _ => opened) good := by
  have rounds : (Process.loop body fuel state).Follows (watchStep protocol)
      (fun watch => watch.opened = opened ∧ (watch.tame = true → given ∧ invariant state))
      fun result watch => watch.opened = opened ∧ (watch.tame = true → good result) := by
    refine @Follows.loop _ _ _ _ _ _ _ _
      (fun state (watch : Watch) => watch.opened = opened ∧ (watch.tame = true → given ∧ invariant state))
      (fun state => ?_) fuel state
    refine Follows.mono (mono (round state) id fun _ held good => And.intro held.1 good)
      (fun _ held => held) fun next watch held => ?_
    cases next with
    | inl later => exact held
    | inr result => exact ⟨held.1, fun tame => (held.2 tame).2⟩
  exact Follows.mono rounds (fun _ held => ⟨held.1, fun tame => ⟨held.2 tame, initial (held.2 tame)⟩⟩)
    fun _ _ => id

end Monitored

def Leaves {α : Type} (protocol : Protocol) (opened : List StreamId) (given : Prop)
    (process : Driver α) (left : List StreamId) : Prop :=
  process.Follows (watchStep protocol)
    (fun watch => watch.opened = opened ∧ (watch.tame = true → given))
    fun _ watch => ∀ stream ∈ watch.opened, stream ∈ left

namespace Monitored

variable {left : List StreamId}

theorem leaves (monitored : Monitored protocol opened given process after good)
    (inside : ∀ result, ∀ stream ∈ after result, stream ∈ left) :
    Leaves protocol opened given process left :=
  Follows.mono monitored (fun _ => id) fun result _ held stream member =>
    inside result stream (held.1 ▸ member)

theorem bind_leaves (monitored : Monitored protocol opened given process after good)
    (continued : ∀ result, Leaves protocol (after result) (given ∧ good result) (next result) left) :
    Leaves protocol opened given (process >>= next) left := by
  have known : Monitored protocol opened given process after fun result => given ∧ good result :=
    mono monitored id fun _ => And.intro
  exact Follows.bind known continued

end Monitored

namespace Keeps

theorem mono (keeps : Keeps protocol opened given process) (enough : stronger → given) :
    Keeps protocol opened stronger process :=
  Monitored.mono keeps enough fun _ _ => id

theorem when {condition : Bool} {process : Driver Unit}
    (keeps : condition = true → Keeps protocol opened given process) :
    Keeps protocol opened given (Process.when condition process) := by
  unfold Process.when
  exact Monitored.ite keeps fun _ => .pure rfl fun _ => trivial

theorem each {β : Type} {items : List β} {body : β → Driver Unit}
    (keeps : ∀ item ∈ items, Keeps protocol opened given (body item)) :
    Keeps protocol opened given (Process.each items body) := by
  induction items with
  | nil => exact Monitored.pure rfl fun _ => trivial
  | cons item rest inductionHypothesis =>
      refine Monitored.bind (keeps item List.mem_cons_self) fun _ => ?_
      exact (inductionHypothesis fun other member => keeps other (List.mem_cons_of_mem _ member)).mono
        And.left

end Keeps

end Rules

section Harmless

variable {first second text : CString} {p : CPtr}

theorem harmless_iff :
    harmless text = true ↔ ∀ c ∈ text, isHarmless (if c = '?' then 'x' else c) = true := by
  simp [harmless, withoutPatterns]

theorem harmless_of_chars (harmless : harmless text = true) (chars : ∀ c ∈ first, c ∈ text) :
    Client.harmless first = true :=
  harmless_iff.mpr fun c inside => harmless_iff.mp harmless c (chars c inside)

theorem harmless_append (here : harmless first = true) (later : harmless second = true) :
    harmless (first ++ second) = true := by
  refine harmless_iff.mpr fun c inside => ?_
  rcases List.mem_append.mp inside with inFirst | inSecond
  · exact harmless_iff.mp here c inFirst
  · exact harmless_iff.mp later c inSecond

theorem harmless_cons {parts : List CPtr} (head : harmless (copyStr p) = true)
    (rest : harmless (mCopyStr parts) = true) : harmless (mCopyStr (p :: parts)) = true := by
  cases p with
  | none => rfl
  | some text => exact harmless_append head rest

theorem harmless_decimal (n : Nat) : harmless (decimal n) = true := by
  refine harmless_iff.mpr fun c inside => ?_
  have digit := isDigit_of_mem_decimal inside
  have entry := isEntryChar_of_isDigit digit
  simp only [isEntryChar, Bool.and_eq_true] at entry
  have noPattern : c ≠ '?' := by
    rintro rfl
    exact absurd digit (by decide)
  rw [if_neg noPattern, isHarmless, entry.1.1, Bool.true_or]

theorem harmless_formatInt (value : Int) : harmless (formatInt value) = true := by
  unfold formatInt
  split
  · exact @harmless_append ['-'] _ (by decide) (harmless_decimal _)
  · exact harmless_decimal _

theorem harmless_intercalate {separator : CString} (between : harmless separator = true)
    {parts : List CString} (each : ∀ part ∈ parts, harmless part = true) :
    harmless (separator.intercalate parts) = true := by
  induction parts with
  | nil => rfl
  | cons part rest inductionHypothesis =>
      have here := each part List.mem_cons_self
      cases rest with
      | nil => simpa [List.intercalate] using here
      | cons other rest =>
          have later := inductionHypothesis fun part member => each part (List.mem_cons_of_mem _ member)
          have split : separator.intercalate (part :: other :: rest) =
              part ++ (separator ++ separator.intercalate (other :: rest)) := by
            simp [List.intercalate]
          rw [split]
          exact harmless_append here (harmless_append between later)

theorem harmless_stripTrailing (harmless : harmless text = true) :
    Client.harmless (stripTrailingWhitespace text) = true :=
  harmless_of_chars harmless fun _ inside => (List.rdropWhile_prefix _ _).subset inside

theorem harmless_stripLeading (harmless : harmless text = true) :
    Client.harmless (stripLeadingWhitespace text) = true :=
  harmless_of_chars harmless fun _ inside => (List.dropWhile_suffix _).subset inside

theorem not_quote_of_harmless (harmless : harmless text = true) : '\'' ∉ text := fun inside =>
  absurd (harmless_iff.mp harmless _ inside) (by decide)

theorem not_escape_of_harmless (harmless : harmless text = true) : '\\' ∉ text := fun inside =>
  absurd (harmless_iff.mp harmless _ inside) (by decide)

theorem arguments_of_harmless (harmless : harmless text = true) :
    Arguments (withoutPatterns text) := .of_harmless (List.all_eq_true.mp harmless)

theorem arguments_quoted (harmless : harmless text = true) :
    Arguments (withoutPatterns ('\'' :: text ++ ['\''])) := by
  have noQuote : '\'' ∉ withoutPatterns text := fun inside =>
    absurd (List.all_eq_true.mp harmless _ inside) (by decide)
  simpa [withoutPatterns] using Arguments.quoted noQuote

theorem harmless_getToken (harmless : harmless (copyStr p) = true) (separator : CString) :
    Client.harmless (getToken p separator noFlags).text = true ∧
      Client.harmless (copyStr (getToken p separator noFlags).ptr) = true := by
  have noEscape := not_escape_of_harmless harmless
  exact ⟨harmless_of_chars harmless fun _ inside => getToken_chars noEscape separator rfl (.inl inside),
    harmless_of_chars harmless fun _ inside => getToken_chars noEscape separator rfl (.inr inside)⟩

theorem harmless_getTokens (harmless : harmless (copyStr p) = true) (separator : CString)
    {flags : TokenFlags} (fresh : flags.foundBackslash = false) {token : CString}
    (member : token ∈ getTokens p separator flags) : Client.harmless token = true :=
  harmless_of_chars harmless fun _ inside =>
    getTokens_chars (not_escape_of_harmless harmless) separator fresh member inside

end Harmless

/-! ## Commands of a program -/

/-- A name that both the shell and `RunCmdSetup` take as it is. -/
def isProgram (program : CString) : Bool :=
  isPlainWord program && namesProgram [program] && program.all isWordChar

theorem isProgram_programsOf (protocol : Protocol) :
    (programsOf protocol).all isProgram = true := by
  cases protocol <;> decide

section Programs

variable {protocol : Protocol} {opened : List StreamId} {given : Prop} {program text rest : CString}

theorem isProgram_of_mem (member : program ∈ programsOf protocol) : isProgram program = true :=
  List.all_eq_true.mp (isProgram_programsOf protocol) program member

theorem programOf_shape (known : isProgram program = true) :
    programOf (program ++ ' ' :: rest) = program := by
  simp only [isProgram, Bool.and_eq_true] at known
  rw [programOf, getToken_word_blank rest (List.all_eq_true.mp known.2)]

theorem isCommandOf_shape {programs : List CString} (member : program ∈ programs)
    (known : isProgram program = true) (arguments : Arguments (withoutPatterns rest)) :
    isCommandOf programs (program ++ ' ' :: rest) = true := by
  simp only [isProgram, Bool.and_eq_true] at known
  obtain ⟨added, read⟩ := simpleCommands_arguments known.1.1 known.1.2 arguments
  have same : withoutPatterns (program ++ ' ' :: rest) = program ++ ' ' :: withoutPatterns rest := by
    have noPattern : ∀ c ∈ program, (if c = '?' then 'x' else c) = c := by
      intro c inside
      rw [if_neg]
      rintro rfl
      exact absurd (((isPlainWord_iff _).mp known.1.1).2.1 _ inside) (by decide)
    simp [withoutPatterns, List.map_congr_left noPattern]
  simp [isCommandOf, bareArgv, same, read, member]

theorem shape_of_hasPrefix (starts : hasPrefix (program ++ [' ']) text = true) :
    ∃ rest, text = program ++ ' ' :: rest := by
  obtain ⟨rest, rfl⟩ := (hasPrefix_iff _ _).mp starts
  exact ⟨rest, by simp⟩

theorem arguments_of_text (shape : text = program ++ ' ' :: rest) (harmless : harmless text = true) :
    Arguments (withoutPatterns rest) := by
  refine arguments_of_harmless (harmless_of_chars harmless fun c inside => ?_)
  simp [shape, inside]

theorem runCommand_monitored (shape : text = program ++ ' ' :: rest)
    (member : program ∈ programsOf protocol)
    (arguments : given → Arguments (withoutPatterns rest)) :
    Monitored protocol opened given (runCommand text cmdAsRoot) (fun _ => opened) fun _ => True := by
  have known := isProgram_of_mem member
  have asked : Monitored protocol opened given (ask (.runCommand text cmdAsRoot)) (fun _ => opened)
      fun _ => True := by
    refine Monitored.ask ?_ (fun isGiven => ?_) (streamStep_use rfl rfl rfl) fun _ _ _ => trivial
    · simp [ownProgram, shape, programOf_shape known, member]
    · rw [oneCommand, shape]
      exact isCommandOf_shape member known (arguments isGiven)
  refine asked.bind fun status => ?_
  cases status with
  | some status => exact .pure rfl fun _ => trivial
  | none => exact .exit

theorem runCommand_harmless (program : String)
    (starts : hasPrefix (program.toList ++ [' ']) text = true)
    (member : program.toList ∈ programsOf protocol) (harmless : given → harmless text = true) :
    Monitored protocol opened given (runCommand text cmdAsRoot) (fun _ => opened) fun _ => True := by
  obtain ⟨rest, shape⟩ := shape_of_hasPrefix starts
  exact runCommand_monitored shape member fun isGiven => arguments_of_text shape (harmless isGiven)

theorem command_harmless (program : String)
    (starts : hasPrefix (program.toList ++ [' ']) text = true)
    (member : program.toList ∈ programsOf protocol) (harmless : given → harmless text = true) :
    Keeps protocol opened given (command text) :=
  Monitored.bind (runCommand_harmless program starts member harmless) fun _ =>
    .pure rfl fun _ => trivial

def IsCommandText (program text : CString) : Prop :=
  ∃ rest, text = program ++ ' ' :: rest ∧ Arguments (withoutPatterns rest)

theorem IsCommandText.start (starts : hasPrefix (program ++ [' ']) text = true)
    (harmless : harmless text = true) : IsCommandText program text := by
  obtain ⟨rest, shape⟩ := shape_of_hasPrefix starts
  exact ⟨rest, shape, arguments_of_text shape harmless⟩

theorem IsCommandText.append {more : CString} (isCommand : IsCommandText program text)
    (arguments : Arguments (withoutPatterns more)) : IsCommandText program (text ++ more) := by
  obtain ⟨rest, rfl, before⟩ := isCommand
  refine ⟨rest ++ more, by simp, ?_⟩
  rw [withoutPatterns, List.map_append]
  exact before.append arguments

theorem runCommandOpen_monitored {stream : StreamId} {flags : FlagWord} (program : String)
    (starts : hasPrefix (program.toList ++ [' ']) text = true)
    (member : program.toList ∈ programsOf protocol)
    (isLaunch : launched text = some (stream, flags)) (closed : isOpen opened stream = false)
    (isCommand : given → IsCommandText program.toList text) :
    Monitored protocol opened given (runCommandOpen text flags)
      (fun started => if started then stream :: opened else opened) fun _ => True := by
  have known := isProgram_of_mem member
  have asked : Monitored protocol opened given (ask (.runCommandOpen text flags))
      (fun answer => if Option.getD answer false then stream :: opened else opened)
      fun _ => True := by
    refine Monitored.ask ?_ (fun isGiven => ?_) (fun answer => ?_) fun _ _ _ => trivial
    · obtain ⟨rest, shape⟩ := shape_of_hasPrefix starts
      have isKnown : programOf text ∈ programsOf protocol := by rwa [shape, programOf_shape known]
      simp [ownProgram, isLaunch, isKnown]
    · obtain ⟨rest, shape, arguments⟩ := isCommand isGiven
      rw [oneCommand, shape]
      exact isCommandOf_shape member known arguments
    · exact streamStep_open (by simp [openedStream, isLaunch]) rfl rfl closed answer
  refine asked.bind fun answer => ?_
  cases answer with
  | some started => exact .pure rfl fun _ => trivial
  | none => exact .exit

end Programs

section Calls

variable {protocol : Protocol} {opened : List StreamId} {given : Prop} {stream : StreamId}

theorem ask_monitored (call : Call) {good : Answer call → Prop} (own : ownProgram protocol call = true)
    (one : oneCommand protocol call = true) (noOpening : openedStream call = none)
    (noClosing : closedStream call = none)
    (areOpen : (usedStreams call).all (isOpen opened) = true)
    (learned : ∀ answer, given → tameAnswer ⟨call, answer⟩ = true → good answer) :
    Monitored protocol opened given (ask call) (fun _ => opened) good :=
  Monitored.ask own (fun _ => one) (streamStep_use noOpening noClosing areOpen) learned

theorem all_singleton (isOpened : isOpen opened stream = true) :
    [stream].all (isOpen opened) = true := by simp [isOpened]

theorem streamOpen_monitored {url config : CString} (closed : isOpen opened stream = false)
    (own : ownProgram protocol (.streamOpen stream url config) = true)
    (one : given → oneCommand protocol (.streamOpen stream url config) = true) :
    Monitored protocol opened given (streamOpen stream url config)
      (fun success => if success then stream :: opened else opened) fun _ => True :=
  Monitored.ask own one (streamStep_open rfl rfl rfl closed) fun _ _ _ => trivial

theorem fileOpen_monitored {path : CString} (url config : CString)
    (closed : isOpen opened (.file path) = false) :
    Monitored protocol opened given (streamOpen (.file path) url config)
      (fun success => if success then .file path :: opened else opened) fun _ => True :=
  streamOpen_monitored closed rfl fun _ => rfl

theorem when_opened {process : Driver Unit} (success : Bool)
    (body : Monitored protocol (stream :: opened) given process (fun _ => opened) fun _ => True) :
    Monitored protocol (if success then stream :: opened else opened) given
      (Process.when success process) (fun _ => opened) fun _ => True := by
  cases success with
  | true => exact body
  | false => exact .pure rfl fun _ => trivial

theorem streamClose_monitored :
    Monitored protocol (stream :: opened) given (streamClose stream) (fun _ => opened) fun _ => True :=
  Monitored.ask rfl (fun _ => rfl) streamStep_close fun _ _ _ => trivial

theorem streamReadLine_monitored (isOpened : isOpen opened stream = true) :
    Monitored protocol opened given (streamReadLine stream) (fun _ => opened) fun line =>
      stream = .openvpn → harmless (stripTrailingWhitespace (copyStr line)) = true := by
  refine ask_monitored (.streamReadLine stream) rfl rfl rfl rfl (all_singleton isOpened) ?_
  rintro answer _ tame rfl
  exact tame

theorem streamReadBytes_keeps (isOpened : isOpen opened stream = true) :
    Keeps protocol opened given (streamReadBytes stream) :=
  ask_monitored (.streamReadBytes stream) rfl rfl rfl rfl (all_singleton isOpened) fun _ _ _ => trivial

theorem streamReadToMultiTerminator_keeps (isOpened : isOpen opened stream = true) :
    Keeps protocol opened given (streamReadToMultiTerminator stream) :=
  ask_monitored (.streamReadToMultiTerminator stream) rfl rfl rfl rfl (all_singleton isOpened)
    fun _ _ _ => trivial

theorem streamWriteLine_keeps (isOpened : isOpen opened stream = true) (text : CString) :
    Keeps protocol opened given (streamWriteLine stream text) :=
  ask_monitored (.streamWriteLine stream text) rfl rfl rfl rfl (all_singleton isOpened)
    fun _ _ _ => trivial

theorem streamWriteBytes_keeps (isOpened : isOpen opened stream = true) (bytes : List UInt8) :
    Keeps protocol opened given (streamWriteBytes stream bytes) :=
  ask_monitored (.streamWriteBytes stream bytes) rfl rfl rfl rfl (all_singleton isOpened)
    fun _ _ _ => trivial

theorem exiting_keeps : Keeps protocol opened given exiting :=
  ask_monitored .flagExit rfl rfl rfl rfl rfl fun _ _ _ => trivial

theorem access_keeps (path : CString) (mode : AccessMode) :
    Keeps protocol opened given (access path mode) :=
  ask_monitored (.access path mode) rfl rfl rfl rfl rfl fun _ _ _ => trivial

theorem readFile_monitored (path : CString) :
    Monitored protocol opened given (readFile path) (fun _ => opened) fun text =>
      path = procNetRoute ∨ harmless (stripTrailingWhitespace text) = true := by
  refine ask_monitored (.readFile path) rfl rfl rfl rfl rfl fun text _ tame => ?_
  simpa [tameAnswer] using tame

theorem devices_monitored :
    Monitored protocol opened given devices (fun _ => opened) fun table =>
      ∀ dev ∈ netLoadDevices table, harmless dev.name = true :=
  ask_monitored .netLoadDevices rfl rfl rfl rfl rfl fun _ _ tame => List.all_eq_true.mp tame

theorem drainLines_keeps (isOpened : isOpen opened stream = true) (fuel : Nat) :
    Keeps protocol opened given (drainLines fuel stream) := by
  refine Monitored.loop (fun _ => True) _ (fun _ => ?_) fuel fun _ => trivial
  refine Monitored.bind (streamReadLine_monitored isOpened) fun line => ?_
  cases line with
  | none => exact .pure rfl fun _ => trivial
  | some line =>
      refine Monitored.bind exiting_keeps fun _ => .ite (fun _ => ?_) fun _ => ?_
      · exact .pure rfl fun _ => trivial
      · exact .pure rfl fun _ => trivial

end Calls

end VpnMgr.Client
