import VpnMgr.Client.Ssh
import VpnMgr.Command.ReadLoop

/-!
# Commands on the SSH server

In which form `SSHVpnRunCommand` sends a command, and what it reports.
-/

namespace VpnMgr.Client

open Machine Text CString LibUseful Command Process

/-- What stands before a command. -/
def wrapStart : Wrap → CString
  | .bare => []
  | .viaSudo => "sudo -S /bin/sh -c 'echo vpn-mgr-cmd-run;".toList
  | .viaSu => "su  -c 'echo vpn-mgr-cmd-run; ".toList

/-- What stands behind it. -/
def wrapEnd : Wrap → CString
  | .bare => " ".toList
  | .viaSudo => " '; echo vpn-mgr-sudo-done".toList
  | .viaSu => " '; echo vpn-mgr-su-done".toList

def remoteForm (cmd : CString) (wrap : Wrap) : CString := wrapStart wrap ++ cmd ++ wrapEnd wrap

/-- The form in which a call sends the command. -/
def formSent (cmd : CString) : Sigma Answer → Option Wrap
  | ⟨.streamWriteLine .ssh text, _⟩ =>
      [Wrap.bare, .viaSudo, .viaSu].find? fun wrap => text = remoteForm cmd wrap
  | _ => none

def formsSent (cmd : CString) (made : History Answer) : List Wrap := made.filterMap (formSent cmd)

/-- Each run of `RunCommandReadLoop`: the form in which the command was sent
for it, if it was, and the result. -/
def reports (cmd : CString) : Option Wrap → History Answer → List (Option Wrap × RunCmd)
  | _, [] => []
  | sent, ⟨.runCommandReadLoop, result⟩ :: rest => (sent, result) :: reports cmd none rest
  | sent, interaction :: rest => reports cmd ((formSent cmd interaction).or sent) rest

/-- A transcript of a remote `sudo` or `su`, for `RunCommandReadLoop`. -/
structure Transcript where
  session : Session
  typed : List CPtr
  chunks : List Chunk

def Transcript.result (transcript : Transcript) : RunCmd :=
  (runCommandReadLoop "Remote".toList "su/sudo".toList transcript.chunks
    (.start transcript.session transcript.typed)).result

def Transcript.Announces (transcript : Transcript) : Prop :=
  StartReported (linesOf "Remote".toList "su/sudo".toList transcript.session transcript.typed
    transcript.chunks)

/-- The method is requested and enabled; without a method, none is. -/
def Permitted (settings : Settings) (flags : FlagWord) : Wrap → Bool
  | .viaSudo => flags.has cmdSudo && settings.globalFlags.has flagRemoteSudo
  | .viaSu => flags.has cmdSu && settings.globalFlags.has flagRemoteSu
  | .bare => !(flags.has cmdSudo && settings.globalFlags.has flagRemoteSudo) &&
      !(flags.has cmdSu && settings.globalFlags.has flagRemoteSu)

/-- The policy for a run with these transcripts. -/
structure RemotePolicy (settings : Settings) (cmd : CString) (flags : FlagWord)
    (transcripts : Nat → Transcript) (result : Bool) (made : History Answer) : Prop where
  forms : ∀ wrap ∈ formsSent cmd made, Permitted settings flags wrap = true
  started : result = true → Permitted settings flags .bare = false →
    ∃ index wrap status, (reports cmd none made)[index]? = some (some wrap, status) ∧
      wrap ≠ .bare ∧ Permitted settings flags wrap = true ∧ (transcripts index).Announces

section Forms

variable {cmd : CString}

theorem remoteForm_last (wrap : Wrap) : (remoteForm cmd wrap).getLast? ≠ some '\n' := by
  have last : ∃ c, (wrapEnd wrap).getLast? = some c ∧ c ≠ '\n' := by
    cases wrap with
    | bare => exact ⟨' ', by decide, by decide⟩
    | viaSudo => exact ⟨'e', by decide, by decide⟩
    | viaSu => exact ⟨'e', by decide, by decide⟩
  obtain ⟨c, isLast, other⟩ := last
  rw [remoteForm, List.getLast?_append, isLast, Option.some_or]
  exact fun same => other (Option.some.inj same)

theorem wrapEnd_ne_nil (wrap : Wrap) : wrapEnd wrap ≠ [] := by
  cases wrap <;> decide

theorem remoteForm_ne_nil (wrap : Wrap) : remoteForm cmd wrap ≠ [] :=
  fun nothing => wrapEnd_ne_nil wrap (List.append_eq_nil_iff.mp nothing).2

theorem wrap_lengths_differ {first second : Wrap}
    (same : (wrapStart first).length + (wrapEnd first).length =
      (wrapStart second).length + (wrapEnd second).length) : first = second := by
  revert same
  cases first <;> cases second <;> decide

theorem remoteForm_injective {first second : Wrap}
    (same : remoteForm cmd first = remoteForm cmd second) : first = second := by
  have lengths := congrArg List.length same
  simp only [remoteForm, List.length_append] at lengths
  exact wrap_lengths_differ (by omega)

theorem formSent_remoteForm (wrap : Wrap) :
    formSent cmd ⟨.streamWriteLine .ssh (remoteForm cmd wrap), ()⟩ = some wrap := by
  have same : ∀ other, decide (remoteForm cmd wrap = remoteForm cmd other) = decide (wrap = other) :=
    fun other => decide_eq_decide.mpr ⟨remoteForm_injective, congrArg _⟩
  simp only [formSent, same]
  cases wrap <;> rfl

theorem formSent_other {text : CString} (other : ∀ wrap, text ≠ remoteForm cmd wrap) :
    formSent cmd ⟨.streamWriteLine .ssh text, ()⟩ = none := by
  simp [formSent, other]

theorem wrap_pieces :
    "su ".toList ++ " -c 'echo vpn-mgr-cmd-run; ".toList = wrapStart .viaSu ∧
      " ".toList ++ "'; echo vpn-mgr-sudo-done".toList = wrapEnd .viaSudo ∧
      " ".toList ++ "'; echo vpn-mgr-su-done".toList = wrapEnd .viaSu := by
  decide

theorem wrapOf_ssh (flags : FlagWord) : wrapOf (flags.raise cmdSsh) = wrapOf flags := by
  have noSudo : cmdSsh.has cmdSudo = false := by decide
  have noSu : cmdSsh.has cmdSu = false := by decide
  simp [wrapOf, noSudo, noSu]

theorem has_ssh (flags : FlagWord) : (flags.raise cmdSsh).has cmdSsh = true := by
  have self : cmdSsh.has cmdSsh = true := by decide
  simp [self]

theorem mCopyStr_bare (blank : CString) :
    mCopyStr [some [], some cmd, some blank, some []] = [] ++ cmd ++ blank := by
  simp [mCopyStr]

theorem mCopyStr_viaSudo (before blank after : CString) :
    mCopyStr [some [], some before, some cmd, some blank, some [], some after] =
      before ++ cmd ++ (blank ++ after) := by
  simp [mCopyStr]

theorem mCopyStr_viaSu (program before blank after : CString) :
    mCopyStr [some [], some program, some [], some before, some cmd, some blank, some [],
      some after] = (program ++ before) ++ cmd ++ (blank ++ after) := by
  simp [mCopyStr]

/-- The line that is sent for a command. -/
theorem remoteLine (settings : Settings) (flags : FlagWord) :
    runCmdFormat settings.getCommandPath (some cmd) (some []) (flags.raise cmdSsh) =
      if wrapFound settings.getCommandPath (wrapOf flags) then remoteForm cmd (wrapOf flags)
      else [] := by
  obtain ⟨startSu, endSudo, endSu⟩ := wrap_pieces
  unfold runCmdFormat
  rw [wrapOf_ssh, has_ssh, if_pos rfl]
  cases wrapOf flags with
  | bare => exact mCopyStr_bare _
  | viaSudo =>
      unfold wrapFound remoteForm
      dsimp only
      rw [mCopyStr_viaSudo, endSudo]
      rfl
  | viaSu =>
      unfold wrapFound remoteForm
      dsimp only
      rw [mCopyStr_viaSu, startSu, endSu]

end Forms

/-! ## The parts of a run -/

/-- Sends the command in no form, and runs no `RunCommandReadLoop`. -/
structure Quiet (cmd : CString) (made : History Answer) : Prop where
  forms : formsSent cmd made = []
  skips : ∀ sent rest, reports cmd sent (made ++ rest) = reports cmd sent rest

section Quiet

variable {cmd : CString} {first second made : History Answer}

theorem formsSent_append : formsSent cmd (first ++ second) = formsSent cmd first ++ formsSent cmd second :=
  List.filterMap_append ..

theorem reports_cons {interaction : Sigma Answer} (notRead : interaction.1 ≠ .runCommandReadLoop)
    (sent : Option Wrap) (rest : History Answer) :
    reports cmd sent (interaction :: rest) =
      reports cmd ((formSent cmd interaction).or sent) rest := by
  rcases interaction with ⟨call, answer⟩
  cases call <;> first | rfl | exact absurd rfl notRead

theorem composable_quiet (cmd : CString) : Composable (Quiet cmd) fun _ => True where
  nil := ⟨rfl, fun _ _ => rfl⟩
  append _ _ quietFirst quietSecond :=
    ⟨by rw [formsSent_append, quietFirst.forms, quietSecond.forms, List.nil_append],
      fun sent rest => by rw [List.append_assoc, quietFirst.skips, quietSecond.skips]⟩
  exits _ _ _ _ := trivial

theorem ask_quiet {call : Call} (notRead : call ≠ .runCommandReadLoop)
    (noForm : ∀ answer, formSent cmd ⟨call, answer⟩ = none) :
    (ask call).Makes (Quiet cmd) fun _ => True := by
  refine Makes.ask fun answer => ⟨by simp [formsSent, noForm], fun sent rest => ?_⟩
  rw [List.singleton_append, reports_cons notRead, noForm, Option.none_or]

theorem formSent_newline {text : CString} (newline : text.getLast? = some '\n')
    (answer : Answer (.streamWriteLine .ssh text)) :
    formSent cmd ⟨.streamWriteLine .ssh text, answer⟩ = none :=
  formSent_other fun wrap same => remoteForm_last wrap (same ▸ newline)

theorem syncLine_last (start key : CString) :
    (mCopyStr [some start, some key, some "\n".toList]).getLast? = some '\n' := by
  have last : "\n".toList.getLast? = some '\n' := by decide
  rw [mCopyStr_some, mCopyStr_some, mCopyStr_some, mCopyStr_nil, List.append_nil,
    List.getLast?_append, List.getLast?_append, last]
  rfl

theorem sshVpnSendSync_quiet : sshVpnSendSync.Makes (Quiet cmd) fun _ => True := by
  refine (ask_quiet (by simp) fun _ => rfl).bind (composable_quiet cmd) fun key => ?_
  exact (ask_quiet (by simp) (formSent_newline (syncLine_last _ key))).bind (composable_quiet cmd)
    fun _ => .pure (composable_quiet cmd) key

theorem sshVpnSync_quiet (fuel : Nat) : (sshVpnSync fuel).Makes (Quiet cmd) fun _ => True := by
  have composable := composable_quiet cmd
  refine sshVpnSendSync_quiet.bind composable fun key => ?_
  refine Makes.bind composable (.loop composable (fun key => ?_) fuel key) fun _ => ?_
  · refine (ask_quiet (by simp) fun _ => rfl).bind composable fun text => ?_
    rcases text with _ | _ | ⟨head, tail⟩
    · exact .pure composable _
    · exact sshVpnSendSync_quiet.bind composable fun _ => .pure composable _
    · refine .ite (.pure composable _) ?_
      exact (ask_quiet (by simp) fun _ => rfl).bind composable fun _ =>
        .ite (.pure composable _) (.pure composable _)
  · exact (ask_quiet (by simp) fun _ => rfl).bind composable fun _ => .pure composable ()

end Quiet

structure Tried (settings : Settings) (cmd : CString) (wrap : Wrap) (status : RunCmd)
    (made : History Answer) : Prop where
  forms : formsSent cmd made = if wrapFound settings.getCommandPath wrap then [wrap] else []
  bare : wrap = .bare → status = .okay ∧ ∃ sent, ∀ rest,
    reports cmd none (made ++ rest) = reports cmd sent rest
  wrapped : wrap ≠ .bare → ∀ rest, reports cmd none (made ++ rest) =
    (if wrapFound settings.getCommandPath wrap then some wrap else none, status) ::
      reports cmd none rest

section Tries

variable {settings : Settings} {fuel : Nat} {cmd : CString} {flags : FlagWord} {wrap : Wrap}
  {status : RunCmd} {made quiet : History Answer}

theorem Tried.after (tried : Tried settings cmd wrap status made) (silent : Quiet cmd quiet) :
    Tried settings cmd wrap status (quiet ++ made) where
  forms := by rw [formsSent_append, silent.forms, tried.forms, List.nil_append]
  bare isBare := by
    obtain ⟨okay, sent, same⟩ := tried.bare isBare
    exact ⟨okay, sent, fun rest => by rw [List.append_assoc, silent.skips, same]⟩
  wrapped isWrapped rest := by rw [List.append_assoc, silent.skips, tried.wrapped isWrapped]

theorem Tried.before (tried : Tried settings cmd wrap status made) (silent : Quiet cmd quiet) :
    Tried settings cmd wrap status (made ++ quiet) where
  forms := by rw [formsSent_append, silent.forms, tried.forms, List.append_nil]
  bare isBare := by
    obtain ⟨okay, sent, same⟩ := tried.bare isBare
    exact ⟨okay, sent, fun rest => by rw [List.append_assoc, same, silent.skips]⟩
  wrapped isWrapped rest := by rw [List.append_assoc, tried.wrapped isWrapped, silent.skips]

theorem formSent_line (settings : Settings) (flags : FlagWord) (answer : Unit) :
    formSent cmd ⟨.streamWriteLine .ssh
        (runCmdFormat settings.getCommandPath (some cmd) (some []) (flags.raise cmdSsh)), answer⟩ =
      if wrapFound settings.getCommandPath (wrapOf flags) then some (wrapOf flags) else none := by
  by_cases found : wrapFound settings.getCommandPath (wrapOf flags) = true
  · rw [remoteLine, if_pos found, if_pos found]
    exact formSent_remoteForm _
  · rw [remoteLine, if_neg found, if_neg found]
    exact formSent_other fun wrap same => remoteForm_ne_nil wrap same.symm

theorem reports_lines {line newline : Sigma Answer}
    (notRead : line.1 ≠ .runCommandReadLoop ∧ newline.1 ≠ .runCommandReadLoop)
    (noForm : formSent cmd newline = none) (rest : History Answer) :
    reports cmd none (line :: newline :: rest) = reports cmd (formSent cmd line) rest := by
  rw [reports_cons notRead.1, reports_cons notRead.2, noForm, Option.none_or, Option.or_none]

theorem formsSent_lines {line newline : Sigma Answer} (noForm : formSent cmd newline = none)
    (rest : History Answer) :
    formsSent cmd (line :: newline :: rest) = (formSent cmd line).toList ++ formsSent cmd rest := by
  rw [formsSent, List.filterMap_cons, List.filterMap_cons, noForm]
  cases formSent cmd line <;> rfl

theorem sshVpnSendCommand_tried (valid : strValid (some cmd) = true) :
    (sshVpnSendCommand settings cmd flags).Yields (Tried settings cmd (wrapOf flags)) := by
  unfold sshVpnSendCommand
  rw [if_pos valid]
  refine (Ends.asked _).bind fun sentLine first isFirst => ?_
  refine (Ends.asked _).bind fun sentNewline second isSecond => ?_
  obtain rfl := isFirst
  obtain rfl := isSecond
  have line := @formSent_line cmd settings flags sentLine
  have newline := @formSent_newline cmd "\n".toList (by decide) sentNewline
  have forms : ∀ rest, formsSent cmd rest = [] → formsSent cmd (⟨.streamWriteLine .ssh
      (runCmdFormat settings.getCommandPath (some cmd) (some []) (flags.raise cmdSsh)), sentLine⟩ ::
      ⟨.streamWriteLine .ssh "\n".toList, sentNewline⟩ :: rest) =
        if wrapFound settings.getCommandPath (wrapOf flags) then [wrapOf flags] else [] := by
    intro rest nothing
    rw [formsSent_lines newline, nothing, line, List.append_nil]
    split <;> rfl
  have reported := fun rest =>
    (reports_lines ⟨by simp, by simp⟩ newline rest).trans (congrArg (reports cmd · rest) line)
  refine Ends.ite (fun wrapped => ?_) fun unwrapped => ?_
  · refine Yields.mono (Ends.asked _) fun status last isLast => ?_
    obtain rfl := isLast
    refine ⟨forms _ rfl, fun isBare => ?_, fun _ rest => reported _⟩
    rw [wrapOf_bare_iff, ← Bool.or_eq_false_iff, wrapped] at isBare
    cases isBare
  · have bare := (wrapOf_bare_iff flags).mpr (Bool.or_eq_false_iff.mp (Bool.eq_false_iff.mpr unwrapped))
    exact Ends.pure ⟨forms _ rfl, fun _ => ⟨rfl, _, reported⟩, fun isWrapped => absurd bare isWrapped⟩

theorem sshVpnRunCommandTry_tried (valid : strValid (some cmd) = true) :
    (sshVpnRunCommandTry settings fuel cmd flags).Yields fun result made =>
      ∃ status, result = decide (status = .okay) ∧ Tried settings cmd (wrapOf flags) status made := by
  refine Ends.bind (@sshVpnSync_quiet cmd fuel).yields fun _ before silentBefore => ?_
  refine (sshVpnSendCommand_tried valid).bind fun status made tried => ?_
  refine Ends.bind (Makes.when (composable_quiet cmd) (@sshVpnSync_quiet cmd fuel)).yields
    fun _ after silentAfter => Ends.pure ⟨status, rfl, ?_⟩
  rw [List.append_nil]
  exact (tried.before silentAfter).after silentBefore

theorem sshVpnRunCommandTry_empty (empty : strValid (some cmd) = false) :
    (sshVpnRunCommandTry settings fuel cmd flags).Yields fun result made =>
      result = false ∧ Quiet cmd made := by
  have composable := composable_quiet cmd
  refine Ends.bind (@sshVpnSync_quiet cmd fuel).yields fun _ before silentBefore => ?_
  have nothing : sshVpnSendCommand settings cmd flags = pure .begin :=
    if_neg (by simp [empty])
  rw [nothing]
  refine Ends.bind (Ends.pure ⟨rfl, rfl⟩ : (pure RunCmd.begin : Driver RunCmd).Yields fun status made =>
    status = .begin ∧ made = []) fun status none isBegin => ?_
  obtain ⟨rfl, rfl⟩ := isBegin
  refine Ends.bind (Makes.when composable (@sshVpnSync_quiet cmd fuel)).yields
    fun _ after silentAfter => Ends.pure ⟨rfl, ?_⟩
  rw [List.append_nil, List.nil_append]
  exact composable.append _ _ silentBefore silentAfter

/-- The form of the first try. -/
def firstForm (settings : Settings) (flags : FlagWord) : Wrap :=
  if Permitted settings flags .viaSudo then .viaSudo
  else if Permitted settings flags .viaSu then .viaSu
  else .bare

/-- The form of the second try, after sudo is knocked out. -/
def secondForm (settings : Settings) (flags : FlagWord) : Wrap :=
  if Permitted settings flags .viaSu then .viaSu else .bare

inductive Course (settings : Settings) (cmd : CString) (flags : FlagWord) :
    Bool → History Answer → Prop
  | first {made : History Answer} (tried : Tried settings cmd (firstForm settings flags) .okay made) :
      Course settings cmd flags true made
  | second {failed status : RunCmd} {before made : History Answer} (notOkay : failed ≠ .okay)
      (triedFirst : Tried settings cmd (firstForm settings flags) failed before)
      (tried : Tried settings cmd (secondForm settings flags) status made) :
      Course settings cmd flags (decide (status = .okay)) (before ++ made)

/-- The forms of a flag word into which the two methods are raised. -/
theorem wrapOf_raised (flags : FlagWord) (viaSudo viaSu : Bool) :
    let bare := flags.drop (cmdSu ||| cmdSudo)
    let withSu := if viaSu then bare.raise cmdSu else bare
    let cmdFlags := if viaSudo then withSu.raise cmdSudo else withSu
    wrapOf cmdFlags = (if viaSudo then .viaSudo else if viaSu then .viaSu else .bare) ∧
      wrapOf (cmdFlags.drop cmdSudo) = if viaSu then .viaSu else .bare := by
  have noSu : (flags.drop (cmdSu ||| cmdSudo)).has cmdSu = false := by
    rw [FlagWord.has_drop flags (.inl (by decide)),
      show FlagWord.has (cmdSu ||| cmdSudo) cmdSu = true by decide]
    exact Bool.and_false _
  have noSudo : (flags.drop (cmdSu ||| cmdSudo)).has cmdSudo = false := by
    rw [FlagWord.has_drop flags (.inl (by decide)),
      show FlagWord.has (cmdSu ||| cmdSudo) cmdSudo = true by decide]
    exact Bool.and_false _
  have bits : cmdSu.has cmdSu = true ∧ cmdSu.has cmdSudo = false ∧ cmdSudo.has cmdSudo = true ∧
      cmdSudo.has cmdSu = false := by decide
  obtain ⟨su, suSudo, sudoSelf, sudoSu⟩ := bits
  have dropSudo : ∀ word : FlagWord, (word.drop cmdSudo).has cmdSu = word.has cmdSu :=
    fun word => FlagWord.has_drop_of_disjoint word sudoSu
  cases viaSudo <;> cases viaSu <;>
    simp [wrapOf, dropSudo, noSu, noSudo, su, suSudo, sudoSelf, sudoSu]

theorem sshVpnRunCommand_course (valid : strValid (some cmd) = true) :
    (sshVpnRunCommand settings fuel cmd flags).Yields (Course settings cmd flags) := by
  obtain ⟨isFirst, isSecond⟩ := wrapOf_raised flags
    (flags.has cmdSudo && settings.globalFlags.has flagRemoteSudo)
    (flags.has cmdSu && settings.globalFlags.has flagRemoteSu)
  refine (sshVpnRunCommandTry_tried valid).bind fun result made tried => ?_
  obtain ⟨status, rfl, tried⟩ := tried
  rw [isFirst] at tried
  refine Ends.ite (fun okay => Ends.pure ?_) fun notOkay => ?_
  · obtain rfl := of_decide_eq_true okay
    rw [List.append_nil]
    exact .first tried
  · refine (sshVpnRunCommandTry_tried valid).mono fun result more again => ?_
    obtain ⟨later, rfl, again⟩ := again
    rw [isSecond] at again
    exact .second (by simpa using notOkay) tried again

end Tries

/-! ## The policy -/

/-- A transcript that is taken for a success follows a line that was sent, and
announces the command. -/
def Honest (settings : Settings) (wrap : Wrap) (transcript : Transcript) : Prop :=
  transcript.result = .okay → wrapFound settings.getCommandPath wrap = true ∧ transcript.Announces

/-- What the policy takes, for a command that some method is to run: the first
transcript is not mistaken for a success, and where it is a failure `su` is left
to try, with a transcript that is not mistaken either. -/
def Serves (settings : Settings) (flags : FlagWord) (transcripts : Nat → Transcript) : Prop :=
  Honest settings (firstForm settings flags) (transcripts 0) ∧
    ((transcripts 0).result ≠ .okay →
      Permitted settings flags .viaSu = true ∧ Honest settings .viaSu (transcripts 1))

theorem Transcript.okay_of_announces {transcript : Transcript} (announces : transcript.Announces) :
    transcript.result = .okay := by
  have last := (startReported_iff fun chunk => linesRead_last).mp announces
  rw [Transcript.result, runCommandReadLoop_result _ _ _ (.inl rfl)]
  exact verdict_started last

section Policy

variable {settings : Settings} {cmd : CString} {flags : FlagWord} {result : Bool}
  {transcripts : Nat → Transcript} {made : History Answer}

theorem permitted_bare : Permitted settings flags .bare =
    (!Permitted settings flags .viaSudo && !Permitted settings flags .viaSu) := rfl

theorem permitted_firstForm : Permitted settings flags (firstForm settings flags) = true := by
  unfold firstForm
  split
  case isTrue viaSudo => exact viaSudo
  case isFalse noSudo =>
    split
    case isTrue viaSu => exact viaSu
    case isFalse noSu =>
      rw [permitted_bare, Bool.eq_false_iff.mpr noSudo, Bool.eq_false_iff.mpr noSu]
      rfl

theorem firstForm_ne_bare (wanted : Permitted settings flags .bare = false) :
    firstForm settings flags ≠ .bare := by
  intro isBare
  rw [← isBare, permitted_firstForm] at wanted
  cases wanted

theorem tried_permitted {wrap : Wrap} {status : RunCmd} (tried : Tried settings cmd wrap status made)
    (permitted : Permitted settings flags wrap = true) :
    ∀ sent ∈ formsSent cmd made, Permitted settings flags sent = true := by
  intro sent member
  rw [tried.forms] at member
  split at member
  · rw [List.mem_singleton.mp member]
    exact permitted
  · cases member

theorem tried_reports {wrap : Wrap} {status : RunCmd} (tried : Tried settings cmd wrap status made)
    (notBare : wrap ≠ .bare) :
    reports cmd none made =
      [(if wrapFound settings.getCommandPath wrap then some wrap else none, status)] := by
  have whole := tried.wrapped notBare []
  rwa [List.append_nil] at whole

/-- After the failure of the first try `su` has to be left, and its transcript honest. -/
theorem policy_second_iff {failed status : RunCmd} {before : History Answer}
    (wanted : Permitted settings flags .bare = false) (notOkay : failed ≠ .okay)
    (triedFirst : Tried settings cmd (firstForm settings flags) failed before)
    (tried : Tried settings cmd (secondForm settings flags) status made)
    (served : ∀ index entry, (reports cmd none (before ++ made))[index]? = some entry →
      entry.2 = (transcripts index).result) :
    RemotePolicy settings cmd flags transcripts (decide (status = .okay)) (before ++ made) ↔
      Permitted settings flags .viaSu = true ∧ Honest settings .viaSu (transcripts 1) := by
  have split := triedFirst.wrapped (firstForm_ne_bare wanted) made
  have zero : (transcripts 0).result = failed := (served 0 _ (by rw [split]; rfl)).symm
  by_cases su : Permitted settings flags .viaSu = true
  · rw [secondForm, if_pos su] at tried
    rw [tried_reports tried (by simp)] at split
    have one : (transcripts 1).result = status := (served 1 _ (by rw [split]; rfl)).symm
    refine ⟨fun policy => ⟨su, fun okay => ?_⟩, fun honest => ⟨?_, fun succeeded _ => ?_⟩⟩
    · obtain ⟨index, wrap, entry, isEntry, -, -, announces⟩ :=
        policy.started (by simpa [← one] using okay) wanted
      rw [split] at isEntry
      rcases index with _ | _ | index
      · exact absurd (zero.symm.trans (Transcript.okay_of_announces announces)) notOkay
      · refine ⟨?_, announces⟩
        by_contra missing
        simp [missing] at isEntry
      · cases isEntry
    · rw [formsSent_append]
      intro wrap member
      rcases List.mem_append.mp member with inFirst | inSecond
      · exact tried_permitted triedFirst permitted_firstForm wrap inFirst
      · exact tried_permitted tried su wrap inSecond
    · obtain ⟨found, announces⟩ := honest.2 (one.trans (of_decide_eq_true succeeded))
      exact ⟨1, .viaSu, status, by rw [split, if_pos found]; rfl, by simp, su, announces⟩
  · rw [secondForm, if_neg su] at tried
    refine iff_of_false (fun policy => ?_) fun honest => su honest.1
    have bare : Permitted settings flags .bare = true := by
      refine policy.forms .bare ?_
      rw [formsSent_append, tried.forms]
      exact List.mem_append_right _ List.mem_cons_self
    rw [wanted] at bare
    cases bare

theorem policy_first_iff (wanted : Permitted settings flags .bare = false)
    (tried : Tried settings cmd (firstForm settings flags) .okay made)
    (served : ∀ index entry, (reports cmd none made)[index]? = some entry →
      entry.2 = (transcripts index).result) :
    RemotePolicy settings cmd flags transcripts true made ↔
      Serves settings flags transcripts := by
  have report := tried_reports tried (firstForm_ne_bare wanted)
  have okay : (transcripts 0).result = .okay := (served 0 _ (by rw [report]; rfl)).symm
  constructor
  · refine fun policy => ⟨fun _ => ?_, fun failed => absurd okay failed⟩
    obtain ⟨index, wrap, entry, isEntry, -, -, announces⟩ := policy.started rfl wanted
    rw [report] at isEntry
    rcases index with _ | index
    · refine ⟨?_, announces⟩
      by_contra missing
      simp [missing] at isEntry
    · cases isEntry
  · intro serves
    obtain ⟨found, announces⟩ := serves.1 okay
    refine ⟨tried_permitted tried permitted_firstForm, fun _ _ => ?_⟩
    exact ⟨0, _, .okay, by rw [report, if_pos found]; rfl, firstForm_ne_bare wanted,
      permitted_firstForm, announces⟩

theorem policy_iff (course : Course settings cmd flags result made)
    (served : ∀ index entry, (reports cmd none made)[index]? = some entry →
      entry.2 = (transcripts index).result) :
    RemotePolicy settings cmd flags transcripts result made ↔
      (Permitted settings flags .bare = false → Serves settings flags transcripts) := by
  by_cases wanted : Permitted settings flags .bare = false
  · simp only [wanted, true_implies]
    cases course with
    | first tried => exact policy_first_iff wanted tried served
    | @second failed status before made notOkay triedFirst tried =>
        have split := triedFirst.wrapped (firstForm_ne_bare wanted) made
        have zero : (transcripts 0).result = failed := (served 0 _ (by rw [split]; rfl)).symm
        rw [policy_second_iff wanted notOkay triedFirst tried served]
        have failedZero : (transcripts 0).result ≠ .okay := zero ▸ notOkay
        exact ⟨fun second => ⟨fun okay => absurd okay failedZero, fun _ => second⟩,
          fun serves => serves.2 failedZero⟩
  · have bareOnly : firstForm settings flags = .bare := by
      rw [Bool.not_eq_false, permitted_bare, Bool.and_eq_true, Bool.not_eq_true',
        Bool.not_eq_true'] at wanted
      simp [firstForm, wanted]
    refine iff_of_true ⟨?_, fun _ isWanted => absurd isWanted wanted⟩
      fun isWanted => absurd isWanted wanted
    cases course with
    | first tried => exact tried_permitted tried permitted_firstForm
    | second notOkay triedFirst tried => exact absurd (triedFirst.bare bareOnly).1 notOkay

end Policy

/-- A run of `SSHVpnRunCommand` keeps to the policy exactly when there is no
command or no method for it, or the transcripts serve. -/
theorem sshVpnRunCommand_policy_iff (settings : Settings) (fuel : Nat) (cmd : CString)
    (flags : FlagWord) (env : Environment Answer) (result : Bool) (made : History Answer)
    (returned : sshVpnRunCommand settings fuel cmd flags env [] = some (.returned result, made))
    (transcripts : Nat → Transcript)
    (served : ∀ index entry, (reports cmd none made)[index]? = some entry →
      entry.2 = (transcripts index).result) :
    RemotePolicy settings cmd flags transcripts result made ↔
      (strValid (some cmd) = true → Permitted settings flags .bare = false →
        Serves settings flags transcripts) := by
  by_cases valid : strValid (some cmd) = true
  · simp only [valid, true_implies]
    exact policy_iff ((sshVpnRunCommand_course valid).returned returned) served
  · have quiet : (sshVpnRunCommand settings fuel cmd flags).Yields fun result made =>
        result = false ∧ Quiet cmd made := by
      refine (sshVpnRunCommandTry_empty (by simpa using valid)).bind fun result first tried => ?_
      obtain ⟨rfl, silentFirst⟩ := tried
      refine (sshVpnRunCommandTry_empty (by simpa using valid)).mono fun result second again => ?_
      exact ⟨again.1, (composable_quiet cmd).append _ _ silentFirst again.2⟩
    obtain ⟨rfl, silent⟩ := quiet.returned returned
    refine iff_of_true ⟨fun wrap member => ?_, fun failed => ?_⟩ fun isValid => absurd isValid valid
    · rw [silent.forms] at member
      cases member
    · cases failed

/-- A user who allows sudo on the server, and no su. -/
def remoteSudoSettings : Settings :=
  { plainSettings with
    globalFlags := flagRemoteSudo
    getCommandPath := fun name => some ("/usr/bin/".toList ++ name) }

def sorryHost : Environment Answer
  | _, .runCommandReadLoop => .authFail
  | history, call => obligingHost history call

def sorryTranscript : Transcript :=
  { session := ⟨flagRemoteSudo, fun _ => none⟩
    typed := []
    chunks := [{ text := "Sorry, try again.\r".toList }] }

theorem sorryTranscript_result : sorryTranscript.result = .authFail := by decide

theorem sorryHost_run :
    ∃ made, sshVpnRunCommand remoteSudoSettings 1 "id".toList (cmdSu ||| cmdSudo) sorryHost [] =
        some (.returned true, made) ∧
      formsSent "id".toList made = [.viaSudo, .bare] ∧
      reports "id".toList none made = [(some .viaSudo, .authFail)] := by
  have run : (sshVpnRunCommand remoteSudoSettings 1 "id".toList (cmdSu ||| cmdSudo) sorryHost
      []).map (fun ended => (ended.1, formsSent "id".toList ended.2,
        reports "id".toList none ended.2)) =
      some (.returned true, [.viaSudo, .bare], [(some .viaSudo, .authFail)]) := by decide +kernel
  obtain ⟨⟨ending, made⟩, ended, read⟩ := Option.map_eq_some_iff.mp run
  obtain ⟨rfl, rest⟩ := Prod.mk.inj read
  exact ⟨made, ended, Prod.mk.inj rest⟩

theorem sorryTranscript_served {made : History Answer}
    (report : reports "id".toList none made = [(some .viaSudo, .authFail)]) :
    ∀ (index : Nat) entry, (reports "id".toList none made)[index]? = some entry →
      entry.2 = sorryTranscript.result := by
  intro index entry isEntry
  rw [report] at isEntry
  rcases index with _ | index
  · obtain rfl := Option.some.inj isEntry
    exact sorryTranscript_result.symm
  · cases isEntry

/-- A server whose sudo asks for the password and is content with it. -/
def sudoTranscript : Transcript :=
  { session := ⟨flagRemoteSudo, fun _ => none⟩
    typed := [some "pw".toList]
    chunks := [{ text := "[sudo] password for bob:".toList }, { text := " \r".toList },
      { text := "vpn-mgr-cmd-run\r".toList }] }

theorem obligingHost_run :
    ∃ made, sshVpnRunCommand remoteSudoSettings 1 "id".toList (cmdSu ||| cmdSudo) obligingHost [] =
        some (.returned true, made) ∧
      reports "id".toList none made = [(some .viaSudo, .okay)] := by
  have run : (sshVpnRunCommand remoteSudoSettings 1 "id".toList (cmdSu ||| cmdSudo) obligingHost
      []).map (fun ended => (ended.1, reports "id".toList none ended.2)) =
      some (.returned true, [(some .viaSudo, .okay)]) := by decide +kernel
  obtain ⟨⟨ending, made⟩, ended, read⟩ := Option.map_eq_some_iff.mp run
  obtain ⟨rfl, report⟩ := Prod.mk.inj read
  exact ⟨made, ended, report⟩

theorem sshVpnRunCommand_policy_iff_sudo :
    ∃ made, reports "id".toList none made = [(some .viaSudo, .okay)] ∧
      RemotePolicy remoteSudoSettings "id".toList (cmdSu ||| cmdSudo) (fun _ => sudoTranscript) true
        made := by
  obtain ⟨made, ended, report⟩ := obligingHost_run
  have okay : sudoTranscript.result = .okay := by decide
  have announces : sudoTranscript.Announces :=
    ⟨{ text := "vpn-mgr-cmd-run\r".toList }, List.mem_of_getElem? (i := 2) rfl, by decide⟩
  refine ⟨made, report, (sshVpnRunCommand_policy_iff _ _ _ _ _ _ _ ended _ ?_).mpr
    fun _ _ => ⟨fun _ => ⟨by decide, announces⟩, fun failed => absurd okay failed⟩⟩
  intro index entry isEntry
  rw [report] at isEntry
  obtain ⟨-, rfl⟩ := List.getElem?_eq_some_iff.mp isEntry
  simpa using okay.symm

/-- The command is sent bare after all, and reported as a success. -/
theorem sshVpnRunCommand_falls_to_bare :
    ∃ made, sshVpnRunCommand remoteSudoSettings 1 "id".toList (cmdSu ||| cmdSudo) sorryHost [] =
        some (.returned true, made) ∧
      (∀ (index : Nat) entry, (reports "id".toList none made)[index]? = some entry →
        entry.2 = sorryTranscript.result) ∧
      ¬ RemotePolicy remoteSudoSettings "id".toList (cmdSu ||| cmdSudo) (fun _ => sorryTranscript)
        true made := by
  obtain ⟨made, ended, forms, report⟩ := sorryHost_run
  refine ⟨made, ended, sorryTranscript_served report, fun policy => ?_⟩
  have permitted := policy.forms .bare (by rw [forms]; exact List.mem_cons_of_mem _ List.mem_cons_self)
  exact absurd permitted (by decide)

end VpnMgr.Client
