import VpnMgr.Client.UpDown
import VpnMgr.Command.Format
import VpnMgr.Shell.Nesting

/-!
# Arguments under a wrapper

What a command is started with when it is run bare, and what `sudo` and `su`
hand to it after the wrapped line has been read twice.
-/

namespace VpnMgr.Command

open Machine Text CString LibUseful Shell

/-- The line the shell is given: `STREAMOpen` runs what follows `cmd:`, and an
SSH session is sent the text as it is. -/
def shellLine (flags : FlagWord) (text : CString) : CString :=
  if flags.has cmdSsh then text else text.drop "cmd:".toList.length

/-- The words of a line that is one simple command. -/
def bareArgv (line : CString) : Option (List Word) :=
  match simpleCommands line with
  | some [words] => some words
  | _ => none

def announcement : List Word := ["echo".toList, "vpn-mgr-cmd-run".toList]

/-- The words of the command in a wrapper's script. -/
def scriptArgv (script : CString) : Option (List Word) :=
  match simpleCommands script with
  | some [first, words] => if first = announcement then some words else none
  | _ => none

def sudoHead : List Word := ["sudo".toList, "-S".toList, "/bin/sh".toList, "-c".toList]

def suHead : List Word := ["su".toList, "-c".toList]

/-- `sudo` starts the shell it names; words after the script are the script's
parameters. -/
def sudoArgv (line : CString) : Option (List Word) :=
  match simpleCommands line with
  | some ((program :: option :: shell :: c :: script :: _) :: _) =>
      if [program, option, shell, c] = sudoHead then scriptArgv script else none
  | _ => none

/-- `su` runs a script as root only when no word follows it: that would be the
user's name. -/
def suArgv (line : CString) : Option (List Word) :=
  match simpleCommands line with
  | some ([program, c, script] :: _) => if [program, c] = suHead then scriptArgv script else none
  | _ => none

section Forms

variable (getCommandPath : CString → CPtr) (cmd args : CString) {flags : FlagWord}

def commandText : CString := cmd ++ (" ".toList ++ args)

theorem shellLine_start (flags : FlagWord) (body : CString) :
    shellLine flags ((if flags.has cmdSsh then [] else "cmd:".toList) ++ body) = body := by
  unfold shellLine
  by_cases ssh : flags.has cmdSsh = true
  · rw [if_pos ssh, if_pos ssh, List.nil_append]
  · rw [if_neg ssh, if_neg ssh, List.drop_left]

theorem shellLine_bare (bare : wrapOf flags = .bare) :
    shellLine flags (runCmdFormat getCommandPath (some cmd) (some args) flags) =
      commandText cmd args := by
  unfold runCmdFormat
  rw [bare]
  dsimp only
  simp only [mCopyStr_some, mCopyStr_nil, List.append_nil, shellLine_start, commandText]

theorem shellLine_sudo (known : strValid (getCommandPath "sudo".toList) = true)
    (wrapped : wrapOf flags = .viaSudo) :
    shellLine flags (runCmdFormat getCommandPath (some cmd) (some args) flags) =
      "sudo -S /bin/sh -c 'echo vpn-mgr-cmd-run;".toList ++ (commandText cmd args ++
        "'; echo vpn-mgr-sudo-done".toList) := by
  unfold runCmdFormat
  rw [wrapped]
  dsimp only
  rw [if_pos known]
  simp only [mCopyStr_some, mCopyStr_nil, List.append_nil, shellLine_start, commandText,
    List.append_assoc]

theorem shellLine_su (known : strValid (getCommandPath "su".toList) = true)
    (wrapped : wrapOf flags = .viaSu) :
    shellLine flags (runCmdFormat getCommandPath (some cmd) (some args) flags) =
      "su  -c 'echo vpn-mgr-cmd-run; ".toList ++ (commandText cmd args ++
        "'; echo vpn-mgr-su-done".toList) := by
  unfold runCmdFormat
  rw [wrapped]
  dsimp only
  rw [if_pos known]
  simp only [mCopyStr_some, mCopyStr_nil, List.append_nil, shellLine_start, commandText,
    List.append_assoc, List.nil_append]
  rfl

end Forms

/-! ## Reading a wrapped line -/

theorem plain_of_scriptArgv {script : CString} {words : List Word} (noQuote : '\'' ∉ script)
    (started : scriptArgv script = some words) : words.all isPlainWord = true := by
  unfold scriptArgv at started
  split at started
  next first others read =>
    split at started
    next =>
      obtain rfl := Option.some.inj started
      exact List.all_eq_true.mpr (plain_of_noQuote noQuote read _ (by simp))
    next => exact absurd started (by simp)
  next => exact absurd started (by simp)

theorem plain_of_sudoArgv {line : CString} {words : List Word}
    (started : sudoArgv line = some words) : words.all isPlainWord = true := by
  unfold sudoArgv at started
  split at started
  next read =>
    split at started
    next =>
      exact plain_of_scriptArgv
        (noQuote_of_simpleCommands read _ List.mem_cons_self _ (by simp)) started
    next => exact absurd started (by simp)
  next => exact absurd started (by simp)

theorem plain_of_suArgv {line : CString} {words : List Word}
    (started : suArgv line = some words) : words.all isPlainWord = true := by
  unfold suArgv at started
  split at started
  next read =>
    split at started
    next =>
      exact plain_of_scriptArgv
        (noQuote_of_simpleCommands read _ List.mem_cons_self _ (by simp)) started
    next => exact absurd started (by simp)
  next => exact absurd started (by simp)

theorem bareArgv_simpleCommands {line : CString} {words : List Word}
    (bare : bareArgv line = some words) : simpleCommands line = some [words] := by
  unfold bareArgv at bare
  split at bare
  next read => rw [read, Option.some.inj bare]
  next => exact absurd bare (by simp)

theorem scriptArgv_of_simpleCommands {script : CString} {words : List Word}
    (read : simpleCommands script = some [announcement, words]) :
    scriptArgv script = some words := by
  rw [scriptArgv, read]
  exact if_pos rfl

theorem sudo_opens :
    run lexStep {} "sudo -S /bin/sh -c 'echo vpn-mgr-cmd-run;".toList =
      some (outside sudoHead "echo vpn-mgr-cmd-run;".toList true) := by decide

theorem su_opens :
    run lexStep {} "su  -c 'echo vpn-mgr-cmd-run; ".toList =
      some (outside suHead "echo vpn-mgr-cmd-run; ".toList true) := by decide

/-- The shell reads the script that the quotes around it enclose. -/
theorem sudoArgv_of_outside {text script : CString}
    (enclosed : run lexStep (outside sudoHead "echo vpn-mgr-cmd-run;".toList true) text =
      some (outside sudoHead script true)) :
    sudoArgv ("sudo -S /bin/sh -c 'echo vpn-mgr-cmd-run;".toList ++ (text ++
      "'; echo vpn-mgr-sudo-done".toList)) = scriptArgv script := by
  have closed : (run lexStep (outside sudoHead script true)
      "'; echo vpn-mgr-sudo-done".toList).bind Lexer.finish =
        some [sudoHead ++ [script], ["echo".toList, "vpn-mgr-sudo-done".toList]] :=
    outside_closed sudoHead script (by decide : (run lexStep {} " echo vpn-mgr-sudo-done".toList).bind
      Lexer.finish = some [["echo".toList, "vpn-mgr-sudo-done".toList]])
  have read : simpleCommands ("sudo -S /bin/sh -c 'echo vpn-mgr-cmd-run;".toList ++ (text ++
      "'; echo vpn-mgr-sudo-done".toList)) =
        some [sudoHead ++ [script], ["echo".toList, "vpn-mgr-sudo-done".toList]] := by
    rw [simpleCommands, run_append, sudo_opens, Option.bind_some, run_append, enclosed,
      Option.bind_some, closed]
    rfl
  rw [sudoArgv, read]
  rfl

theorem suArgv_of_outside {text script : CString}
    (enclosed : run lexStep (outside suHead "echo vpn-mgr-cmd-run; ".toList true) text =
      some (outside suHead script true)) :
    suArgv ("su  -c 'echo vpn-mgr-cmd-run; ".toList ++ (text ++
      "'; echo vpn-mgr-su-done".toList)) = scriptArgv script := by
  have closed : (run lexStep (outside suHead script true)
      "'; echo vpn-mgr-su-done".toList).bind Lexer.finish =
        some [suHead ++ [script], ["echo".toList, "vpn-mgr-su-done".toList]] :=
    outside_closed suHead script (by decide : (run lexStep {} " echo vpn-mgr-su-done".toList).bind
      Lexer.finish = some [["echo".toList, "vpn-mgr-su-done".toList]])
  have read : simpleCommands ("su  -c 'echo vpn-mgr-cmd-run; ".toList ++ (text ++
      "'; echo vpn-mgr-su-done".toList)) =
        some [suHead ++ [script], ["echo".toList, "vpn-mgr-su-done".toList]] := by
    rw [simpleCommands, run_append, su_opens, Option.bind_some, run_append, enclosed,
      Option.bind_some, closed]
    rfl
  rw [suArgv, read]
  rfl

theorem run_announce :
    run lexStep {} "echo vpn-mgr-cmd-run;".toList = some { commands := [announcement] } ∧
      run lexStep {} "echo vpn-mgr-cmd-run; ".toList = some { commands := [announcement] } := by
  decide

theorem sudoArgv_of_plain {text : CString} {words : List Word} (bare : bareArgv text = some words)
    (plain : words.all isPlainWord = true) :
    sudoArgv ("sudo -S /bin/sh -c 'echo vpn-mgr-cmd-run;".toList ++ (text ++
      "'; echo vpn-mgr-sudo-done".toList)) = some words := by
  obtain ⟨script, enclosed, read⟩ := nested_simpleCommands sudoHead run_announce.1 (by decide)
    (bareArgv_simpleCommands bare) (by simpa using plain)
  rw [sudoArgv_of_outside enclosed, scriptArgv_of_simpleCommands read]

theorem suArgv_of_plain {text : CString} {words : List Word} (bare : bareArgv text = some words)
    (plain : words.all isPlainWord = true) :
    suArgv ("su  -c 'echo vpn-mgr-cmd-run; ".toList ++ (text ++
      "'; echo vpn-mgr-su-done".toList)) = some words := by
  obtain ⟨script, enclosed, read⟩ := nested_simpleCommands suHead run_announce.2 (by decide)
    (bareArgv_simpleCommands bare) (by simpa using plain)
  rw [suArgv_of_outside enclosed, scriptArgv_of_simpleCommands read]

section Transparency

variable {getCommandPath : CString → CPtr} {cmd args : CString} {flags : FlagWord}

theorem wrapOf_raise_sudo (flags : FlagWord) : wrapOf (flags.raise cmdSudo) = .viaSudo := by
  have raised : cmdSudo.has cmdSudo = true := by decide
  simp [wrapOf, FlagWord.has_raise, raised]

theorem wrapOf_raise_su (bare : wrapOf flags = .bare) :
    wrapOf (flags.raise cmdSu) = .viaSu := by
  have raised : cmdSu.has cmdSu = true := by decide
  have notSudo : cmdSu.has cmdSudo = false := by decide
  simp [wrapOf, FlagWord.has_raise, raised, notSudo, ((wrapOf_bare_iff flags).mp bare).1]

/-- A wrapped command is started with the words of the bare one exactly when
none of them needed its quotes. -/
theorem wrapped_argv_iff {words : List Word}
    (sudoKnown : strValid (getCommandPath "sudo".toList) = true)
    (suKnown : strValid (getCommandPath "su".toList) = true) (unwrapped : wrapOf flags = .bare)
    (bare : bareArgv
      (shellLine flags (runCmdFormat getCommandPath (some cmd) (some args) flags)) = some words) :
    (sudoArgv (shellLine (flags.raise cmdSudo)
        (runCmdFormat getCommandPath (some cmd) (some args) (flags.raise cmdSudo))) = some words ↔
      words.all isPlainWord = true) ∧
    (suArgv (shellLine (flags.raise cmdSu)
        (runCmdFormat getCommandPath (some cmd) (some args) (flags.raise cmdSu))) = some words ↔
      words.all isPlainWord = true) := by
  rw [shellLine_bare getCommandPath cmd args unwrapped] at bare
  rw [shellLine_sudo getCommandPath cmd args sudoKnown (wrapOf_raise_sudo flags),
    shellLine_su getCommandPath cmd args suKnown (wrapOf_raise_su unwrapped)]
  exact ⟨⟨plain_of_sudoArgv, sudoArgv_of_plain bare⟩, ⟨plain_of_suArgv, suArgv_of_plain bare⟩⟩

/-- Plain words: `ifconfig` is started as it would be bare. -/
theorem wrapped_argv_iff_ifconfig :
    (sudoArgv (shellLine (FlagWord.raise 0 cmdSudo) (runCmdFormat (fun name => some name)
        (some "/sbin/ifconfig".toList) (some "tun0 10.0.0.1".toList)
        (FlagWord.raise 0 cmdSudo))) =
      some ["/sbin/ifconfig".toList, "tun0".toList, "10.0.0.1".toList] ↔
        ["/sbin/ifconfig".toList, "tun0".toList, "10.0.0.1".toList].all isPlainWord = true) ∧
    (suArgv (shellLine (FlagWord.raise 0 cmdSu) (runCmdFormat (fun name => some name)
        (some "/sbin/ifconfig".toList) (some "tun0 10.0.0.1".toList)
        (FlagWord.raise 0 cmdSu))) =
      some ["/sbin/ifconfig".toList, "tun0".toList, "10.0.0.1".toList] ↔
        ["/sbin/ifconfig".toList, "tun0".toList, "10.0.0.1".toList].all isPlainWord = true) :=
  wrapped_argv_iff rfl rfl (by decide) (by decide)

/-- An up script for a link without addresses or name: the empty words vanish
under either wrapper. -/
theorem upDown_arguments_vanish :
    let vpn : TVpn :=
      { server := some "ssh:host".toList, localAddress := some [], remoteAddress := some []
        name := some [] }
    let spawned (flags : FlagWord) :=
      (runCmdSetup (fun name => some ("/usr/bin/".toList ++ name))
        (Client.upDownCommand vpn "/etc/vpn_mgr/default.up".toList (some "tun0".toList)) flags).map
          (shellLine flags)
    let started := ["/etc/vpn_mgr/default.up".toList, "tun0".toList, "ssh:host".toList]
    (spawned 0).bind bareArgv = some (started ++ [[], [], []]) ∧
      (spawned cmdSudo).bind sudoArgv = some started ∧
      (spawned cmdSu).bind suArgv = some started := by
  decide

end Transparency

section Scripts

variable {vpn : TVpn} {token dev server localAddress remoteAddress name : CString}

theorem bareArgv_upDownCommand (plain : isPlainWord token = true)
    (program : namesProgram [token] = true) (setServer : vpn.server = some server)
    (setLocal : vpn.localAddress = some localAddress)
    (setRemote : vpn.remoteAddress = some remoteAddress) (setName : vpn.name = some name)
    (noQuote : ∀ field ∈ [dev, server, localAddress, remoteAddress, name], '\'' ∉ field) :
    bareArgv (Client.upDownCommand vpn token (some dev)) =
      some [token, dev, server, localAddress, remoteAddress, name] := by
  have text : Client.upDownCommand vpn token (some dev) =
      token ++ [dev, server, localAddress, remoteAddress, name].flatMap quotedField := by
    simp [Client.upDownCommand, setServer, setLocal, setRemote, setName, quotedField]
  rw [text, bareArgv, simpleCommands_quotedFields plain program noQuote]

end Scripts

end VpnMgr.Command
