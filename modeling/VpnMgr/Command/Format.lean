import VpnMgr.Common
import VpnMgr.LibUseful.Tokenizer

/-!
# Command lines

`RunCmdFormat` and `RunCmdSetup`: the text handed to `/bin/sh`, bare or
wrapped in `sudo` or `su`.
-/

namespace VpnMgr.Command

open Machine Text CString LibUseful

/-- How a command is started. -/
inductive Wrap where
  | bare
  | viaSudo
  | viaSu
  deriving DecidableEq

/-- The form that `RunCmdFormat` picks for a flag word. -/
def wrapOf (flags : FlagWord) : Wrap :=
  if flags.has cmdSudo then .viaSudo
  else if flags.has cmdSu then .viaSu
  else .bare

theorem wrapOf_bare_iff (flags : FlagWord) :
    wrapOf flags = .bare ↔ flags.has cmdSudo = false ∧ flags.has cmdSu = false := by
  unfold wrapOf
  cases flags.has cmdSudo <;> cases flags.has cmdSu <;> simp

theorem has_wrapper_iff (flags : FlagWord) :
    flags.has (cmdSudo ||| cmdSu) = true ↔ wrapOf flags ≠ .bare := by
  rw [ne_eq, wrapOf_bare_iff, FlagWord.has_or_mask]
  cases flags.has cmdSudo <;> cases flags.has cmdSu <;> simp

/-- `GetCommandPath` knows the program of the form. -/
def wrapFound (getCommandPath : CString → CPtr) : Wrap → Bool
  | .viaSudo => strValid (getCommandPath "sudo".toList)
  | .viaSu => strValid (getCommandPath "su".toList)
  | .bare => true

/-- `RunCmdFormat`, on an empty `RetStr`; `getCommandPath` is `GetCommandPath`. -/
def runCmdFormat (getCommandPath : CString → CPtr) (cmd args : CPtr) (flags : FlagWord) :
    CString :=
  let start : CString := if flags.has cmdSsh then [] else "cmd:".toList
  match wrapOf flags with
  | .viaSudo =>
      if strValid (getCommandPath "sudo".toList) then
        mCopyStr [some start, some "sudo -S /bin/sh -c 'echo vpn-mgr-cmd-run;".toList, cmd,
          some " ".toList, args, some "'; echo vpn-mgr-sudo-done".toList]
      else []
  | .viaSu =>
      if strValid (getCommandPath "su".toList) then
        mCopyStr [some start, some "su ".toList, some [],
          some " -c 'echo vpn-mgr-cmd-run; ".toList, cmd, some " ".toList, args,
          some "'; echo vpn-mgr-su-done".toList]
      else []
  | .bare => mCopyStr [some start, cmd, some " ".toList, args]

theorem strValid_runCmdFormat (getCommandPath : CString → CPtr) {cmd : CString}
    (valid : strValid (some cmd) = true) (args : CPtr) (flags : FlagWord) :
    strValid (some (runCmdFormat getCommandPath (some cmd) args flags)) =
      wrapFound getCommandPath (wrapOf flags) := by
  obtain ⟨head, rest, rfl⟩ := List.exists_cons_of_ne_nil ((strValid_some_iff _).mp valid)
  unfold runCmdFormat
  cases wrapOf flags with
  | bare => cases flags.has cmdSsh <;> rfl
  | viaSudo =>
      unfold wrapFound
      dsimp only
      cases strValid (getCommandPath "sudo".toList) <;> cases flags.has cmdSsh <;> rfl
  | viaSu =>
      unfold wrapFound
      dsimp only
      cases strValid (getCommandPath "su".toList) <;> cases flags.has cmdSsh <;> rfl

/-- `RunCmdSetup`: `none` when the program is not known. -/
def runCmdSetup (getCommandPath : CString → CPtr) (cmd : CString) (flags : FlagWord) : CPtr :=
  let token := getToken (some cmd) "\\S".toList noFlags
  let path : CPtr := if token.text.head? = some '/' then some token.text
    else getCommandPath token.text
  if strValid path then some (runCmdFormat getCommandPath path token.ptr flags) else none

/-- The program of a command line is known; a full path is taken as it is. -/
def programFound (getCommandPath : CString → CPtr) (cmd : CString) : Bool :=
  let program := (getToken (some cmd) "\\S".toList noFlags).text
  program.head? = some '/' || strValid (getCommandPath program)

theorem strValid_runCmdSetup (getCommandPath : CString → CPtr) (cmd : CString)
    (flags : FlagWord) : strValid (runCmdSetup getCommandPath cmd flags) =
      (programFound getCommandPath cmd && wrapFound getCommandPath (wrapOf flags)) := by
  unfold runCmdSetup programFound
  dsimp only
  generalize getToken (some cmd) "\\S".toList noFlags = token
  by_cases full : token.text.head? = some '/'
  · have valid : strValid (some token.text) = true := by
      obtain ⟨rest, same⟩ := List.head?_eq_some_iff.mp full
      rw [same]
      rfl
    rw [if_pos full, if_pos valid, strValid_runCmdFormat _ valid]
    simp [full]
  · rw [if_neg full]
    by_cases valid : strValid (getCommandPath token.text) = true
    · obtain ⟨path, isPath, nonempty⟩ := (strValid_iff _).mp valid
      rw [isPath] at valid ⊢
      rw [if_pos valid, strValid_runCmdFormat _ valid]
      simp [full, valid]
    · rw [if_neg valid]
      simp [full, valid]

end VpnMgr.Command
