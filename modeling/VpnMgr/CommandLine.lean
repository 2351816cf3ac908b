import VpnMgr.Common
import VpnMgr.Text.CString

/-!
# Privilege flags from the command line

What `main` and `ParseCommandLine` leave in `GlobalFlags` before anything
else runs.
-/

namespace VpnMgr

open Machine Text

/-- The value `main` starts from; `root` is `geteuid() == 0`. -/
def initialGlobalFlags (root : Bool) : FlagWord :=
  let remote := flagRemoteSudo ||| flagRemoteSu
  if root then remote else remote.raise (flagLocalSudo ||| flagLocalSu)

/-- The effect of one argument of `ParseCommandLine` on `GlobalFlags`. -/
def parseFlagOption (flags : FlagWord) (arg : CString) : FlagWord :=
  if arg = "-nodns".toList then flags.raise flagNoDns
  else if arg = "-local-sudo".toList then (flags.drop flagLocalSu).raise flagLocalSudo
  else if arg = "-local-su".toList then (flags.drop flagLocalSudo).raise flagLocalSu
  else if arg = "-remote-sudo".toList then (flags.drop flagRemoteSu).raise flagRemoteSudo
  else if arg = "-remote-su".toList then (flags.drop flagRemoteSudo).raise flagRemoteSu
  else if arg = "-s".toList then flags.raise flagRemoteSu
  else if arg = "-S".toList then flags.raise flagRemoteSudo
  else if arg = "-N".toList then flags.drop (flagRemoteSu ||| flagRemoteSudo)
  else if arg = "-debug".toList then flags.raise flagDebug
  else if arg = "-verbose".toList || arg = "-version".toList || arg = "--version".toList then
    flags.raise flagVerbose
  else flags

def parsedGlobalFlags (root : Bool) (args : List CString) : FlagWord :=
  args.foldl parseFlagOption (initialGlobalFlags root)

structure LocalMethods (root : Bool) (flags : FlagWord) : Prop where
  bothUnprivileged :
    flags.has flagLocalSu = true → flags.has flagLocalSudo = true → root = false
  noneRoot : flags.has flagLocalSu = false → flags.has flagLocalSudo = false → root = true

theorem LocalMethods.initial (root : Bool) : LocalMethods root (initialGlobalFlags root) := by
  cases root <;> exact ⟨by decide, by decide⟩

def KeepsOrPicks (flags next : FlagWord) : Prop :=
  (next.has flagLocalSu = flags.has flagLocalSu ∧
      next.has flagLocalSudo = flags.has flagLocalSudo) ∨
    next.has flagLocalSu ≠ next.has flagLocalSudo

theorem parseFlagOption_local (flags : FlagWord) (arg : CString) :
    KeepsOrPicks flags (parseFlagOption flags arg) := by
  unfold parseFlagOption
  repeat' refine iteInduction (fun _ => ?_) (fun _ => ?_)
  all_goals
    simp (disch := decide) only [KeepsOrPicks, FlagWord.has_raise, FlagWord.has_drop]
    generalize flags.has flagLocalSu = su
    generalize flags.has flagLocalSudo = asRoot
    revert su asRoot
    decide

theorem LocalMethods.step {root : Bool} {flags : FlagWord} (methods : LocalMethods root flags)
    (arg : CString) : LocalMethods root (parseFlagOption flags arg) := by
  rcases parseFlagOption_local flags arg with ⟨sameSu, sameSudo⟩ | differ
  · constructor
    · rw [sameSu, sameSudo]
      exact methods.bothUnprivileged
    · rw [sameSu, sameSudo]
      exact methods.noneRoot
  · constructor
    · intro su alsoSudo
      exact absurd (su.trans alsoSudo.symm) differ
    · intro su alsoSudo
      exact absurd (su.trans alsoSudo.symm) differ

theorem localMethods_parsed (root : Bool) (args : List CString) :
    LocalMethods root (parsedGlobalFlags root args) := by
  have run : ∀ flags, LocalMethods root flags →
      LocalMethods root (args.foldl parseFlagOption flags) := by
    induction args with
    | nil => exact fun _ methods => methods
    | cons arg args inductionHypothesis =>
        exact fun flags methods => inductionHypothesis _ (methods.step arg)
  exact run _ (LocalMethods.initial root)

end VpnMgr
