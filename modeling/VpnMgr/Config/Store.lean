import VpnMgr.LibUseful.FileSystem
import VpnMgr.LibUseful.Strings

/-!
# The saved configurations on disk

Every saved VPN has a directory of its own, `~/.config/vpn_mgr/<name>`.
-/

namespace VpnMgr.Config

open Machine Text CString LibUseful

/-- A home directory, by the names on the way to it. -/
structure HomeDir where
  names : Path
  proper : ∀ name ∈ names, ProperName name

namespace HomeDir

variable (home : HomeDir)

/-- `GetCurrUserHomeDir()`. -/
def text : CString := home.names.flatMap ('/' :: ·)

/-- `~/.config/vpn_mgr`. -/
def store : Path := home.names ++ [".config".toList, "vpn_mgr".toList]

def configDir (name : CString) : Path := home.store ++ [name]

end HomeDir

/-- `DeleteConfig`, on `Vpn->Name`. -/
def deleteConfig (fuel : Nat) (home : CString) (name : CPtr) (t : Disk) : Disk :=
  fileSystemRmDir fuel
    (mCopyStr [some home, some "/.config/vpn_mgr/".toList, name, some ['/']]) t

theorem splitOn_names {names : Path} (noSlash : ∀ name ∈ names, '/' ∉ name) (rest : CString) :
    (names.flatMap ('/' :: ·) ++ '/' :: rest).splitOn '/' = [] :: names ++ rest.splitOn '/' := by
  have joined : names.flatMap ('/' :: ·) ++ '/' :: rest =
      '/' :: (names.flatMap (· ++ ['/']) ++ rest) := by
    clear noSlash
    induction names with
    | nil => rfl
    | cons name names inductionHypothesis =>
        rw [List.flatMap_cons, List.append_assoc, inductionHypothesis]
        simp
  rw [joined, ← List.nil_append ('/' :: _),
    List.splitOn_append_cons_self_of_not_mem List.not_mem_nil, List.cons_append]
  congr 1
  clear joined
  induction names with
  | nil => rfl
  | cons name names inductionHypothesis =>
      rw [List.flatMap_cons, List.append_assoc, List.append_assoc, List.singleton_append,
        List.splitOn_append_cons_self_of_not_mem (noSlash name (by simp)),
        inductionHypothesis fun c membership => noSlash c (by simp [membership])]
      rfl

/-- The texts of the path that `delete` is given. -/
def deletedPath (home : HomeDir) (name : CString) : List CString :=
  [] :: (home.store ++ name.splitOn '/') ++ [[]]

theorem splitOn_deletedPath (home : HomeDir) (name : CString) :
    (mCopyStr [some home.text, some "/.config/vpn_mgr/".toList, some name, some ['/']]).splitOn '/' =
      deletedPath home name := by
  have text : mCopyStr [some home.text, some "/.config/vpn_mgr/".toList, some name, some ['/']] =
      home.names.flatMap ('/' :: ·) ++ '/' :: (".config".toList ++
        '/' :: ("vpn_mgr".toList ++ '/' :: (name ++ '/' :: []))) := by
    simp [HomeDir.text]
  rw [text, splitOn_names fun name membership => (home.proper name membership).noSlash,
    List.splitOn_append_cons_self_of_not_mem (by decide),
    List.splitOn_append_cons_self_of_not_mem (by decide), List.splitOn_append_cons_self]
  simp [deletedPath, HomeDir.store]

theorem deleteConfig_eq (fuel : Nat) (home : HomeDir) (name : CString) (t : Disk) :
    deleteConfig fuel home.text (some name) t =
      fileSystemUnMountFlagsDepth fuel (deletedPath home name) 0 0 t := by
  rw [deleteConfig, fileSystemRmDir, splitOn_deletedPath]

end VpnMgr.Config
