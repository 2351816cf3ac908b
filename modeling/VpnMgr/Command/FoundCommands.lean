import VpnMgr.Command.Passwords
import VpnMgr.LibUseful.SearchPath
import VpnMgr.LibUseful.Vars

/-!
# The programs that are found

`FindCommands` and `GetCommandPath` of `run_command.c`, and the list of programs
in `main.c`.
-/

namespace VpnMgr.Command

open Machine Text CString LibUseful

/-- The directories that `FindCommands` looks in; `path` is the variable `PATH`. -/
def searchPath (path : CPtr) : CString := copyStr path ++ ":/sbin:/usr/sbin:/usr/local/sbin".toList

/-- `FindCommands`, on an empty `FoundCommands`. -/
def findCommands (lstat : LStat) (path : CPtr) (commands : CString) : Vars :=
  (getTokens (some commands) ",".toList noFlags).foldl (fun foundCommands item =>
    let file := findFileInPath lstat item (some (searchPath path))
    if strValid (some file) then setVar foundCommands item (some file) else foundCommands) []

/-- `GetCommandPath`. -/
def getCommandPath (foundCommands : Vars) (command : CString) : CString :=
  getVar foundCommands command

/-- The programs that `main` looks for. -/
def mainCommands : CString :=
  ("su,sudo,modprobe,ip,wg,ifconfig,route,ssh,wg,openvpn,pppd,chmod,boringtun-cli," ++
    "wireguard-go,mv,kill").toList

section Lookup

variable (lstat : LStat) (path : CPtr)

/-- What `FindCommands` does for an item of its list. -/
def foundCommand (item : CString) : Option VarOperation :=
  let file := findFileInPath lstat item (some (searchPath path))
  if strValid (some file) then some (.set item (some file)) else none

theorem findCommands_eq (commands : CString) : findCommands lstat path commands =
    ((getTokens (some commands) ",".toList noFlags).filterMap (foundCommand lstat path)).foldl
      VarOperation.run [] := by
  rw [List.foldl_filterMap, findCommands]
  congr 1
  funext foundCommands item
  unfold foundCommand
  dsimp only
  split <;> rfl

theorem gives_foundCommand {item command : CString} {operation : VarOperation}
    (found : foundCommand lstat path item = some operation) :
    strValid (some (findFileInPath lstat item (some (searchPath path)))) = true ∧
      operation.gives command = if sameNoCase item command then
        some (findFileInPath lstat item (some (searchPath path))) else none := by
  unfold foundCommand at found
  dsimp only at found
  split at found
  case isTrue valid =>
    obtain rfl := Option.some.inj found
    exact ⟨valid, rfl⟩
  case isFalse => cases found

def CaseAlike (items : List CString) : Prop :=
  ∀ first ∈ items, ∀ second ∈ items, nameKey first = nameKey second → first = second

theorem lastGiven_foundCommands {items : List CString} (alike : CaseAlike items) (command : CString) :
    (lastGiven (VarOperation.gives command) (items.filterMap (foundCommand lstat path))).getD [] =
      ((items.find? (sameNoCase · command)).map fun item =>
        findFileInPath lstat item (some (searchPath path))).getD [] := by
  cases listed : items.find? (sameNoCase · command) with
  | none =>
      rw [(lastGiven_eq_none_iff _ _).mpr fun operation member => ?_]
      · rfl
      · obtain ⟨item, isItem, found⟩ := List.mem_filterMap.mp member
        rw [(gives_foundCommand lstat path found).2, if_neg (List.find?_eq_none.mp listed item isItem)]
  | some name =>
      have isName := List.mem_of_find?_eq_some listed
      have same : sameNoCase name command = true := by
        simpa using List.find?_some listed
      cases given : lastGiven (VarOperation.gives command)
          (items.filterMap (foundCommand lstat path)) with
      | none =>
          -- the item of the name sets no variable, as no file was found
          have nothing := (lastGiven_eq_none_iff _ _).mp given
          cases found : foundCommand lstat path name with
          | some operation =>
              have isNone := nothing operation (List.mem_filterMap.mpr ⟨name, isName, found⟩)
              rw [(gives_foundCommand lstat path found).2, if_pos same] at isNone
              cases isNone
          | none =>
              unfold foundCommand at found
              dsimp only at found
              split at found
              case isTrue => cases found
              case isFalse invalid =>
                rw [strValid_some_iff, ne_eq, not_not] at invalid
                exact invalid.symm
      | some value =>
          obtain ⟨operation, member, gives⟩ := exists_of_lastGiven _ given
          obtain ⟨item, isItem, found⟩ := List.mem_filterMap.mp member
          rw [(gives_foundCommand lstat path found).2] at gives
          split at gives
          case isTrue sameItem =>
            obtain rfl := Option.some.inj gives
            rw [alike item isItem name isName (((sameNoCase_iff _ _).mp sameItem).trans
              ((sameNoCase_iff _ _).mp same).symm)]
            rfl
          case isFalse => cases gives

theorem getCommandPath_findCommands {commands : CString}
    (alike : CaseAlike (getTokens (some commands) ",".toList noFlags)) (command : CString) :
    getCommandPath (findCommands lstat path commands) command =
      (((getTokens (some commands) ",".toList noFlags).find? (sameNoCase · command)).map fun item =>
        findFileInPath lstat item (some (searchPath path))).getD [] := by
  rw [getCommandPath, findCommands_eq, getVar_foldl]
  exact lastGiven_foundCommands lstat path alike command

theorem mainCommands_tokens : getTokens (some mainCommands) ",".toList noFlags =
    ["su", "sudo", "modprobe", "ip", "wg", "ifconfig", "route", "ssh", "wg", "openvpn", "pppd",
      "chmod", "boringtun-cli", "wireguard-go", "mv", "kill"].map String.toList := by
  decide +kernel

theorem mainCommands_alike : CaseAlike (getTokens (some mainCommands) ",".toList noFlags) := by
  rw [mainCommands_tokens]
  unfold CaseAlike
  decide +kernel

/-- `GetCommandPath` in a run of the program: a command of the list, in any
case, has its first place in the search path that is no symbolic link, and only
without one its first link; any other command has none. -/
theorem getCommandPath_main (command : CString) :
    getCommandPath (findCommands lstat path mainCommands) command =
      match (getTokens (some mainCommands) ",".toList noFlags).find? (sameNoCase · command) with
      | none => []
      | some item =>
          let candidates := pathCandidates item (some (searchPath path))
          (candidates.find? (lstat · = some .other)).getD
            ((candidates.find? (lstat · = some .link)).getD []) := by
  rw [getCommandPath_findCommands lstat path mainCommands_alike]
  cases (getTokens (some mainCommands) ",".toList noFlags).find? (sameNoCase · command) with
  | none => rfl
  | some item => exact findFileInPath_eq lstat item _

end Lookup

end VpnMgr.Command
