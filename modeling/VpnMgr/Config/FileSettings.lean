import VpnMgr.Config.Fields

/-!
# The settings of a file

`ReadConfig` stores the settings of a file one after the other.
-/

namespace VpnMgr.Config

open Machine Text CString LibUseful

def keyOf (name : CString) : Option ConfigKey :=
  ConfigKey.all.find? fun key => sameNoCase name key.text

/-- The settings of a line, from its pairs. -/
def linePairs : Nat → NameValue → List (ConfigKey × CString)
  | 0, _ => []
  | fuel + 1, pair =>
      match pair.ptr with
      | none => []
      | some rest =>
          ((keyOf pair.name).map fun key => (key, pair.value)).toList ++
            linePairs fuel (getNameValuePair (some rest) [' '] ['='])

/-- The settings of a file, in their order. -/
def fileSettings (file : CPtr) : List (ConfigKey × CString) :=
  (streamReadLines (copyStr file)).flatMap fun line =>
    let line := stripTrailingWhitespace line
    linePairs (line.length + 1) (getNameValuePair (some line) [' '] ['='])

theorem applySetting_eq (home name value : CString) (s : Settings) :
    applySetting home name value s =
      storeRecords home ((keyOf name).map fun key => (key, value)).toList s := by
  cases known : keyOf name with
  | none =>
      have unknown : ∀ key : ConfigKey, sameNoCase name key.text = false := fun key => by
        simpa using List.find?_eq_none.mp known key key.mem_all
      simp only [applySetting, unknown, Bool.false_eq_true, if_false, List.foldl_fixed]
      rfl
  | some key =>
      have same : sameNoCase name key.text = true := by
        simpa using List.find?_some known
      have selected : applySetting home name value s = applySetting home key.text value s := by
        simp only [applySetting, sameNoCase_trans same]
      rw [selected, applySetting_text]
      rfl

theorem readConfigPairs_eq (home : CString) (fuel : Nat) (pair : NameValue) (s : Settings) :
    readConfigPairs home fuel pair s = storeRecords home (linePairs fuel pair) s := by
  induction fuel generalizing pair s with
  | zero => rfl
  | succ fuel inductionHypothesis =>
      simp only [readConfigPairs, linePairs]
      cases pair.ptr with
      | none => rfl
      | some rest =>
          simp only [inductionHypothesis, applySetting_eq, storeRecords, List.foldl_append]

theorem readConfig_eq (home : CString) (file : CPtr) (s : Settings) :
    readConfig home file s = storeRecords home (fileSettings file) s := by
  cases file with
  | none => rfl
  | some contents =>
      simp only [readConfig, fileSettings, copyStr_some, readConfigLine]
      generalize streamReadLines contents = lines
      induction lines generalizing s with
      | nil => rfl
      | cons line lines inductionHypothesis =>
          rw [List.foldl_cons, inductionHypothesis, readConfigPairs_eq, List.flatMap_cons]
          simp only [storeRecords, List.foldl_append]

end VpnMgr.Config
