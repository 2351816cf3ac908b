import VpnMgr.Options.Precedence

/-!
# Command words and missing operands

Where `ParseCommandLine` hands a NULL pointer to a comparison or to `atoi`, and
which action is executed for a command word.
-/

namespace VpnMgr.Options

open Machine Text CString LibUseful Config

/-! ## NULL pointers -/

/-- What `ParseCommandLine` comes to. -/
inductive ParseOutcome where
  /-- NULL is handed to `strncmp` or `atoi` -/
  | nullPointer
  /-- an error is printed, and there is no context -/
  | refused (printed : CString)
  | context (s : Settings)
  deriving DecidableEq

/-- `IsServerURL` on a pointer; `strncmp` does not take NULL. -/
def isServerURLPtr (server : CPtr) : Option Bool := server.map isServerURL

def nameIsURLError : CString :=
  "ERROR: Invalid command line: 'name' seems to be the service url.\n".toList

def noURLError : CString := "Invalid command line: no server url\n".toList

def addWithoutURLError : CString := "ERROR: no URL given for add command\n".toList

/-- `CommandsNeedingServer`. -/
def needsServer (action : CString) : Bool :=
  ["add", "connect", "server"].any fun word => sameNoCase action word.toList

/-- `CommandLineValid`, with the error it prints; `none` when NULL is compared. -/
def commandLineError (action : CString) (name server : CPtr) : Option (Option CString) :=
  if needsServer action then
    if strValid server then
      (isServerURLPtr server).bind fun isURL =>
        if isURL then some none
        else (isServerURLPtr name).map fun nameIsURL =>
          some (if nameIsURL then nameIsURLError else noURLError)
    else some none
  else some none

/-- `ParseCommandLine`, on the words behind the program's name. -/
def parseOutcome (root : Bool) (argv : List CString) : ParseOutcome :=
  let words := commandWords argv
  match commandLineError words.action words.name words.server with
  | none => .nullPointer
  | some (some error) => .refused error
  | some none =>
      match vpnCtxCreate words.action words.name words.server with
      | none => .refused addWithoutURLError
      | some vpn =>
          match parseOptions words.options ⟨vpn, initialGlobalFlags root⟩ with
          | none => .nullPointer
          | some s => .context s

theorem commandLineValid_iff (action : CString) (name server : CPtr) :
    commandLineValid action server = true ↔ commandLineError action name server = some none := by
  unfold commandLineValid commandLineError needsServer
  split
  · rcases server with _ | server
    · simp
    · by_cases valid : strValid (some server) = true
      · by_cases isURL : isServerURL server = true
        · simp [valid, isURL, isServerURLPtr]
        · simp [valid, isURL, isServerURLPtr]
      · simp [valid]
  · simp

theorem parseOutcome_context_iff {root : Bool} {argv : List CString} {s : Settings} :
    parseOutcome root argv = .context s ↔ parseCommandLine root argv = some s := by
  simp only [parseOutcome, parseCommandLine]
  have valid := commandLineValid_iff (commandWords argv).action (commandWords argv).name
    (commandWords argv).server
  rcases checked : commandLineError (commandWords argv).action (commandWords argv).name
    (commandWords argv).server with _ | _ | error
  · rw [checked] at valid
    simp [mt valid.mp (by simp)]
  · rw [if_pos (valid.mpr checked)]
    rcases vpnCtxCreate (commandWords argv).action (commandWords argv).name
      (commandWords argv).server with _ | vpn
    · simp
    · simp only [Option.bind_some]
      cases parseOptions (commandWords argv).options ⟨vpn, initialGlobalFlags root⟩ <;> simp
  · rw [checked] at valid
    simp [mt valid.mp (by simp)]

/-- A number is asked for at the very end of the command line. -/
def NumberMissing (options : List CString) : Prop :=
  ∃ kind, (kind, none) ∈ optionsGiven options ∧ kind.needsValue = true

theorem needsValue_takesValue {kind : OptionKind} (needs : kind.needsValue = true) :
    kind.takesValue = true := by
  cases kind with
  | text | mtu | lineSpeed | timeout => rfl
  | vpnFlag | globalFlags => exact absurd needs (by simp [OptionKind.needsValue])

/-- The option loop only fails on a missing number. -/
theorem parseOptions_eq_none_iff (args : List CString) (s : Settings) :
    parseOptions args s = none ↔ NumberMissing args := by
  unfold NumberMissing
  fun_induction parseOptions args s with
  | case1 s => simp [optionsGiven]
  | case2 arg rest s unknown inductionHypothesis =>
      rw [inductionHypothesis]
      simp [optionsGiven, unknown]
  | case3 arg s kind known takes needs => simp [optionsGiven, known, takes, needs]
  | case4 arg s kind known takes optional =>
      simpa [optionsGiven, known, takes] using optional
  | case5 arg s kind known takes value rest inductionHypothesis =>
      rw [inductionHypothesis]
      simp [optionsGiven, known, takes]
  | case6 arg rest s kind known bare inductionHypothesis =>
      rw [inductionHypothesis]
      have free : kind.needsValue = false := by
        rw [← Bool.not_eq_true]
        exact fun needs => bare (needsValue_takesValue needs)
      simp [optionsGiven, known, bare, free]

/-- Each place of `s` has the argument of the last option for it, and the value
of a new context without one. -/
def TakesArguments (root : Bool) (words : CommandWords) (s : Settings) : Prop :=
  ∃ vpn, vpnCtxCreate words.action words.name words.server = some vpn ∧
    ∀ slot : Slot, slot.read s =
      (lastGiven (optionGives slot) (optionsGiven words.options)).getD
        (slot.read ⟨vpn, initialGlobalFlags root⟩)

/-- No NULL is handed on, and there is an error or a context with the options'
arguments in it. -/
structure ParsesSafely (root : Bool) (argv : List CString) : Prop where
  noNull : parseOutcome root argv ≠ .nullPointer
  refusal : ∀ printed, parseOutcome root argv = .refused printed → printed ≠ []
  values : ∀ s, parseOutcome root argv = .context s → TakesArguments root (commandWords argv) s

/-- `server` with an operand that is no URL: `CommandLineValid` asks whether the
name, which is NULL, is one. -/
def ServerWithoutURL (argv : List CString) : Prop :=
  sameNoCase (copyStr argv.head?) "server".toList = true ∧ strValid argv.tail.head? = true ∧
    isServerURL (copyStr argv.tail.head?) = false

instance (argv : List CString) : Decidable (ServerWithoutURL argv) :=
  inferInstanceAs (Decidable (_ ∧ _ ∧ _))

/-- The words of a command line whose options are looked at. -/
def ContextCreated (words : CommandWords) : Prop :=
  commandLineValid words.action words.server = true ∧
    (actionOf words.action = .add → strValid words.server = true)

theorem vpnCtxCreate_isSome_iff (action : CString) (name server : CPtr) :
    (vpnCtxCreate action name server).isSome = true ↔
      (actionOf action = .add → strValid server = true) := by
  unfold vpnCtxCreate
  by_cases isAdd : actionOf action = .add
  · cases strValid server <;> simp [isAdd]
  · simp [isAdd]

theorem error_ne_nil {action error : CString} {name server : CPtr}
    (checked : commandLineError action name server = some (some error)) : error ≠ [] := by
  unfold commandLineError at checked
  split at checked
  · split at checked
    · obtain ⟨isURL, -, later⟩ := Option.bind_eq_some_iff.mp checked
      split at later
      · exact absurd later (by simp)
      · obtain ⟨nameIsURL, -, message⟩ := Option.map_eq_some_iff.mp later
        obtain rfl := Option.some.inj message
        cases nameIsURL
        · exact (by decide : noURLError ≠ [])
        · exact (by decide : nameIsURLError ≠ [])
    · exact absurd checked (by simp)
  · exact absurd checked (by simp)

theorem commandLineError_eq_none {action : CString} {name server : CPtr} :
    commandLineError action name server = none ↔
      needsServer action = true ∧ name = none ∧
        strValid server = true ∧ isServerURL (copyStr server) = false := by
  unfold commandLineError
  by_cases needs : needsServer action = true
  · rcases server with _ | server
    · simp
    · by_cases valid : strValid (some server) = true
      · by_cases isURL : isServerURL server = true
        · simp [valid, isURL, isServerURLPtr]
        · cases name <;> simp [needs, valid, isURL, isServerURLPtr]
      · simp [valid]
  · simp [needs]

theorem not_sameNoCase_of {action : CString} {word other : CString}
    (isWord : sameNoCase action word = true) (apart : sameNoCase word other = false) :
    sameNoCase action other = false := by
  rwa [sameNoCase_trans isWord]

theorem commandLineError_eq_none_iff (argv : List CString) :
    commandLineError (commandWords argv).action (commandWords argv).name
      (commandWords argv).server = none ↔ ServerWithoutURL argv := by
  rw [commandLineError_eq_none, ServerWithoutURL]
  have named : ∀ {other name : CString} {server : CPtr},
      sameNoCase (copyStr argv.head?) "server".toList = false →
      (needsServer other = true ∧ some name = none ∧ strValid server = true ∧
          isServerURL (copyStr server) = false ↔
        sameNoCase (copyStr argv.head?) "server".toList = true ∧ strValid argv.tail.head? = true ∧
          isServerURL (copyStr argv.tail.head?) = false) := by
    intro other name server notServer
    rw [notServer]
    simp only [reduceCtorEq, false_and, and_false, Bool.false_eq_true]
  simp only [commandWords]
  split
  next saves =>
    refine named ?_
    simp only [Bool.or_eq_true] at saves
    rcases saves with (isWord | isWord) | isWord <;> exact not_sameNoCase_of isWord (by decide)
  next =>
  split
  next lists =>
    refine named ?_
    simp only [Bool.or_eq_true] at lists
    rcases lists with ((isWord | isWord) | isWord) | isWord <;>
      exact not_sameNoCase_of isWord (by decide)
  next =>
  split
  next isServer =>
    have needs : needsServer (copyStr argv.head?) = true := by
      simp only [needsServer, List.any_cons, isServer, Bool.true_or, Bool.or_true]
    simp only [needs, isServer, true_and]
    cases argv.tail.head? with
    | none => exact Iff.rfl
    | some operand => exact Iff.rfl
  next =>
  split
  next isConnect =>
    have notServer := not_sameNoCase_of isConnect (by decide : sameNoCase _ "server".toList = false)
    split
    next isURL =>
      rw [notServer, copyStr_some, isURL]
      simp only [reduceCtorEq, and_false, Bool.false_eq_true]
    next => exact named notServer
  next notServer _ =>
    rw [Bool.not_eq_true] at notServer
    rw [notServer]
    split <;> simp only [strValid_none, false_and, and_false, Bool.false_eq_true]

/-- Nothing is NULL exactly if `server` is not given an operand that is no URL,
and no option of a new context asks for a number that is not there. -/
theorem parsesSafely_iff (root : Bool) (argv : List CString) :
    ParsesSafely root argv ↔
      ¬ ServerWithoutURL argv ∧
        (ContextCreated (commandWords argv) → ¬ NumberMissing (commandWords argv).options) := by
  rw [← commandLineError_eq_none_iff]
  have created := vpnCtxCreate_isSome_iff (commandWords argv).action (commandWords argv).name
    (commandWords argv).server
  have valid := commandLineValid_iff (commandWords argv).action (commandWords argv).name
    (commandWords argv).server
  constructor
  · intro safe
    refine ⟨fun null => safe.noNull ?_, fun isCreated missing => safe.noNull ?_⟩
    · simp only [parseOutcome, null]
    · obtain ⟨vpn, isVpn⟩ := Option.isSome_iff_exists.mp (created.mpr isCreated.2)
      simp only [parseOutcome, valid.mp isCreated.1, isVpn]
      rw [(parseOptions_eq_none_iff _ _).mpr missing]
  · rintro ⟨compared, numbers⟩
    refine ⟨fun null => ?_, fun printed refused => ?_, fun s context => ?_⟩
    · rcases checked : commandLineError (commandWords argv).action (commandWords argv).name
        (commandWords argv).server with _ | _ | error
      · exact compared checked
      · simp only [parseOutcome, checked] at null
        split at null
        · exact absurd null (by simp)
        next vpn isVpn =>
          split at null
          next stopped =>
            refine numbers ⟨valid.mpr checked, created.mp (by simp [isVpn])⟩ ?_
            exact (parseOptions_eq_none_iff _ _).mp stopped
          next => exact absurd null (by simp)
      · simp [parseOutcome, checked] at null
    · rintro rfl
      simp only [parseOutcome] at refused
      split at refused
      · exact absurd refused (by simp)
      next error checked =>
        obtain rfl := ParseOutcome.refused.inj refused
        exact error_ne_nil checked rfl
      next =>
        split at refused
        · exact absurd (ParseOutcome.refused.inj refused) (by decide)
        · split at refused <;> exact absurd refused (by simp)
    · have parsed := parseOutcome_context_iff.mp context
      simp only [parseCommandLine] at parsed
      split at parsed
      next =>
        obtain ⟨vpn, isVpn, stored⟩ := Option.bind_eq_some_iff.mp parsed
        exact ⟨vpn, isVpn, fun slot => read_parseOptions slot stored⟩
      next => exact absurd parsed (by simp)

/-- `server foo`, and a number that is not there. -/
theorem parseCommandLine_null :
    ¬ ParsesSafely true ["server".toList, "foo".toList] ∧
      ¬ ParsesSafely false ["connect".toList, "wg:10.1.1.1".toList, "-mtu".toList] := by
  have compared : parseOutcome true ["server".toList, "foo".toList] = .nullPointer := by
    decide +kernel
  have number : parseOutcome false ["connect".toList, "wg:10.1.1.1".toList, "-mtu".toList] =
      .nullPointer := by
    decide +kernel
  exact ⟨fun safe => safe.noNull compared, fun safe => safe.noNull number⟩

/-- The action whose branch `ParseCommandLine` takes for a word. -/
def branchAction (word : CString) : Action :=
  let isAction := fun action : String => sameNoCase word action.toList
  if isAction "add" then .add
  else if isAction "conf" then .config
  else if isAction "config" then .config
  else if isAction "list" then .list
  else if isAction "del" then .delete
  else if isAction "delete" then .delete
  else if isAction "protocols" then .protocols
  else if isAction "server" then .server
  else if isAction "connect" then .connect
  else if isAction "version" then .version
  else if isAction "-version" then .version
  else if isAction "--version" then .version
  else .help

/-- The words that `ParseCommandLine` hands on as they were typed, but for
`connect`. -/
def typedActions : List CString :=
  ["add".toList, "conf".toList, "config".toList, "list".toList, "del".toList, "delete".toList,
    "protocols".toList, "server".toList]

/-- The word is not one of these in another mix of cases. -/
def LowerCase (word : CString) : Prop :=
  ∀ action ∈ typedActions, sameNoCase word action = true → word = action

instance (word : CString) : Decidable (LowerCase word) := List.decidableBAll _ _

theorem applyOption_action (kind : OptionKind) (value : CPtr) (s : Settings) :
    (applyOption kind value s).vpn.action = s.vpn.action := by
  cases kind with
  | text field => cases field <;> rfl
  | mtu | lineSpeed | timeout | vpnFlag | globalFlags => rfl

theorem parseOptions_action {args : List CString} {s t : Settings}
    (parsed : parseOptions args s = some t) : t.vpn.action = s.vpn.action := by
  rw [parseOptions_eq parsed]
  generalize optionsGiven args = options
  clear parsed
  induction options generalizing s with
  | nil => rfl
  | cons option options inductionHypothesis =>
      rw [List.foldl_cons, inductionHypothesis, applyOption_action]

/-- The words that `VpnCtxCreate` knows. -/
def knownActions : List CString := typedActions ++ ["version".toList, "help".toList]

theorem actionOf_unknown {word : CString} (unknown : ∀ action ∈ knownActions, word ≠ action) :
    actionOf word = .connect := by
  simp only [knownActions, typedActions, List.forall_mem_append, List.forall_mem_cons] at unknown
  obtain ⟨⟨add, conf, config, list, del, delete, protocols, server, -⟩, version, help, -⟩ := unknown
  simp only [actionOf, add, conf, config, list, del, delete, protocols, server, version, help,
    if_false]

theorem typedActions_apart : ∀ action ∈ typedActions, ∀ other ∈ knownActions,
    sameNoCase other action = true → other = action := by
  decide +kernel

theorem branchAction_congr {word other : CString} (same : sameNoCase word other = true) :
    branchAction word = branchAction other := by
  simp only [branchAction, sameNoCase_trans same]

theorem typedActions_branch : ∀ action ∈ typedActions,
    branchAction action = actionOf action ∧ actionOf action ≠ .connect := by
  decide +kernel

theorem commandWords_typed {argv : List CString} {action : CString} (typed : action ∈ typedActions)
    (same : sameNoCase (copyStr argv.head?) action = true) :
    (commandWords argv).action = copyStr argv.head? := by
  simp only [commandWords, sameNoCase_trans same]
  simp only [typedActions, List.mem_cons, List.not_mem_nil, or_false] at typed
  rcases typed with rfl | rfl | rfl | rfl | rfl | rfl | rfl | rfl <;> rfl

/-- A word in the way of no other action is executed as it was parsed. -/
theorem commandWords_other {argv : List CString}
    (untyped : ∀ action ∈ typedActions, sameNoCase (copyStr argv.head?) action = false) :
    actionOf (commandWords argv).action = branchAction (copyStr argv.head?) := by
  have connects : sameNoCase (copyStr argv.head?) "connect".toList = true →
      actionOf (copyStr argv.head?) = .connect := by
    intro isConnect
    have apart : ∀ action ∈ knownActions, sameNoCase action "connect".toList = false := by
      decide +kernel
    refine actionOf_unknown fun action known same => ?_
    rw [same, apart action known] at isConnect
    exact absurd isConnect (by decide)
  simp only [typedActions, List.forall_mem_cons] at untyped
  obtain ⟨add, conf, config, list, del, delete, protocols, server, -⟩ := untyped
  simp only [commandWords, branchAction, add, conf, config, list, del, delete, protocols, server,
    Bool.or_false, Bool.false_eq_true, if_false]
  split
  next isConnect =>
    split
    · exact connects isConnect
    · exact connects isConnect
  next =>
    by_cases version : sameNoCase (copyStr argv.head?) "version".toList = true
    · rw [if_pos version, if_pos (by rw [version]; rfl)]
      rfl
    by_cases dash : sameNoCase (copyStr argv.head?) "-version".toList = true
    · rw [if_neg version, if_pos dash, if_pos (by rw [dash, Bool.or_true]; rfl)]
      rfl
    by_cases dashes : sameNoCase (copyStr argv.head?) "--version".toList = true
    · rw [if_neg version, if_neg dash, if_pos dashes, if_pos (by rw [dashes, Bool.or_true])]
      rfl
    · rw [if_neg version, if_neg dash, if_neg dashes,
        if_neg (by simp only [Bool.or_eq_true, version, dash, dashes, or_self,
          Bool.false_eq_true, not_false_iff])]
      rfl

/-- What is executed is what was parsed exactly if the word is in lower case,
unless it is none of the words that are handed on as they were typed. -/
theorem executed_iff {root : Bool} {argv : List CString} {s : Settings}
    (parsed : parseCommandLine root argv = some s) :
    s.vpn.action = branchAction (copyStr argv.head?) ↔ LowerCase (copyStr argv.head?) := by
  have stored : s.vpn.action = actionOf (commandWords argv).action := by
    simp only [parseCommandLine] at parsed
    split at parsed
    next =>
      obtain ⟨vpn, created, options⟩ := Option.bind_eq_some_iff.mp parsed
      rw [parseOptions_action options]
      simp only [vpnCtxCreate] at created
      split at created
      · exact absurd created (by simp)
      · obtain rfl := Option.some.inj created
        rfl
    next => exact absurd parsed (by simp)
  rw [stored]
  by_cases typed : ∃ action ∈ typedActions, sameNoCase (copyStr argv.head?) action = true
  · obtain ⟨action, isTyped, same⟩ := typed
    obtain ⟨branch, notConnect⟩ := typedActions_branch action isTyped
    rw [commandWords_typed isTyped same, branchAction_congr same, branch]
    constructor
    · intro executed other isOther otherSame
      by_contra different
      have unknown : ∀ known ∈ knownActions, copyStr argv.head? ≠ known := by
        rintro known isKnown rfl
        exact different (typedActions_apart other isOther _ isKnown otherSame)
      rw [actionOf_unknown unknown] at executed
      exact notConnect executed.symm
    · intro lower
      rw [lower action isTyped same]
  · have untyped : ∀ action ∈ typedActions, sameNoCase (copyStr argv.head?) action = false :=
      fun action isTyped => by
        rw [← Bool.not_eq_true]
        exact fun same => typed ⟨action, isTyped, same⟩
    refine iff_of_true (commandWords_other untyped) fun action isTyped same => ?_
    rw [untyped action isTyped] at same
    exact absurd same (by decide)

theorem executed_iff_delete : ∃ s : Settings,
    s.vpn.action = branchAction (copyStr (some "delete".toList)) ↔
      LowerCase (copyStr (some "delete".toList)) := by
  have possible : (parseCommandLine true ["delete".toList, "work".toList]).isSome = true := by
    decide +kernel
  obtain ⟨s, parsed⟩ := Option.isSome_iff_exists.mp possible
  exact ⟨s, executed_iff parsed⟩

/-- `Delete work` connects. -/
theorem mixedCase_connects :
    branchAction "Delete".toList = .delete ∧
      ∃ s, parseCommandLine true ["Delete".toList, "work".toList] = some s ∧
        s.vpn.action = .connect := by
  have run : (parseCommandLine true ["Delete".toList, "work".toList]).map
      (fun s => s.vpn.action) = some .connect := by
    decide +kernel
  obtain ⟨s, parsed, executed⟩ := Option.map_eq_some_iff.mp run
  exact ⟨by decide, s, parsed, executed⟩

end VpnMgr.Options
