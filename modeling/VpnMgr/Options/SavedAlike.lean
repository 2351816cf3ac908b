import VpnMgr.Config.StoreMap
import VpnMgr.Config.WrittenRecords
import VpnMgr.Options.CleanContext
import VpnMgr.Options.Dispatch

/-!
# Connecting by a saved name

`add <name> <url> <options>` and later `connect <name>`, compared with
`connect <url> <options>`: what the saved configuration does not bring back.
-/

namespace VpnMgr.Options

open Machine Text CString LibUseful Config

/-! ## What the options leave -/

/-- The local privilege bits after an option. -/
def OptionKind.localBits : OptionKind → Bool × Bool → Bool × Bool
  | globalFlags cleared raised, (su, viaSudo) =>
      (su && !cleared.has flagLocalSu || raised.has flagLocalSu,
        viaSudo && !cleared.has flagLocalSudo || raised.has flagLocalSudo)
  | _, bits => bits

theorem localBits_applyOption (kind : OptionKind) (value : CPtr) (s : Settings) :
    localBits (applyOption kind value s).globalFlags = kind.localBits (localBits s.globalFlags) := by
  cases kind with
  | globalFlags cleared raised =>
      have bit : ∀ {mask : FlagWord}, FlagWord.IsBit mask →
          ((s.globalFlags.drop cleared).raise raised).has mask =
            (s.globalFlags.has mask && !cleared.has mask || raised.has mask) := by
        intro mask isBit
        rw [FlagWord.has_raise, FlagWord.has_drop_bit s.globalFlags cleared isBit]
      exact Prod.ext (bit localMethodPair.suBit) (bit localMethodPair.sudoBit)
  | text | mtu | lineSpeed | timeout | vpnFlag => rfl

theorem localBits_option {arg : CString} {kind : OptionKind} (known : optionKind arg = some kind)
    (bits : Bool × Bool) :
    kind.localBits bits = bits ∨ (kind.localBits bits).1 ≠ (kind.localBits bits).2 := by
  have table : ∀ kind ∈ optionTable.map Prod.snd, ∀ su viaSudo : Bool,
      kind.localBits (su, viaSudo) = (su, viaSudo) ∨
        (kind.localBits (su, viaSudo)).1 ≠ (kind.localBits (su, viaSudo)).2 := by
    decide +kernel
  obtain ⟨before, behind, split, -⟩ := List.lookup_eq_some_iff.mp known
  apply table
  rw [split, List.map_append, List.map_cons]
  exact List.mem_append_right _ List.mem_cons_self

theorem localMethods_congr {root : Bool} {flags next : FlagWord}
    (methods : LocalMethods root flags)
    (step : localBits next = localBits flags ∨ (localBits next).1 ≠ (localBits next).2) :
    LocalMethods root next := by
  rcases step with same | differ
  · obtain ⟨su, viaSudo⟩ := Prod.mk.inj same
    constructor
    · rw [su, viaSudo]
      exact methods.bothUnprivileged
    · rw [su, viaSudo]
      exact methods.noneRoot
  · constructor
    · intro su viaSudo
      exact absurd (su.trans viaSudo.symm) differ
    · intro su viaSudo
      exact absurd (su.trans viaSudo.symm) differ

theorem localMethods_applyOption {root : Bool} {arg : CString} {kind : OptionKind} {s : Settings}
    (methods : LocalMethods root s.globalFlags) (known : optionKind arg = some kind)
    (value : CPtr) : LocalMethods root (applyOption kind value s).globalFlags := by
  apply localMethods_congr methods
  rw [localBits_applyOption]
  exact localBits_option known _

theorem localMethods_parseOptions {root : Bool} {args : List CString} {s t : Settings}
    (parsed : parseOptions args s = some t) (methods : LocalMethods root s.globalFlags) :
    LocalMethods root t.globalFlags := by
  fun_induction parseOptions args s with
  | case1 s =>
      obtain rfl := Option.some.inj parsed
      exact methods
  | case2 arg rest s unknown inductionHypothesis => exact inductionHypothesis parsed methods
  | case3 arg s kind known takes needs => cases parsed
  | case4 arg s kind known takes optional =>
      obtain rfl := Option.some.inj parsed
      exact localMethods_applyOption methods known none
  | case5 arg s kind known takes value rest inductionHypothesis =>
      exact inductionHypothesis parsed (localMethods_applyOption methods known _)
  | case6 arg rest s kind known bare inductionHypothesis =>
      exact inductionHypothesis parsed (localMethods_applyOption methods known none)

/-- From clean words every string member is clean. -/
theorem cleanPtr_parseOptions {args : List CString} {s t : Settings}
    (parsed : parseOptions args s = some t) (clean : ∀ word ∈ args, Clean word) (field : TextField)
    (before : CleanPtr (field.get s.vpn)) : CleanPtr (field.get t.vpn) := by
  have cleanOptions := optionsGiven_clean clean
  have left := read_parseOptions (.text field) parsed
  cases given : lastGiven (optionGives (.text field)) (optionsGiven args) with
  | none =>
      rw [given] at left
      rw [SlotValue.text.inj left]
      exact before
  | some value =>
      obtain ⟨option, member, gives⟩ := exists_of_lastGiven _ given
      have isText : value = .text (some (copyStr option.2)) := by
        obtain ⟨kind, argument⟩ := option
        cases kind with
        | text other =>
            simp only [optionGives] at gives
            split at gives
            · exact (Option.some.inj gives).symm
            · cases gives
        | mtu | lineSpeed | timeout => cases gives
        | vpnFlag | globalFlags => cases gives
      rw [given, isText] at left
      rw [SlotValue.text.inj left]
      exact cleanPtr_some (clean_copyStr (cleanOptions option member))

/-! ## The copies of `add` -/

def keyField : KeyFile → TextField
  | .clientCert => .clientCert
  | .clientKey => .clientKey
  | .verifyCert => .verifyCert

theorem get_keyField (k : KeyFile) (vpn : TVpn) : (keyField k).get vpn = k.get vpn := by
  cases k <;> rfl

theorem set_keyField (k : KeyFile) (path : CString) (vpn : TVpn) :
    (keyField k).set vpn (some path) = k.set path vpn := by
  cases k <;> rfl

theorem keyField_injective {j k : KeyFile} (same : keyField j = keyField k) : j = k := by
  cases j <;> cases k <;> first | rfl | cases same

section Copies

variable (around : Surroundings)

/-- The name of a key file after `add`: that of the private copy, if the file is
there. -/
def privateCopy (s : Settings) (t : Disk) (k : KeyFile) (given : CPtr) : CPtr :=
  if pathValid around given (stateBefore around s t k).2 then
    some (keyPath around.currUserHomeDir s.vpn.name k)
  else given

variable {around}

theorem settings_copyKeyFile (k : KeyFile) (state : Settings × Disk) :
    (copyKeyFile around k state).1 =
      if pathValid around (k.get state.1.vpn) state.2 then
        let path := keyPath around.currUserHomeDir state.1.vpn.name k
        { state.1 with vpn := (keyField k).set state.1.vpn (some path) }
      else state.1 := by
  obtain ⟨s, t⟩ := state
  unfold copyKeyFile
  dsimp only
  split
  · rw [set_keyField]
  · rfl

theorem read_copyKeyFile (k : KeyFile) (state : Settings × Disk) {slot : Slot}
    (other : slot ≠ .text (keyField k)) :
    slot.read (copyKeyFile around k state).1 = slot.read state.1 := by
  rw [settings_copyKeyFile]
  split
  · rw [read_text, if_neg other]
  · rfl

theorem name_copyKeyFile (k : KeyFile) (state : Settings × Disk) :
    (copyKeyFile around k state).1.vpn.name = state.1.vpn.name := by
  rw [settings_copyKeyFile]
  split
  · exact (congrArg TVpn.name (set_keyField k _ _)).trans (k.set_name _ _)
  · rfl

theorem get_copyKeyFile (k : KeyFile) (state : Settings × Disk) :
    k.get (copyKeyFile around k state).1.vpn =
      if pathValid around (k.get state.1.vpn) state.2 then
        some (keyPath around.currUserHomeDir state.1.vpn.name k)
      else k.get state.1.vpn := by
  rw [settings_copyKeyFile]
  split
  · rw [← get_keyField, TextField.get_set, if_pos rfl]
  · rfl

theorem text_congr {field : TextField} {s t : Settings}
    (same : (Slot.text field).read s = (Slot.text field).read t) :
    field.get s.vpn = field.get t.vpn := SlotValue.text.inj same

theorem read_addConfig (s : Settings) (t : Disk) {slot : Slot}
    (other : ∀ k, slot ≠ .text (keyField k)) :
    slot.read (addConfig around s t).1 = slot.read s := by
  unfold addConfig
  dsimp only
  rw [read_copyKeyFile .verifyCert _ (other _), read_copyKeyFile .clientKey _ (other _),
    read_copyKeyFile .clientCert _ (other _)]

theorem get_addConfig (s : Settings) (t : Disk) (k : KeyFile) :
    k.get (addConfig around s t).1.vpn = privateCopy around s t k (k.get s.vpn) := by
  have kept : ∀ {j : KeyFile} (state : Settings × Disk), j ≠ k →
      k.get (copyKeyFile around j state).1.vpn = k.get state.1.vpn := by
    intro j state different
    rw [← get_keyField, ← get_keyField]
    apply text_congr
    apply read_copyKeyFile
    intro same
    exact different (keyField_injective (Slot.text.inj same)).symm
  unfold addConfig privateCopy
  dsimp only
  cases k with
  | clientCert =>
      rw [kept _ (by decide), kept _ (by decide), get_copyKeyFile]
      rfl
  | clientKey =>
      rw [kept _ (by decide), get_copyKeyFile, kept _ (by decide), name_copyKeyFile]
      rfl
  | verifyCert =>
      rw [get_copyKeyFile, kept _ (by decide), kept _ (by decide), name_copyKeyFile,
        name_copyKeyFile]
      rfl

end Copies

def savedSlots : List Slot :=
  [.server, .text .clientCert, .text .clientKey, .text .verifyCert, .text .confFile,
    .text .upFile, .text .downFile, .text .localAddress, .text .allowedIPs, .text .remoteDev,
    .text .clientID, .text .userName, .text .password, .text .remoteSearchPath, .text .dns,
    .timeout, .tcp, .localSu, .localSudo, .remoteSu, .remoteSudo]

theorem mem_savedSlots {home : CString} {slot : Slot} {setting : ConfigKey × CString}
    {given : SlotValue} (gives : settingGives home slot setting = some given) :
    slot ∈ savedSlots := by
  obtain ⟨key, value⟩ := setting
  have one : ∀ {other : Slot} {result : Option SlotValue}, other ∈ savedSlots →
      (if slot = other then result else none) = some given → slot ∈ savedSlots := by
    intro other result member found
    split at found
    next same => exact same ▸ member
    next => cases found
  have two : ∀ {first second : Slot} {result last : Option SlotValue}, first ∈ savedSlots →
      second ∈ savedSlots →
      (if slot = first then result else if slot = second then last else none) = some given →
        slot ∈ savedSlots := by
    intro first second result last inFirst inSecond found
    split at found
    next same => exact same ▸ inFirst
    next => exact one inSecond found
  cases key
  case remoteSU => exact two (by decide) (by decide) gives
  case localSU => exact two (by decide) (by decide) gives
  all_goals exact one (by decide) gives

theorem read_readConfig (home : CString) (file : CPtr) (s : Settings) {slot : Slot}
    (unsaved : slot ∉ savedSlots) : slot.read (readConfig home file s) = slot.read s := by
  have noList : slot ≠ .text .allowedIPs := by
    rintro rfl
    exact unsaved (by decide)
  have nothing : lastGiven (settingGives home slot) (fileSettings file) = none := by
    rw [lastGiven_eq_none_iff]
    intro setting _
    rw [Option.eq_none_iff_forall_ne_some]
    exact fun given gives => unsaved (mem_savedSlots gives)
  rw [readConfig_eq, storeRecords, read_foldl _ slot.read (settingGives home slot)
    (fun s setting => read_storeSetting home slot setting s noList), nothing, Option.getD_none]

def serverFields : List TextField := [.remoteAllowedIPs, .serverAuth]

def scriptFields : List TextField := [.upFile, .downFile]

/-- Client drivers read them, and `WriteConfig` does not write them. -/
def forgottenFields : List TextField := [.dev, .remoteAddress, .preSharedKey, .ciphers, .pppAuth]

def forgottenSwitches : List Slot := [.mtu, .lineSpeed, .verifyPeer, .noDns, .debug, .verbose]

def savedSwitches : List Slot := [.timeout, .tcp, .localSu, .localSudo, .remoteSu, .remoteSudo]

/-- The fields that go through `SaveFilePath` and `ReadFileConf`. -/
def pathFields : List TextField :=
  [.clientCert, .clientKey, .verifyCert, .confFile, .upFile, .downFile]

def givenLast (options : List CString) (slot : Slot) : Option SlotValue :=
  lastGiven (optionGives slot) (optionsGiven options)

/-- One connection as three command lines. -/
structure ThreeLines (root : Bool) (name url : CString) (options : List CString)
    (added direct fresh : Settings) : Prop where
  named : isServerURL name = false
  serves : isServerURL url = true
  clean : ∀ word ∈ name :: url :: options, Clean word
  adds : parseCommandLine root ("add".toList :: name :: url :: options) = some added
  connects : parseCommandLine root ("connect".toList :: url :: options) = some direct
  returns : parseCommandLine root ["connect".toList, name] = some fresh

/-- The texts that a driver should find by the name: a key file may be the
private copy. -/
def expectedText (around : Surroundings) (added direct : Settings) (t : Disk) :
    TextField → CPtr
  | .clientCert => privateCopy around added t .clientCert direct.vpn.clientCert
  | .clientKey => privateCopy around added t .clientKey direct.vpn.clientKey
  | .verifyCert => privateCopy around added t .verifyCert direct.vpn.verifyCert
  | field => field.get direct.vpn

/-- A client driver finds by the name what it finds by the URL, apart from the
default scripts. -/
structure ConnectsAlike (around : Surroundings) (options : List CString)
    (added direct connected : Settings) (t : Disk) : Prop where
  server : connected.vpn.server = direct.vpn.server
  texts : ∀ field, field ∉ serverFields →
    (field ∈ scriptFields → (givenLast options (.text field)).isSome = true) →
      copyStr (field.get connected.vpn) = copyStr (expectedText around added direct t field)
  switches : ∀ slot, slot ∈ forgottenSwitches ++ savedSwitches →
    slot.read connected = slot.read direct

/-- Reading gives the text back: no default takes its place, and it has no
literal `~/` that would be taken for the home directory. -/
structure ReadsBack (home : CString) (field : TextField) (value default : CPtr) : Prop where
  emptied : strValid value = false → strValid default = false
  tilde : field ∈ pathFields → hasPrefix "~/".toList (copyStr value) = true →
    hasPrefix (homePrefix home) (copyStr value) = true

/-- No option asks for what `add` forgets. -/
structure Remembered (around : Surroundings) (options : List CString)
    (added direct fresh : Settings) (t : Disk) : Prop where
  fields : ∀ field, field ∈ forgottenFields → ∀ value,
    givenLast options (.text field) = some (.text value) → strValid value = false
  switches : ∀ slot, slot ∈ forgottenSwitches → ∀ given, givenLast options slot = some given →
    given = slot.read fresh
  texts : ∀ field, field ∉ serverFields ++ forgottenFields →
    (field ∈ scriptFields → (givenLast options (.text field)).isSome = true) →
      ReadsBack around.currUserHomeDir field (expectedText around added direct t field)
        (field.get fresh.vpn)
  timeout : TimeoutStandsAlone direct

section Lines

variable {root : Bool} {name url : CString} {options : List CString}
  {added direct fresh : Settings}

theorem ne_nil_of_isServerURL (isURL : isServerURL url = true) : url ≠ [] := by
  rintro rfl
  exact absurd isURL (by decide)

theorem parseCommandLine_add (isURL : isServerURL url = true) :
    parseCommandLine root ("add".toList :: name :: url :: options) =
      (vpnCtxCreate "add".toList (some name) (some url)).bind fun vpn =>
        parseOptions options ⟨vpn, initialGlobalFlags root⟩ := by
  have words : commandWords ("add".toList :: name :: url :: options) =
      ⟨"add".toList, some name, some url, options⟩ := rfl
  have valid : commandLineValid "add".toList (some url) = true := by
    have isCommand : commandLineValid "add".toList (some url) =
        (!strValid (some url) || isServerURL url) := rfl
    rw [isCommand, isURL, Bool.or_true]
  simp only [parseCommandLine, words, valid, if_true]

theorem parseCommandLine_connectURL (isURL : isServerURL url = true) :
    parseCommandLine root ("connect".toList :: url :: options) =
      (vpnCtxCreate "connect".toList none (some url)).bind fun vpn =>
        parseOptions options ⟨vpn, initialGlobalFlags root⟩ := by
  have words : commandWords ("connect".toList :: url :: options) =
      ⟨"connect".toList, none, some url, options⟩ := by
    have either : commandWords ("connect".toList :: url :: options) =
        if isServerURL url then ⟨"connect".toList, none, some url, options⟩
        else ⟨"connect".toList, some url, some [], options⟩ := rfl
    rw [either, if_pos isURL]
  have valid : commandLineValid "connect".toList (some url) = true := by
    have isCommand : commandLineValid "connect".toList (some url) =
        (!strValid (some url) || isServerURL url) := rfl
    rw [isCommand, isURL, Bool.or_true]
  simp only [parseCommandLine, words, valid, if_true]

/-- New contexts differ in their names, servers and default scripts only. -/
theorem read_created {action other : CString} {name otherName server otherServer : CPtr}
    {vpn otherVpn : TVpn} (created : vpnCtxCreate action name server = some vpn)
    (otherCreated : vpnCtxCreate other otherName otherServer = some otherVpn) {slot : Slot}
    (notServer : slot ≠ .server)
    (noScript : ∀ field ∈ scriptFields, slot ≠ .text field ∨ name = otherName)
    (flags : FlagWord) : slot.read ⟨vpn, flags⟩ = slot.read ⟨otherVpn, flags⟩ := by
  unfold vpnCtxCreate at created otherCreated
  dsimp only at created otherCreated
  split at created
  · cases created
  split at otherCreated
  · cases otherCreated
  obtain rfl := Option.some.inj created
  obtain rfl := Option.some.inj otherCreated
  cases slot with
  | server => exact absurd rfl notServer
  | text field =>
      cases field with
      | upFile =>
          rcases noScript .upFile (by decide) with apart | rfl
          · exact absurd rfl apart
          · rfl
      | downFile =>
          rcases noScript .downFile (by decide) with apart | rfl
          · exact absurd rfl apart
          · rfl
      | _ => rfl
  | _ => rfl

theorem name_parseOptions {args : List CString} {s t : Settings}
    (parsed : parseOptions args s = some t) : t.vpn.name = s.vpn.name := by
  have step : ∀ (kind : OptionKind) value s, (applyOption kind value s).vpn.name = s.vpn.name := by
    intro kind value s
    cases kind with
    | text field => cases field <;> rfl
    | mtu | lineSpeed | timeout | vpnFlag | globalFlags => rfl
  rw [parseOptions_eq parsed]
  generalize optionsGiven args = options
  clear parsed
  induction options generalizing s with
  | nil => rfl
  | cons option options inductionHypothesis =>
      rw [List.foldl_cons, inductionHypothesis, step]

theorem server_parseOptions {args : List CString} {s t : Settings}
    (parsed : parseOptions args s = some t) : t.vpn.server = s.vpn.server := by
  have noOption : lastGiven (optionGives .server) (optionsGiven args) = none := by
    rw [lastGiven_eq_none_iff]
    exact fun option _ => optionGives_server option
  have left := read_parseOptions .server parsed
  rw [noOption] at left
  exact SlotValue.text.inj left

theorem words_created {action : CString} {name server : CPtr} {vpn : TVpn}
    (created : vpnCtxCreate action name server = some vpn) :
    vpn.name = some (copyStr name) ∧ vpn.server = some (copyStr server) := by
  unfold vpnCtxCreate at created
  dsimp only at created
  split at created
  · cases created
  · obtain rfl := Option.some.inj created
    exact ⟨rfl, rfl⟩

structure Starts (root : Bool) (name url : CString) (options : List CString)
    (added direct fresh : Settings) (addVpn directVpn freshVpn : TVpn) : Prop where
  add : vpnCtxCreate "add".toList (some name) (some url) = some addVpn
  added : parseOptions options ⟨addVpn, initialGlobalFlags root⟩ = some added
  connect : vpnCtxCreate "connect".toList none (some url) = some directVpn
  direct : parseOptions options ⟨directVpn, initialGlobalFlags root⟩ = some direct
  returns : vpnCtxCreate "connect".toList (some name) (some []) = some freshVpn
  fresh : fresh = ⟨freshVpn, initialGlobalFlags root⟩

theorem ThreeLines.exists_starts (lines : ThreeLines root name url options added direct fresh) :
    ∃ addVpn directVpn freshVpn,
      Starts root name url options added direct fresh addVpn directVpn freshVpn := by
  have adds := lines.adds
  have connects := lines.connects
  have returns := lines.returns
  rw [parseCommandLine_add lines.serves] at adds
  rw [parseCommandLine_connectURL lines.serves] at connects
  obtain ⟨addVpn, createdAdd, parsedAdd⟩ := Option.bind_eq_some_iff.mp adds
  obtain ⟨directVpn, createdDirect, parsedDirect⟩ := Option.bind_eq_some_iff.mp connects
  have created : vpnCtxCreate "connect".toList (some name) (some []) = some _ := rfl
  rw [parseCommandLine_connect lines.named created] at returns
  exact ⟨addVpn, directVpn, _, createdAdd, parsedAdd, createdDirect, parsedDirect, created,
    (Option.some.inj returns).symm⟩

namespace ThreeLines

variable (lines : ThreeLines root name url options added direct fresh)

include lines

theorem read_added {slot : Slot} (notServer : slot ≠ .server) :
    slot.read added = (givenLast options slot).getD (slot.read fresh) := by
  obtain ⟨addVpn, _, freshVpn, starts⟩ := lines.exists_starts
  have start := read_created starts.add starts.returns notServer
    (fun _ _ => .inr rfl) (initialGlobalFlags root)
  rw [read_parseOptions slot starts.added, start, starts.fresh]
  rfl

theorem read_direct {slot : Slot} (notServer : slot ≠ .server)
    (script : ∀ field ∈ scriptFields, slot = .text field → (givenLast options slot).isSome = true) :
    slot.read direct = slot.read added := by
  obtain ⟨_, directVpn, freshVpn, starts⟩ := lines.exists_starts
  rw [lines.read_added notServer, read_parseOptions slot starts.direct]
  change (givenLast options slot).getD _ = _
  cases given : givenLast options slot with
  | some value => rfl
  | none =>
      have apart : ∀ field ∈ scriptFields, slot ≠ .text field ∨ none = some name := by
        intro field isScript
        refine .inl fun same => ?_
        have isGiven := script field isScript same
        rw [given] at isGiven
        cases isGiven
      rw [starts.fresh]
      exact read_created starts.connect starts.returns notServer apart _

theorem server_added : added.vpn.server = some url := by
  obtain ⟨addVpn, _, _, starts⟩ := lines.exists_starts
  rw [server_parseOptions starts.added]
  exact (words_created starts.add).2

theorem server_direct : direct.vpn.server = some url := by
  obtain ⟨_, directVpn, _, starts⟩ := lines.exists_starts
  rw [server_parseOptions starts.direct]
  exact (words_created starts.connect).2

theorem name_added : added.vpn.name = some name := by
  obtain ⟨addVpn, _, _, starts⟩ := lines.exists_starts
  rw [name_parseOptions starts.added]
  exact (words_created starts.add).1

theorem fresh_reads (home : CString) (file : CPtr) :
    settingsToConnect home file fresh = readConfig home file fresh := by
  obtain ⟨_, _, freshVpn, starts⟩ := lines.exists_starts
  have noServer : strValid fresh.vpn.server = false := by
    rw [starts.fresh, (words_created starts.returns).2]
    rfl
  rw [settingsToConnect, noServer]
  rfl

theorem methods_added : LocalMethods root added.globalFlags := by
  obtain ⟨addVpn, _, _, starts⟩ := lines.exists_starts
  exact localMethods_parseOptions starts.added (LocalMethods.initial root)

theorem clean_added (field : TextField) : CleanPtr (field.get added.vpn) := by
  obtain ⟨addVpn, _, _, starts⟩ := lines.exists_starts
  have cleanName := cleanPtr_some (lines.clean name (by simp))
  have cleanServer := cleanPtr_some (lines.clean url (by simp))
  have context := cleanContext_create starts.add cleanName cleanServer
  apply cleanPtr_parseOptions starts.added fun word member => lines.clean word (by simp [member])
  by_cases isList : field = .allowedIPs
  · rw [isList]
    have unset := (vpnCtxCreate_fresh starts.add).2.2
    show CleanPtr addVpn.allowedIPs
    rw [unset]
    exact cleanPtr_none
  · exact context.fields field isList

end ThreeLines

end Lines

theorem savedPath_keyPath (home name : CString) (k : KeyFile) :
    savedPath (homePrefix home) (keyPath home (some name) k) =
      "~/".toList ++ (".config/vpn_mgr/".toList ++ (name ++ '/' :: (name ++ k.extension))) := by
  have inHome : keyPath home (some name) k = homePrefix home ++
      (".config/vpn_mgr/".toList ++ (name ++ '/' :: (name ++ k.extension))) := by
    simp only [keyPath, configDirText, mCopyStr_some, mCopyStr_nil, List.append_nil,
      List.append_assoc, homePrefix]
    rfl
  rw [inHome, savedPath_home]

theorem clean_savedPath_keyPath (home : CString) {name : CString} (clean : Clean name)
    (k : KeyFile) : Clean (savedPath (homePrefix home) (keyPath home (some name) k)) := by
  have ending : Clean k.extension := by cases k <;> decide
  have file : Clean ('/' :: (name ++ k.extension)) :=
    Clean.append (a := ['/']) (by decide) (clean.append ending)
  rw [savedPath_keyPath]
  exact Clean.append (by decide) (Clean.append (by decide) (clean.append file))

theorem field_of_fieldOf {key : ConfigKey} {field : TextField} (isField : fieldOf key = some field)
    (vpn : TVpn) : Config.field vpn key = field.get vpn := by
  cases key <;> cases isField <;> rfl

theorem exists_key {field : TextField} (isSaved : field ∉ serverFields ++ forgottenFields) :
    ∃ key ∈ savedKeys, fieldOf key = some field ∧ (key ∈ pathKeys ↔ field ∈ pathFields) := by
  have keys : ∀ key ∈ savedKeys, ∀ field, fieldOf key = some field →
      (key ∈ pathKeys ↔ field ∈ pathFields) := by
    intro key saved field isField
    revert saved
    cases key <;> cases isField <;> decide
  have found : ∃ key ∈ savedKeys, fieldOf key = some field := by
    revert isSaved
    cases field <;> decide
  obtain ⟨key, saved, isField⟩ := found
  exact ⟨key, saved, isField, keys key saved field isField⟩

theorem copyStr_eq_nil_iff (p : CPtr) : copyStr p = [] ↔ strValid p = false := by
  rcases p with _ | _ | ⟨c, rest⟩ <;> simp [copyStr]

/-- What comes back of a field is the value that was saved. -/
theorem readsBack_iff {home : CString} {key : ConfigKey} {field : TextField}
    (isPath : key ∈ pathKeys ↔ field ∈ pathFields) (value default : CPtr) :
    copyStr (if strValid value then some (readValue home key (savedValue home key (copyStr value)))
        else default) = copyStr value ↔
      ReadsBack home field value default := by
  cases set : strValid value with
  | false =>
      have empty := (copyStr_eq_nil_iff value).mpr set
      rw [if_neg Bool.false_ne_true, empty, copyStr_eq_nil_iff]
      refine ⟨fun clear => ⟨fun _ => clear, fun _ tilde => ?_⟩, fun back => back.emptied set⟩
      rw [empty] at tilde
      exact absurd tilde (by decide)
  | true =>
      rw [if_pos rfl, copyStr_some]
      by_cases path : key ∈ pathKeys
      · rw [readValue, if_pos path, savedValue_path home _ path, readFileConf_savedPath]
        exact ⟨fun inHome => ⟨fun clear => absurd (set.symm.trans clear) (by decide), fun _ => inHome⟩,
          fun back => back.tilde (isPath.mp path)⟩
      · rw [readValue, if_neg path, savedValue_other home _ path]
        exact iff_of_true rfl ⟨fun clear => absurd (set.symm.trans clear) (by decide),
          fun inPath => absurd (isPath.mpr inPath) path⟩

theorem switchesRestored_iff_read (s r : Settings) :
    SwitchesRestored s r ↔ ∀ slot ∈ savedSwitches, slot.read r = slot.read s := by
  simp only [SwitchesRestored, savedSwitches, List.forall_mem_cons, List.not_mem_nil,
    false_implies, implies_true, and_true, Slot.read, SlotValue.word.injEq, SlotValue.bit.injEq,
    localBits, remoteBits, methodBits, Prod.mk.injEq]
  tauto

theorem timeoutStandsAlone_congr {s t : Settings}
    (same : ∀ slot ∈ savedSwitches, slot.read s = slot.read t) :
    TimeoutStandsAlone s ↔ TimeoutStandsAlone t := by
  obtain ⟨timeout, tcp, locals, remotes⟩ := (switchesRestored_iff_read t s).mpr same
  unfold TimeoutStandsAlone
  rw [timeout, tcp, locals, remotes]

namespace ThreeLines

variable {around : Surroundings} {root : Bool} {name url : CString} {options : List CString}
  {added direct fresh : Settings} {t : Disk}
  (lines : ThreeLines root name url options added direct fresh)

include lines

theorem get_saved {field : TextField}
    (script : field ∈ scriptFields → (givenLast options (.text field)).isSome = true) :
    field.get (addConfig around added t).1.vpn = expectedText around added direct t field := by
  have same : field.get direct.vpn = field.get added.vpn := by
    apply text_congr
    apply lines.read_direct (by simp)
    intro other isScript isOther
    obtain rfl := Slot.text.inj isOther
    exact script isScript
  have key : ∀ k, field = keyField k →
      field.get (addConfig around added t).1.vpn =
        privateCopy around added t k (field.get direct.vpn) := by
    rintro k rfl
    rw [same, get_keyField, get_keyField, get_addConfig]
  cases field
  case clientCert => exact key .clientCert rfl
  case clientKey => exact key .clientKey rfl
  case verifyCert => exact key .verifyCert rfl
  all_goals
    refine Eq.trans (text_congr (read_addConfig added t fun k => ?_)) same.symm
    cases k <;> simp [keyField]

theorem read_saved {slot : Slot} (isSwitch : slot ∈ forgottenSwitches ++ savedSwitches) :
    slot.read (addConfig around added t).1 = slot.read direct := by
  have noText : ∀ field, slot ≠ .text field := by
    rintro field rfl
    simp [forgottenSwitches, savedSwitches] at isSwitch
  have notServer : slot ≠ .server := by
    rintro rfl
    exact absurd isSwitch (by decide)
  rw [read_addConfig added t fun k => noText _,
    lines.read_direct notServer fun field _ isField => absurd isField (noText field)]

theorem server_saved : (addConfig around added t).1.vpn.server = some url := by
  have kept : Slot.server.read (addConfig around added t).1 = Slot.server.read added :=
    read_addConfig added t fun k => by simp
  rw [SlotValue.text.inj kept, lines.server_added]

theorem writable_saved : Writable around.currUserHomeDir (addConfig around added t).1.vpn := by
  intro key saved set
  by_cases isServer : key = .server
  · subst isServer
    rw [savedValue_other _ _ (by decide)]
    show Clean (copyStr (addConfig around added t).1.vpn.server)
    rw [lines.server_saved]
    exact lines.clean url (by simp)
  obtain ⟨field, isField⟩ : ∃ field, fieldOf key = some field := by
    revert saved isServer
    cases key <;> simp [savedKeys, fieldOf]
  have given : Clean (copyStr (field.get added.vpn)) := clean_copyStr (lines.clean_added field)
  have value : ∀ text, Clean text → Clean (savedValue around.currUserHomeDir key text) := by
    intro text clean
    unfold savedValue
    split
    · exact savedPath_clean clean
    · exact clean
  rw [field_of_fieldOf isField]
  by_cases isKey : ∃ k, field = keyField k
  · obtain ⟨k, rfl⟩ := isKey
    have isPath : key ∈ pathKeys := by
      revert isField saved
      cases key <;> cases k <;> simp [fieldOf, keyField, pathKeys, savedKeys]
    rw [get_keyField, get_addConfig, privateCopy]
    split
    · rw [savedValue_path _ _ isPath, copyStr_some, lines.name_added]
      exact clean_savedPath_keyPath _ (lines.clean name (by simp)) k
    · rw [← get_keyField]
      exact value _ given
  · have kept : field.get (addConfig around added t).1.vpn = field.get added.vpn := by
      apply text_congr
      apply read_addConfig
      intro k same
      exact isKey ⟨k, Slot.text.inj same⟩
    rw [kept]
    exact value _ given

theorem served : strValid (addConfig around added t).1.vpn.server = true := by
  rw [lines.server_saved, strValid_some_iff]
  exact ne_nil_of_isServerURL lines.serves

theorem fresh_created : ∃ freshVpn, fresh = ⟨freshVpn, initialGlobalFlags root⟩ ∧
    vpnCtxCreate "connect".toList (some name) (some []) = some freshVpn ∧
      freshVpn.allowedIPs = none ∧
        ∀ field ∈ forgottenFields, strValid (field.get freshVpn) = false := by
  obtain ⟨_, _, freshVpn, starts⟩ := lines.exists_starts
  refine ⟨freshVpn, starts.fresh, starts.returns, (vpnCtxCreate_fresh starts.returns).2.2, ?_⟩
  obtain rfl := Option.some.inj starts.returns
  simp only [forgottenFields, List.forall_mem_cons, List.not_mem_nil, false_implies, implies_true,
    and_true]
  exact ⟨rfl, rfl, rfl, rfl, rfl⟩

variable {connected : Settings}
  (reads : connected = readConfig around.currUserHomeDir
    (some (writeConfig around.currUserHomeDir (addConfig around added t).1)) fresh)

include reads

omit lines in
theorem read_forgotten {slot : Slot} (unsaved : slot ∉ savedSlots) :
    slot.read connected = slot.read fresh := by
  rw [reads, read_readConfig _ _ _ unsaved]

theorem field_connected {key : ConfigKey} (saved : key ∈ savedKeys) :
    Config.field connected.vpn key =
      if strValid (Config.field (addConfig around added t).1.vpn key) then
        some (readValue around.currUserHomeDir key (savedValue around.currUserHomeDir key
          (copyStr (Config.field (addConfig around added t).1.vpn key))))
      else Config.field fresh.vpn key := by
  obtain ⟨freshVpn, isFresh, -, unset, -⟩ := lines.fresh_created
  rw [reads]
  apply field_readConfig_written lines.served lines.writable_saved fresh saved
  rw [isFresh]
  exact unset

theorem text_alike_iff {field : TextField} (isSaved : field ∉ serverFields ++ forgottenFields)
    (script : field ∈ scriptFields → (givenLast options (.text field)).isSome = true) :
    copyStr (field.get connected.vpn) = copyStr (expectedText around added direct t field) ↔
      ReadsBack around.currUserHomeDir field (expectedText around added direct t field)
        (field.get fresh.vpn) := by
  obtain ⟨key, saved, isField, isPath⟩ := exists_key isSaved
  have back := lines.field_connected reads saved
  rw [field_of_fieldOf isField, field_of_fieldOf isField, field_of_fieldOf isField,
    lines.get_saved script] at back
  rw [back]
  exact readsBack_iff isPath _ _

/-- A field that is not saved keeps its default, which is empty. -/
theorem forgotten_alike_iff {field : TextField} (isForgotten : field ∈ forgottenFields) :
    copyStr (field.get connected.vpn) = copyStr (field.get direct.vpn) ↔
      ∀ value, givenLast options (.text field) = some (.text value) → strValid value = false := by
  obtain ⟨freshVpn, isFresh, -, -, empty⟩ := lines.fresh_created
  have clear := empty field isForgotten
  have unsaved : Slot.text field ∉ savedSlots := by
    revert isForgotten
    cases field <;> decide
  have noScript : field ∉ scriptFields := by
    revert isForgotten
    cases field <;> decide
  have kept := text_congr (read_forgotten reads unsaved)
  have asAdded : (Slot.text field).read direct = (Slot.text field).read added :=
    lines.read_direct (by simp) fun other isScript isOther =>
      absurd (Slot.text.inj isOther ▸ isScript) noScript
  rw [lines.read_added (by simp)] at asAdded
  rw [kept, isFresh, (copyStr_eq_nil_iff _).mpr clear]
  rw [isFresh] at asAdded
  rw [eq_comm, copyStr_eq_nil_iff]
  cases given : givenLast options (.text field) with
  | none =>
      rw [given] at asAdded
      have same : field.get direct.vpn = field.get freshVpn := SlotValue.text.inj asAdded
      rw [same]
      exact iff_of_true clear fun value isGiven => by cases isGiven
  | some value =>
      rw [given, Option.getD_some] at asAdded
      rw [← asAdded]
      constructor
      · intro unset text same
        obtain rfl := SlotValue.text.inj (Option.some.inj same)
        exact unset
      · exact fun every => every _ rfl

theorem switches_alike_iff :
    (∀ slot ∈ savedSwitches, slot.read connected = slot.read direct) ↔
      TimeoutStandsAlone direct := by
  obtain ⟨freshVpn, isFresh, created, -, -⟩ := lines.fresh_created
  have same : ∀ slot ∈ savedSwitches,
      slot.read (addConfig around added t).1 = slot.read direct := fun slot isSwitch =>
    lines.read_saved (List.mem_append_right _ isSwitch)
  have methods : LocalMethods root (addConfig around added t).1.globalFlags :=
    localMethods_congr lines.methods_added <| .inl <| by
      obtain ⟨-, -, locals, -⟩ := (switchesRestored_iff_read added (addConfig around added t).1).mpr
        fun slot isSwitch => read_addConfig added t fun k => by
          rintro rfl
          simp [savedSwitches] at isSwitch
      exact locals
  have back := switches_readConfig_written lines.served lines.writable_saved methods created
  rw [← isFresh, ← reads, switchesRestored_iff_read, timeoutStandsAlone_congr same] at back
  rw [← back]
  exact forall₂_congr fun slot isSwitch => by rw [same slot isSwitch]

/-- By the name a driver finds what it finds by the URL exactly if no option
asks for what is forgotten. -/
theorem alike_iff :
    ConnectsAlike around options added direct connected t ↔
      Remembered around options added direct fresh t := by
  have switch : ∀ slot ∈ forgottenSwitches,
      slot.read connected = slot.read fresh ∧
        slot.read direct = (givenLast options slot).getD (slot.read fresh) := by
    intro slot isSwitch
    have unsaved : ∀ slot ∈ forgottenSwitches, slot ∉ savedSlots := by decide
    have notText : ∀ field, slot ≠ .text field := by
      rintro field rfl
      simp [forgottenSwitches] at isSwitch
    have notServer : slot ≠ .server := by
      rintro rfl
      exact absurd isSwitch (by decide)
    refine ⟨read_forgotten reads (unsaved slot isSwitch), ?_⟩
    rw [lines.read_direct notServer fun field _ isField => absurd isField (notText field),
      lines.read_added notServer]
  have expected : ∀ field ∈ forgottenFields,
      expectedText around added direct t field = field.get direct.vpn := by
    intro field isForgotten
    cases field <;> first | rfl | exact absurd isForgotten (by decide)
  constructor
  · intro alike
    refine ⟨fun field isForgotten => ?_, fun slot isSwitch given isGiven => ?_,
      fun field isSaved script => ?_, ?_⟩
    · have apart : field ∉ serverFields ∧ field ∉ scriptFields := by
        revert isForgotten
        cases field <;> decide
      have same := alike.texts field apart.1 fun isScript => absurd isScript apart.2
      rw [expected field isForgotten] at same
      exact (lines.forgotten_alike_iff reads isForgotten).mp same
    · have same := alike.switches slot (List.mem_append_left _ isSwitch)
      rw [(switch slot isSwitch).1, (switch slot isSwitch).2, isGiven] at same
      exact same.symm
    · rw [List.mem_append, not_or] at isSaved
      have same := alike.texts field isSaved.1 script
      exact (lines.text_alike_iff reads (by rwa [List.mem_append, not_or]) script).mp same
    · exact (lines.switches_alike_iff reads).mp fun slot isSwitch =>
        alike.switches slot (List.mem_append_right _ isSwitch)
  · intro remembered
    refine ⟨?_, fun field notServer script => ?_, fun slot isSwitch => ?_⟩
    · have isSaved : ConfigKey.server ∈ savedKeys := by decide
      have server : connected.vpn.server = some url := by
        refine (lines.field_connected reads isSaved).trans ?_
        change (if strValid (addConfig around added t).1.vpn.server = true then
          some (readValue _ ConfigKey.server (savedValue _ .server
            (copyStr (addConfig around added t).1.vpn.server))) else fresh.vpn.server) = _
        rw [if_pos lines.served, lines.server_saved, savedValue_other _ _ (by decide)]
        exact congrArg some (if_neg (by decide))
      rw [server, lines.server_direct]
    · by_cases isForgotten : field ∈ forgottenFields
      · rw [expected field isForgotten]
        exact (lines.forgotten_alike_iff reads isForgotten).mpr
          (remembered.fields field isForgotten)
      · have isSaved : field ∉ serverFields ++ forgottenFields := by
          rw [List.mem_append, not_or]
          exact ⟨notServer, isForgotten⟩
        exact (lines.text_alike_iff reads isSaved script).mpr
          (remembered.texts field isSaved script)
    · rcases List.mem_append.mp isSwitch with isForgotten | isSaved
      · obtain ⟨asFresh, isDirect⟩ := switch slot isForgotten
        rw [asFresh, isDirect]
        cases given : givenLast options slot with
        | none => rfl
        | some value => exact (remembered.switches slot isForgotten value given).symm
      · exact (lines.switches_alike_iff reads).mpr remembered.timeout slot isSaved

end ThreeLines

/-! ## After any commands -/

section History

variable {around : Surroundings} {t : Disk} {name url : CString} {options : List CString}
  {root : Bool} {added direct fresh : Settings}

theorem lastSaved_later (fuel : Nat) (before : List Settings) (isAdd : added.vpn.action = .add)
    (named : added.vpn.name = some name) (after : List Settings)
    (others : ∀ s ∈ after, s.vpn.name ≠ some name) :
    lastSaved around fuel t (before ++ added :: after) name =
      some (addConfig around added (storeAfter around fuel t before)).1 := by
  induction after using List.reverseRecOn with
  | nil =>
      rw [lastSaved_concat, if_pos named, contextSaved, isAdd]
  | append_singleton after s inductionHypothesis =>
      have other : s.vpn.name ≠ some name := others s (by simp)
      have shape : before ++ added :: (after ++ [s]) = (before ++ added :: after) ++ [s] := by simp
      rw [shape, lastSaved_concat, if_neg other]
      exact inductionHypothesis fun s member => others s (by simp [member])

theorem ThreeLines.action_added (lines : ThreeLines root name url options added direct fresh) :
    added.vpn.action = .add := by
  obtain ⟨addVpn, _, _, starts⟩ := lines.exists_starts
  rw [parseOptions_action starts.added]
  have created := starts.add
  unfold vpnCtxCreate at created
  dsimp only at created
  split at created
  · cases created
  · obtain rfl := Option.some.inj created
    rfl

/-- After any commands on a store that was empty, `connect <name>` finds for its
driver what `connect <url> <options>` finds, where `add <name> <url> <options>`
was the last command on the name, exactly if none of the options asks for what
is not saved. -/
theorem connectSaved_alike_iff {home : HomeDir} (homed : around.currUserHomeDir = home.text)
    (homePlain : ∀ c ∈ home.names, ∀ ch ∈ c, isPatternPlain ch = true) (fuel : Nat)
    (empty : EmptyStore home t) {before after : List Settings}
    (lines : ThreeLines root name url options added direct fresh)
    (stored : ∀ s ∈ before ++ added :: after, ∃ name server, StoreCommand s name server)
    (keeps : ∀ front s later, before ++ added :: after = front ++ s :: later →
      Keeps around home s (storeAfter around (fuel + 1) t front))
    (others : ∀ s ∈ after, s.vpn.name ≠ some name) :
    ConnectsAlike around options added direct
        (settingsToConnect around.currUserHomeDir
          (around.streamRead (readPath around.currUserHomeDir fresh.vpn.name)
            (storeAfter around (fuel + 1) t (before ++ added :: after))) fresh)
        (storeAfter around (fuel + 1) t before) ↔
      Remembered around options added direct fresh (storeAfter around (fuel + 1) t before) := by
  obtain ⟨represents, listable⟩ :=
    storeAfter_represents homed homePlain fuel empty (before ++ added :: after) stored keeps
  have isSaved : lastSaved around (fuel + 1) t (before ++ added :: after) name = some _ :=
    lastSaved_later (fuel + 1) before lines.action_added lines.name_added after others
  obtain ⟨freshVpn, isFresh, created, -, -⟩ := lines.fresh_created
  have named : fresh.vpn.name = some name := by
    rw [isFresh, (words_created created).1]
    rfl
  have file := streamRead_config represents isSaved (listable name _ isSaved)
  rw [named, homed, file, ← homed]
  exact lines.alike_iff (lines.fresh_reads _ _)

end History

theorem emptyStore_empty (home : HomeDir) : EmptyStore home FileTree.empty := by
  refine ⟨fun p _ => ?_, fun name => ?_⟩
  · by_cases root : p = []
    · exact .inr (FileTree.isDir_iff.mpr (root ▸ FileTree.entry_root))
    · left
      rw [FileTree.entry, if_neg root]
      rfl
  · rw [FileTree.entry, if_neg (by simp [HomeDir.configDir])]
    rfl

def bobAdded : Settings := alsCommand ["add", "w", "wg:10.1.1.1", "-user", "bob"]

theorem parsed_alsCommand (words : List String)
    (parses : (parseCommandLine true (words.map String.toList)).isSome = true) :
    parseCommandLine true (words.map String.toList) = some (alsCommand words) := by
  obtain ⟨s, parsed⟩ := Option.isSome_iff_exists.mp parses
  rw [alsCommand, parsed, Option.getD_some]

theorem connectSaved_alike_iff_bob :
    let t := FileTree.empty
    let direct := alsCommand ["connect", "wg:10.1.1.1", "-user", "bob"]
    let fresh := alsCommand ["connect", "w"]
    ConnectsAlike alsWorld asBob bobAdded direct
        (settingsToConnect alsWorld.currUserHomeDir
          (alsWorld.streamRead (readPath alsWorld.currUserHomeDir fresh.vpn.name)
            (storeAfter alsWorld 1 t ([] ++ [bobAdded]))) fresh)
        (storeAfter alsWorld 1 t []) ↔
      Remembered alsWorld asBob bobAdded direct fresh (storeAfter alsWorld 1 t []) := by
  intro t direct fresh
  have lines : ThreeLines true "w".toList "wg:10.1.1.1".toList asBob bobAdded direct fresh :=
    { named := by decide
      serves := by decide
      clean := by decide
      adds := parsed_alsCommand ["add", "w", "wg:10.1.1.1", "-user", "bob"] (by decide +kernel)
      connects := parsed_alsCommand ["connect", "wg:10.1.1.1", "-user", "bob"] (by decide +kernel)
      returns := parsed_alsCommand ["connect", "w"] (by decide +kernel) }
  apply @connectSaved_alike_iff alsWorld t _ _ _ _ _ _ _ alsRoot rfl ?_ 0 ?_ [] [] lines
  · intro s member
    obtain rfl := List.mem_singleton.mp member
    exact ⟨"w".toList, "wg:10.1.1.1".toList, storeCommand_of_checked (by decide)⟩
  · intro front s later split name saved named isSaved
    rcases front with _ | ⟨first, front⟩
    · obtain rfl := (List.cons.inj split).1
      obtain rfl := Option.some.inj named
      obtain rfl := Option.some.inj isSaved
      exact ⟨by decide, by decide, rfl, rfl, by decide, .inl (by decide +kernel)⟩
    · simp at split
  · intro s member
    cases member
  · intro c member
    obtain rfl := List.mem_singleton.mp member
    exact List.all_eq_true.mp (by decide)
  · exact emptyStore_empty alsRoot

end VpnMgr.Options
