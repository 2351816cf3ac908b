import VpnMgr.Config.FileSettings
import VpnMgr.Machine.LastWrite
import VpnMgr.Options

/-!
# Options and the saved configuration

`connect <name> <options>` fills the context from the options first and from
the file of the name afterwards.  What each of the two passes gives to each
place of the context says which of them wins.
-/

namespace VpnMgr.Options

open Machine Text CString LibUseful Config

/-- A place that an option or a saved setting can change: a member of `TVpn`,
or one bit of a flag word. -/
inductive Slot where
  | server
  | text (field : TextField)
  | mtu
  | lineSpeed
  | timeout
  | tcp
  | verifyPeer
  | localSu
  | localSudo
  | remoteSu
  | remoteSudo
  | noDns
  | debug
  | verbose
  deriving DecidableEq

/-- What stands in a slot. -/
inductive SlotValue where
  | text (value : CPtr)
  | word (value : BitVec 32)
  | bit (value : Bool)
  deriving DecidableEq

namespace Slot

/-- The bit of `GlobalFlags` behind a slot. -/
def globalBit : Slot → Option FlagWord
  | localSu => some flagLocalSu
  | localSudo => some flagLocalSudo
  | remoteSu => some flagRemoteSu
  | remoteSudo => some flagRemoteSudo
  | noDns => some flagNoDns
  | debug => some flagDebug
  | verbose => some flagVerbose
  | _ => none

/-- The bit of `Vpn->Flags` behind a slot. -/
def vpnBit : Slot → Option FlagWord
  | tcp => some vpnTcp
  | verifyPeer => some vpnVerifyPeer
  | _ => none

def read (s : Settings) : Slot → SlotValue
  | server => .text s.vpn.server
  | text field => .text (field.get s.vpn)
  | mtu => .word s.vpn.mtu
  | lineSpeed => .word s.vpn.lineSpeed
  | timeout => .word s.vpn.timeout
  | tcp => .bit (s.vpn.flags.has vpnTcp)
  | verifyPeer => .bit (s.vpn.flags.has vpnVerifyPeer)
  | localSu => .bit (s.globalFlags.has flagLocalSu)
  | localSudo => .bit (s.globalFlags.has flagLocalSudo)
  | remoteSu => .bit (s.globalFlags.has flagRemoteSu)
  | remoteSudo => .bit (s.globalFlags.has flagRemoteSudo)
  | noDns => .bit (s.globalFlags.has flagNoDns)
  | debug => .bit (s.globalFlags.has flagDebug)
  | verbose => .bit (s.globalFlags.has flagVerbose)

end Slot

/-! ## What the options give -/

/-- The bit that clearing `cleared` and raising `raised` gives to `bit`. -/
def bitGiven (cleared raised bit : FlagWord) : Option SlotValue :=
  if raised.has bit then some (.bit true)
  else if cleared.has bit then some (.bit false)
  else none

/-- What an option gives to a slot. -/
def optionGives (slot : Slot) (option : OptionKind × CPtr) : Option SlotValue :=
  match option.1 with
  | .text field => if slot = .text field then some (.text (some (copyStr option.2))) else none
  | .mtu => if slot = .mtu then some (.word (atoi (copyStr option.2))) else none
  | .lineSpeed => if slot = .lineSpeed then some (.word (atoi (copyStr option.2))) else none
  | .timeout =>
      if slot = .timeout then some (.word ((parseDuration (copyStr option.2)).setWidth 32))
      else none
  | .vpnFlag mask => slot.vpnBit.bind (bitGiven 0 mask)
  | .globalFlags cleared raised => slot.globalBit.bind (bitGiven cleared raised)

/-- The options of a command line with their values. -/
def optionsGiven : List CString → List (OptionKind × CPtr)
  | [] => []
  | arg :: rest =>
      match optionKind arg with
      | none => optionsGiven rest
      | some kind =>
          if kind.takesValue then
            match rest with
            | [] => [(kind, none)]
            | value :: rest => (kind, some value) :: optionsGiven rest
          else (kind, none) :: optionsGiven rest

theorem parseOptions_eq {args : List CString} {s t : Settings} (parsed : parseOptions args s = some t) :
    t = (optionsGiven args).foldl (fun s option => applyOption option.1 option.2 s) s := by
  fun_induction parseOptions args s with
  | case1 s => exact (Option.some.inj parsed).symm
  | case2 arg rest s unknown inductionHypothesis =>
      simpa [optionsGiven, unknown] using inductionHypothesis parsed
  | case3 arg s kind known takes needs => exact absurd parsed (by simp)
  | case4 arg s kind known takes optional =>
      simpa [optionsGiven, known, takes] using (Option.some.inj parsed).symm
  | case5 arg s kind known takes value rest inductionHypothesis =>
      simpa [optionsGiven, known, takes] using inductionHypothesis parsed
  | case6 arg rest s kind known bare inductionHypothesis =>
      simpa [optionsGiven, known, bare] using inductionHypothesis parsed

theorem TextField.get_set (vpn : TVpn) (value : CPtr) (field other : TextField) :
    other.get (field.set vpn value) = if field = other then value else other.get vpn := by
  cases field <;> cases other <;> rfl

theorem bitGiven_read {flags cleared raised bit : FlagWord} (isBit : FlagWord.IsBit bit) :
    SlotValue.bit (((flags.drop cleared).raise raised).has bit) =
      (bitGiven cleared raised bit).getD (.bit (flags.has bit)) := by
  rw [FlagWord.has_raise, FlagWord.has_drop_bit flags cleared isBit, bitGiven]
  cases raised.has bit <;> cases cleared.has bit <;> simp

theorem Slot.globalBit_isBit {slot : Slot} {bit : FlagWord} (isSlot : slot.globalBit = some bit) :
    FlagWord.IsBit bit ∧ ∀ s, slot.read s = .bit (s.globalFlags.has bit) := by
  cases slot <;> cases isSlot
  all_goals refine ⟨?_, fun _ => rfl⟩
  · exact ⟨1, by decide⟩
  · exact ⟨2, by decide⟩
  · exact ⟨3, by decide⟩
  · exact ⟨4, by decide⟩
  · exact ⟨5, by decide⟩
  · exact ⟨11, by decide⟩
  · exact ⟨12, by decide⟩

theorem Slot.vpnBit_isBit {slot : Slot} {bit : FlagWord} (isSlot : slot.vpnBit = some bit) :
    FlagWord.IsBit bit ∧ ∀ s, slot.read s = .bit (s.vpn.flags.has bit) := by
  cases slot <;> cases isSlot
  all_goals refine ⟨?_, fun _ => rfl⟩
  · exact ⟨1, by decide⟩
  · exact ⟨2, by decide⟩

theorem TextField.set_others (vpn : TVpn) (value : CPtr) (field : TextField) :
    (field.set vpn value).server = vpn.server ∧ (field.set vpn value).mtu = vpn.mtu ∧
      (field.set vpn value).lineSpeed = vpn.lineSpeed ∧
      (field.set vpn value).timeout = vpn.timeout ∧ (field.set vpn value).flags = vpn.flags := by
  cases field <;> exact ⟨rfl, rfl, rfl, rfl, rfl⟩

theorem read_text (slot : Slot) (field : TextField) (value : CPtr) (s : Settings) :
    slot.read { s with vpn := field.set s.vpn value } =
      if slot = .text field then .text value else slot.read s := by
  obtain ⟨server, mtu, lineSpeed, timeout, flags⟩ := field.set_others s.vpn value
  cases slot
  case text other =>
    by_cases same : field = other
    · simp [Slot.read, TextField.get_set, same]
    · simp [Slot.read, TextField.get_set, same, Ne.symm same]
  all_goals simp [Slot.read, *]

theorem read_vpnFlags (slot : Slot) (flags : FlagWord) (s : Settings) :
    slot.read { s with vpn := { s.vpn with flags := flags } } =
      match slot.vpnBit with
      | some bit => .bit (flags.has bit)
      | none => slot.read s := by
  cases slot <;> rfl

theorem read_globalFlags (slot : Slot) (flags : FlagWord) (s : Settings) :
    slot.read { s with globalFlags := flags } =
      match slot.globalBit with
      | some bit => .bit (flags.has bit)
      | none => slot.read s := by
  cases slot <;> rfl

/-- An option gives a slot its value, or leaves it. -/
theorem read_applyOption (slot : Slot) (option : OptionKind × CPtr) (s : Settings) :
    slot.read (applyOption option.1 option.2 s) = (optionGives slot option).getD (slot.read s) := by
  obtain ⟨kind, value⟩ := option
  cases kind with
  | text field =>
      simp only [applyOption, read_text, optionGives]
      split <;> rfl
  | mtu => cases slot <;> rfl
  | lineSpeed => cases slot <;> rfl
  | timeout => cases slot <;> rfl
  | vpnFlag mask =>
      simp only [applyOption, read_vpnFlags, optionGives]
      cases isSlot : slot.vpnBit with
      | none => rfl
      | some bit =>
          obtain ⟨isBit, reads⟩ := Slot.vpnBit_isBit isSlot
          have same := @bitGiven_read s.vpn.flags 0 mask bit isBit
          rw [FlagWord.drop_zero] at same
          simpa [reads] using same
  | globalFlags cleared raised =>
      simp only [applyOption, read_globalFlags, optionGives]
      cases isSlot : slot.globalBit with
      | none => rfl
      | some bit =>
          obtain ⟨isBit, reads⟩ := Slot.globalBit_isBit isSlot
          simpa [reads] using @bitGiven_read s.globalFlags cleared raised bit isBit

theorem read_parseOptions (slot : Slot) {args : List CString} {s t : Settings}
    (parsed : parseOptions args s = some t) :
    slot.read t = (lastGiven (optionGives slot) (optionsGiven args)).getD (slot.read s) := by
  rw [parseOptions_eq parsed]
  exact read_foldl _ slot.read (optionGives slot) (fun s option => read_applyOption slot option s)
    (optionsGiven args) s

/-- The string member behind a setting. -/
def fieldOf : ConfigKey → Option TextField
  | .clientCert => some .clientCert
  | .clientKey => some .clientKey
  | .verifyCert | .serverCert => some .verifyCert
  | .confFile => some .confFile
  | .upFile => some .upFile
  | .downFile => some .downFile
  | .localAddress => some .localAddress
  | .allowedIPs => some .allowedIPs
  | .remoteDev => some .remoteDev
  | .clientID => some .clientID
  | .userName => some .userName
  | .password => some .password
  | .remoteSearchPath => some .remoteSearchPath
  | .dns => some .dns
  | .server | .timeout | .protocol | .remoteSU | .localSU => none

def textGiven (home : CString) (key : ConfigKey) (value : CString) : CString :=
  if key = .serverCert then readFileConf home value else readValue home key value

/-- What a setting of the file gives to a slot; `AllowedIPs` adds to what the
slot holds instead. -/
def settingGives (home : CString) (slot : Slot) (setting : ConfigKey × CString) :
    Option SlotValue :=
  let (key, value) := setting
  match fieldOf key with
  | some field => if slot = .text field then some (.text (some (textGiven home key value))) else none
  | none =>
      match key with
      | .server => if slot = .server then some (.text (some value)) else none
      | .timeout =>
          if slot = .timeout then some (.word ((parseDuration value).setWidth 32)) else none
      | .protocol => if slot = .tcp then some (.bit true) else none
      | .remoteSU =>
          if slot = .remoteSu then some (.bit (value = "su".toList))
          else if slot = .remoteSudo then some (.bit (value = "sudo".toList))
          else none
      | .localSU =>
          if slot = .localSu then some (.bit (value = "su".toList))
          else if slot = .localSudo then some (.bit (value = "sudo".toList))
          else none
      | _ => none

theorem storeSetting_field {home value : CString} {s : Settings} {key : ConfigKey}
    {field : TextField} (isField : fieldOf key = some field) (notAllowed : key ≠ .allowedIPs) :
    storeSetting home key value s =
      { s with vpn := field.set s.vpn (some (textGiven home key value)) } := by
  cases key <;> cases isField <;> first | rfl | exact absurd rfl notAllowed

theorem read_chooseMethod {su viaSudo : FlagWord} (pair : MethodPair su viaSudo)
    {suSlot sudoSlot : Slot} (isSu : suSlot.globalBit = some su)
    (isSudo : sudoSlot.globalBit = some viaSudo)
    (apart : ∀ slot : Slot, slot ≠ suSlot → slot ≠ sudoSlot → ∀ bit, slot.globalBit = some bit →
      su.has bit = false ∧ viaSudo.has bit = false)
    (slot : Slot) (value : CString) (s : Settings) :
    slot.read { s with globalFlags := chooseMethod su viaSudo value s.globalFlags } =
      (if slot = suSlot then some (SlotValue.bit (value = "su".toList))
      else if slot = sudoSlot then some (.bit (value = "sudo".toList))
      else none).getD (slot.read s) := by
  obtain ⟨suBit, sudoBit⟩ := pair.chooseMethod_has value s.globalFlags
  rw [read_globalFlags]
  by_cases here : slot = suSlot
  · simp [here, isSu, suBit]
  by_cases there : slot = sudoSlot
  · rw [if_neg here, if_pos there]
    simp only [there, isSudo, sudoBit, Option.getD_some]
  · simp only [here, there, if_false, Option.getD_none]
    cases isBit : slot.globalBit with
    | none => rfl
    | some bit =>
        obtain ⟨suApart, sudoApart⟩ := apart slot here there bit isBit
        simp only [chooseMethod_has_of_apart value s.globalFlags suApart sudoApart,
          (Slot.globalBit_isBit isBit).2 s]

/-- A setting gives a slot its value, or leaves it; the list of addresses aside. -/
theorem read_storeSetting (home : CString) (slot : Slot) (setting : ConfigKey × CString)
    (s : Settings) (notList : slot ≠ .text .allowedIPs) :
    slot.read (storeSetting home setting.1 setting.2 s) =
      (settingGives home slot setting).getD (slot.read s) := by
  obtain ⟨key, value⟩ := setting
  cases isField : fieldOf key with
  | some field =>
      simp only [settingGives, isField]
      by_cases isList : key = .allowedIPs
      · subst isList
        obtain rfl : TextField.allowedIPs = field := Option.some.inj isField
        have kept := read_text slot .allowedIPs (some (commaList s.vpn.allowedIPs (some value))) s
        rw [if_neg notList] at kept
        rw [if_neg notList]
        exact kept
      · rw [storeSetting_field isField isList, read_text]
        split <;> rfl
  | none =>
      cases key <;> cases isField
      case none.server.refl => cases slot <;> rfl
      case none.timeout.refl => cases slot <;> rfl
      case none.protocol.refl =>
        simp only [storeSetting, read_vpnFlags, settingGives]
        cases slot
        case tcp => simp [fieldOf, Slot.vpnBit, show vpnTcp.has vpnTcp = true from rfl]
        case verifyPeer =>
          simp [fieldOf, Slot.vpnBit, Slot.read, show vpnTcp.has vpnVerifyPeer = false from rfl]
        all_goals rfl
      case none.remoteSU.refl =>
        refine read_chooseMethod remoteMethodPair rfl rfl ?_ slot value s
        intro slot notSu notSudo bit isBit
        cases slot <;> cases isBit <;> first | contradiction | decide
      case none.localSU.refl =>
        refine read_chooseMethod localMethodPair rfl rfl ?_ slot value s
        intro slot notSu notSudo bit isBit
        cases slot <;> cases isBit <;> first | contradiction | decide

/-! ## Which of the two wins -/

/-- The file leaves a slot at `value`: its last setting of the slot, if there
is one, gives just that.  To a list of addresses it adds nothing. -/
def Settled (home : CString) (settings : List (ConfigKey × CString)) (slot : Slot)
    (value : SlotValue) : Prop :=
  if slot = .text .allowedIPs then
    ∀ setting ∈ settings, setting.1 = .allowedIPs →
      value = .text (some []) ∧ setting.2 = []
  else ∀ given, lastGiven (settingGives home slot) settings = some given → given = value

theorem storeRecords_cons (home : CString) (setting : ConfigKey × CString)
    (settings : List (ConfigKey × CString)) (s : Settings) :
    storeRecords home (setting :: settings) s =
      storeRecords home settings (storeSetting home setting.1 setting.2 s) := rfl

theorem storeRecords_allowedIPs_grows (home : CString) (settings : List (ConfigKey × CString))
    (s : Settings) :
    (copyStr s.vpn.allowedIPs).length ≤
      (copyStr (storeRecords home settings s).vpn.allowedIPs).length := by
  induction settings generalizing s with
  | nil => exact le_rfl
  | cons setting settings inductionHypothesis =>
      exact (storeSetting_allowedIPs_grows home setting.2 setting.1 s).trans
        (inductionHypothesis _)

/-- A list of addresses survives the file if the file adds nothing to it. -/
theorem storeRecords_allowedIPs_iff (home list : CString)
    (settings : List (ConfigKey × CString)) (s : Settings) (listed : s.vpn.allowedIPs = some list) :
    (storeRecords home settings s).vpn.allowedIPs = some list ↔
      ∀ setting ∈ settings, setting.1 = .allowedIPs → list = [] ∧ setting.2 = [] := by
  induction settings generalizing s with
  | nil => exact iff_of_true listed (by simp)
  | cons setting settings inductionHypothesis =>
      obtain ⟨key, value⟩ := setting
      rw [storeRecords_cons, List.forall_mem_cons]
      by_cases isList : key = .allowedIPs
      · subst isList
        have stored : (storeSetting home .allowedIPs value s).vpn.allowedIPs =
            some (commaList (some list) (some value)) := by
          rw [← listed]
          rfl
        simp only [true_implies]
        by_cases empty : list = [] ∧ value = []
        · simp only [empty, true_and, and_self]
          obtain ⟨rfl, rfl⟩ := empty
          simpa using inductionHypothesis _ stored
        · simp only [empty, false_and, iff_false]
          intro kept
          have grown := storeRecords_allowedIPs_grows home settings
            (storeSetting home .allowedIPs value s)
          rw [kept, stored, copyStr_some, copyStr_some] at grown
          have longer : list.length < (commaList (some list) (some value)).length := by
            cases list with
            | nil =>
                have nonempty : value ≠ [] := fun none => empty ⟨rfl, none⟩
                simpa [commaList] using List.length_pos_of_ne_nil nonempty
            | cons c rest => simp [commaList, mCatStr]
          omega
      · have kept : (storeSetting home key value s).vpn.allowedIPs = some list := by
          rw [← listed]
          cases key <;> first | rfl | exact absurd rfl isList
        simp only [isList, false_implies, true_and]
        exact inductionHypothesis _ kept

theorem storeRecords_allowedIPs_congr (home : CString) (settings : List (ConfigKey × CString))
    {s t : Settings} (same : s.vpn.allowedIPs = t.vpn.allowedIPs) :
    (storeRecords home settings s).vpn.allowedIPs =
      (storeRecords home settings t).vpn.allowedIPs := by
  induction settings generalizing s t with
  | nil => exact same
  | cons setting settings inductionHypothesis =>
      refine inductionHypothesis ?_
      obtain ⟨key, value⟩ := setting
      cases key
      case allowedIPs =>
        exact congrArg (fun list : CPtr => some (commaList list (some value))) same
      all_goals exact same

theorem settled_iff {home : CString} {settings : List (ConfigKey × CString)} {slot : Slot}
    {s : Settings} {value : SlotValue} (holds : slot.read s = value)
    (set : slot = .text .allowedIPs → ∃ list, value = .text (some list)) :
    slot.read (storeRecords home settings s) = value ↔ Settled home settings slot value := by
  by_cases isList : slot = .text .allowedIPs
  · subst isList
    obtain ⟨list, rfl⟩ := set rfl
    have listed : s.vpn.allowedIPs = some list := by simpa [Slot.read, TextField.get] using holds
    simp only [Settled, if_true, Slot.read, TextField.get, SlotValue.text.injEq]
    simpa using storeRecords_allowedIPs_iff home list settings s listed
  · rw [Settled, if_neg isList, storeRecords, read_foldl _ slot.read (settingGives home slot)
      (fun s setting => read_storeSetting home slot setting s isList), holds]
    cases lastGiven (settingGives home slot) settings <;> simp

theorem optionGives_list {option : OptionKind × CPtr} {value : SlotValue}
    (gives : optionGives (.text .allowedIPs) option = some value) :
    ∃ list, value = .text (some list) := by
  obtain ⟨kind, argument⟩ := option
  cases kind
  case text field =>
    simp only [optionGives] at gives
    split at gives
    · exact ⟨_, (Option.some.inj gives).symm⟩
    · exact absurd gives (by simp)
  all_goals simp [optionGives, Slot.vpnBit, Slot.globalBit] at gives

theorem commandWords_connect (name : CString) (options : List CString)
    (plain : isServerURL name = false) :
    commandWords ("connect".toList :: name :: options) =
      ⟨"connect".toList, some name, some [], options⟩ := by
  have reduced : commandWords ("connect".toList :: name :: options) =
      if isServerURL name then ⟨"connect".toList, none, some name, options⟩
      else ⟨"connect".toList, some name, some [], options⟩ := rfl
  rw [reduced, plain]
  rfl

theorem parseCommandLine_connect {root : Bool} {name : CString} {options : List CString}
    {fresh : TVpn} (plain : isServerURL name = false)
    (created : vpnCtxCreate "connect".toList (some name) (some []) = some fresh) :
    parseCommandLine root ("connect".toList :: name :: options) =
      parseOptions options ⟨fresh, initialGlobalFlags root⟩ := by
  have valid : commandLineValid "connect".toList (some []) = true := by decide
  simp only [parseCommandLine, commandWords_connect name options plain, valid, created, if_true,
    Option.bind_some]

theorem optionGives_server (option : OptionKind × CPtr) : optionGives .server option = none := by
  obtain ⟨kind, argument⟩ := option
  cases kind <;> simp [optionGives, Slot.vpnBit, Slot.globalBit]

/-- An explicit option keeps its value, and a slot that no option gives has the
saved value, exactly if the last saved setting of each given slot agrees with
the option. -/
theorem explicit_wins_iff {root : Bool} {home name : CString} {file : CPtr} {fresh : TVpn}
    {options : List CString} {s : Settings} (plain : isServerURL name = false)
    (created : vpnCtxCreate "connect".toList (some name) (some []) = some fresh)
    (parsed : parseCommandLine root ("connect".toList :: name :: options) = some s) :
    (∀ slot : Slot, slot.read (settingsToConnect home file s) =
        (lastGiven (optionGives slot) (optionsGiven options)).getD
          (slot.read (readConfig home file ⟨fresh, initialGlobalFlags root⟩))) ↔
      ∀ (slot : Slot) (value : SlotValue),
        lastGiven (optionGives slot) (optionsGiven options) = some value →
          Settled home (fileSettings file) slot value := by
  rw [parseCommandLine_connect plain created] at parsed
  have noServer : s.vpn.server = some [] := by
    have read := read_parseOptions .server parsed
    have none : lastGiven (optionGives .server) (optionsGiven options) = none := by
      simp [lastGiven, optionGives_server]
    have fresh : fresh.server = some [] := by
      rw [← Option.some.inj created]
      rfl
    simpa [none, Slot.read, fresh] using read
  have settings : settingsToConnect home file s = storeRecords home (fileSettings file) s := by
    rw [settingsToConnect, noServer, readConfig_eq]
    rfl
  rw [settings, readConfig_eq]
  refine forall_congr' fun slot => ?_
  have filled := read_parseOptions slot parsed
  cases given : lastGiven (optionGives slot) (optionsGiven options) with
  | none =>
      rw [given, Option.getD_none] at filled
      refine iff_of_true ?_ (by simp)
      rw [Option.getD_none]
      by_cases isList : slot = .text .allowedIPs
      · subst isList
        simp only [Slot.read, TextField.get, SlotValue.text.injEq] at filled ⊢
        exact storeRecords_allowedIPs_congr home (fileSettings file) filled
      · have folded := fun s => read_foldl (fun s (setting : ConfigKey × CString) =>
          storeSetting home setting.1 setting.2 s) slot.read (settingGives home slot)
          (fun s setting => read_storeSetting home slot setting s isList) (fileSettings file) s
        rw [storeRecords, storeRecords, folded, folded, filled]
  | some value =>
      rw [given, Option.getD_some] at filled
      have list : slot = .text .allowedIPs → ∃ list, value = .text (some list) := by
        rintro rfl
        obtain ⟨option, -, gives⟩ := List.mem_filterMap.mp (List.mem_of_getLast? given)
        exact optionGives_list gives
      simpa using settled_iff filled list

/-- A saved user name, as `WriteConfig` writes it. -/
def savedUser : CPtr := some "Server=wg:10.1.1.1\nUserName=al\n".toList

def asBob : List CString := ["-user".toList, "bob".toList]

theorem explicit_wins_iff_asBob : ∃ fresh s,
    vpnCtxCreate "connect".toList (some "work".toList) (some []) = some fresh ∧
      ((∀ slot : Slot, slot.read (settingsToConnect "/home/u".toList savedUser s) =
          (lastGiven (optionGives slot) (optionsGiven asBob)).getD
            (slot.read (readConfig "/home/u".toList savedUser
              ⟨fresh, initialGlobalFlags false⟩))) ↔
        ∀ (slot : Slot) (value : SlotValue),
          lastGiven (optionGives slot) (optionsGiven asBob) = some value →
            Settled "/home/u".toList (fileSettings savedUser) slot value) := by
  obtain ⟨s, parsed⟩ := Option.isSome_iff_exists.mp
    (show (parseCommandLine false ("connect".toList :: "work".toList :: asBob)).isSome = true by
      decide +kernel)
  have created : vpnCtxCreate "connect".toList (some "work".toList) (some []) = some _ := rfl
  exact ⟨_, s, created, explicit_wins_iff (by decide) created parsed⟩

/-- `connect work -user bob` connects as the saved user. -/
theorem savedUser_overwrites_asBob :
    lastGiven (optionGives (.text .userName)) (optionsGiven asBob) =
        some (.text (some "bob".toList)) ∧
      ∃ s, parseCommandLine false ("connect".toList :: "work".toList :: asBob) = some s ∧
        strValid (settingsToConnect "/home/u".toList savedUser s).vpn.server = true ∧
        (Slot.text .userName).read (settingsToConnect "/home/u".toList savedUser s) =
          .text (some "al".toList) := by
  have run : (parseCommandLine false ("connect".toList :: "work".toList :: asBob)).map (fun s =>
      let t := settingsToConnect "/home/u".toList savedUser s
      (strValid t.vpn.server, (Slot.text .userName).read t)) =
        some (true, .text (some "al".toList)) := by
    decide +kernel
  obtain ⟨s, parsed, reading⟩ := Option.map_eq_some_iff.mp run
  obtain ⟨valid, user⟩ := Prod.mk.inj reading
  exact ⟨by decide, s, parsed, valid, user⟩

end VpnMgr.Options
