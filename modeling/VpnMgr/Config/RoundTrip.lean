import VpnMgr.CommandLine
import VpnMgr.Config.Records

/-!
# Writing a configuration and reading it back

Which contexts come back unchanged when `ReadConfig` reads what `WriteConfig`
wrote.
-/

namespace VpnMgr.Config

open Machine Text CString LibUseful

def localBits (flags : FlagWord) : Bool × Bool := methodBits flagLocalSu flagLocalSudo flags

def remoteBits (flags : FlagWord) : Bool × Bool := methodBits flagRemoteSu flagRemoteSudo flags

/-- `r` agrees with `s` on everything that a configuration holds. -/
structure Restored (s r : Settings) : Prop where
  fields : ∀ key ∈ savedKeys, field r.vpn key = field s.vpn key
  timeout : r.vpn.timeout = s.vpn.timeout
  tcp : r.vpn.flags.has vpnTcp = s.vpn.flags.has vpnTcp
  localMethod : localBits r.globalFlags = localBits s.globalFlags
  remoteMethod : remoteBits r.globalFlags = remoteBits s.globalFlags

/-- A path that starts with a literal `~/` lies in the home directory. -/
def PathsReadable (home : CString) (texts : ConfigKey → SavedText) : Prop :=
  ∀ key ∈ pathKeys, hasPrefix "~/".toList (texts key).text = true →
    hasPrefix (homePrefix home) (texts key).text = true

/-- No record behind the timeout is missed. -/
def TimeoutStandsAlone (s : Settings) : Prop :=
  s.vpn.timeout = 0 ∨ (s.vpn.flags.has vpnTcp = false ∧
    (localBits s.globalFlags = (false, false) ∨
      (localBits s.globalFlags = (true, true) ∧
        remoteBits s.globalFlags = (true, true))))

theorem vpnCtxCreate_fresh {action : CString} {name server : CPtr} {fresh : TVpn}
    (created : vpnCtxCreate action name server = some fresh) :
    fresh.flags = 0 ∧ fresh.timeout = 0 ∧ fresh.allowedIPs = none := by
  unfold vpnCtxCreate at created
  simp only at created
  split at created
  · exact absurd created (by simp)
  · obtain rfl := Option.some.inj created
    exact ⟨rfl, rfl, rfl⟩

theorem fields_restored_iff {texts : ConfigKey → SavedText} (home : CString) (s t : Settings)
    (holds : Holds texts s.vpn) (unset : t.vpn.allowedIPs = none) :
    (∀ key ∈ savedKeys,
      field (storeRecords home (readableRecords s)
        (storeRecords home (fieldRecords home texts) t)).vpn key = field s.vpn key) ↔
      PathsReadable home texts := by
  have apart : ∀ key ∈ savedKeys,
      key ∉ [ConfigKey.timeout, .protocol, .localSU, .remoteSU] := by decide
  have value : ∀ key ∈ savedKeys,
      field (storeRecords home (readableRecords s)
        (storeRecords home (fieldRecords home texts) t)).vpn key =
        some (readValue home key (savedValue home key (texts key).text)) := by
    intro key saved
    have others : ∀ record ∈ readableRecords s, record.1 ≠ key ∧ record.1 ≠ .serverCert := by
      intro record membership
      have behind := mem_readableRecords membership
      constructor
      · intro same
        rw [same] at behind
        exact apart key saved behind
      · intro same
        rw [same] at behind
        exact absurd behind (by decide)
    rw [field_storeRecords_of_ne home _ _ saved others]
    exact field_storeRecords home (fun key => savedValue home key (texts key).text) savedKeys
      (by decide) (fun _ membership => membership) t saved fun isAllowed => isAllowed ▸ unset
  constructor
  · intro restored key isPath
    have saved : key ∈ savedKeys := by
      revert key
      decide
    have same := restored key saved
    rw [value key saved, holds key saved, Option.some.injEq, readValue, if_pos isPath,
      savedValue_path _ _ isPath] at same
    exact (readFileConf_savedPath home _).mp same
  · intro readable key saved
    rw [value key saved, holds key saved, Option.some.injEq]
    by_cases isPath : key ∈ pathKeys
    · rw [readValue, if_pos isPath, savedValue_path _ _ isPath]
      exact (readFileConf_savedPath home _).mpr (readable key isPath)
    · rw [readValue, if_neg isPath, savedValue_other _ _ isPath]

/-! ## The switches -/

def bitsAfter (written before : Bool × Bool) : Bool × Bool :=
  if written = (true, true) then before else written

/-- Reading the record of one method sets its bits and leaves the others. -/
theorem storeRecords_methodRecord {home : CString} {key : ConfigKey}
    {su viaSudo otherSu otherSudo : FlagWord} (pair : MethodPair su viaSudo)
    (stores : ∀ value t, storeSetting home key value t =
      { t with globalFlags := chooseMethod su viaSudo value t.globalFlags })
    (apart : ∀ mask ∈ [otherSu, otherSudo], su.has mask = false ∧ viaSudo.has mask = false)
    (written : FlagWord) (t : Settings) :
    let r := storeRecords home (methodRecord key su viaSudo written) t
    r.vpn = t.vpn ∧
      methodBits su viaSudo r.globalFlags =
        bitsAfter (methodBits su viaSudo written) (methodBits su viaSudo t.globalFlags) ∧
      methodBits otherSu otherSudo r.globalFlags = methodBits otherSu otherSudo t.globalFlags := by
  intro r
  have bits := pair.methodText_eq_none_iff written
  rcases text : methodText su viaSudo written with _ | word
  · have same : r = t := by simp [r, methodRecord, text, storeRecords]
    rw [same, bitsAfter, if_pos (bits.mp text)]
    exact ⟨rfl, rfl, rfl⟩
  · have chosen : r = { t with globalFlags := chooseMethod su viaSudo word t.globalFlags } := by
      simp [r, methodRecord, text, storeRecords, stores]
    have notBoth : methodBits su viaSudo written ≠ (true, true) := fun both => by
      simp [bits.mpr both] at text
    have kept : ∀ mask ∈ [otherSu, otherSudo],
        (chooseMethod su viaSudo word t.globalFlags).has mask = t.globalFlags.has mask :=
      fun mask membership => chooseMethod_has_of_apart word t.globalFlags
        (apart mask membership).1 (apart mask membership).2
    rw [chosen, bitsAfter, if_neg notBoth]
    refine ⟨rfl, pair.chooseMethod_methodText text t.globalFlags, ?_⟩
    simp only [methodBits, kept otherSu (by simp), kept otherSudo (by simp)]

theorem storeRecords_localSU (home : CString) (written : FlagWord) (t : Settings) :
    let r := storeRecords home (methodRecord .localSU flagLocalSu flagLocalSudo written) t
    r.vpn = t.vpn ∧
      localBits r.globalFlags = bitsAfter (localBits written) (localBits t.globalFlags) ∧
      remoteBits r.globalFlags = remoteBits t.globalFlags := by
  have apart : ∀ mask ∈ [flagRemoteSu, flagRemoteSudo],
      flagLocalSu.has mask = false ∧ flagLocalSudo.has mask = false := by
    simp only [List.mem_cons, List.not_mem_nil, or_false, forall_eq_or_imp, forall_eq]
    decide
  exact storeRecords_methodRecord localMethodPair (fun _ _ => rfl) apart written t

theorem storeRecords_remoteSU (home : CString) (written : FlagWord) (t : Settings) :
    let r := storeRecords home (methodRecord .remoteSU flagRemoteSu flagRemoteSudo written) t
    r.vpn = t.vpn ∧
      remoteBits r.globalFlags = bitsAfter (remoteBits written) (remoteBits t.globalFlags) ∧
      localBits r.globalFlags = localBits t.globalFlags := by
  have apart : ∀ mask ∈ [flagLocalSu, flagLocalSudo],
      flagRemoteSu.has mask = false ∧ flagRemoteSudo.has mask = false := by
    simp only [List.mem_cons, List.not_mem_nil, or_false, forall_eq_or_imp, forall_eq]
    decide
  exact storeRecords_methodRecord remoteMethodPair (fun _ _ => rfl) apart written t

theorem storeRecords_append (home : CString) (first second : List (ConfigKey × CString))
    (t : Settings) :
    storeRecords home (first ++ second) t =
      storeRecords home second (storeRecords home first t) := by
  simp [storeRecords]

theorem storeRecords_methods (home : CString) (written : FlagWord) (t : Settings) :
    let r := storeRecords home (methodRecord .localSU flagLocalSu flagLocalSudo written ++
      methodRecord .remoteSU flagRemoteSu flagRemoteSudo written) t
    r.vpn = t.vpn ∧
      localBits r.globalFlags = bitsAfter (localBits written) (localBits t.globalFlags) ∧
      remoteBits r.globalFlags = bitsAfter (remoteBits written) (remoteBits t.globalFlags) := by
  intro r
  obtain ⟨vpnLocal, chosenLocal, keptRemote⟩ := storeRecords_localSU home written t
  obtain ⟨vpnRemote, chosenRemote, keptLocal⟩ := storeRecords_remoteSU home written
    (storeRecords home (methodRecord .localSU flagLocalSu flagLocalSudo written) t)
  simp only [r, storeRecords_append]
  exact ⟨vpnRemote.trans vpnLocal, keptLocal.trans chosenLocal, by rw [chosenRemote, keptRemote]⟩

/-- A record `Timeout=` restores the timeout, whatever record is merged into it. -/
theorem parseDuration_merged (s : Settings) :
    (parseDuration (decimal s.vpn.timeout.toNat ++
      (((trailingRecords s).head?.map fun record =>
        recordText record.1.text record.2).getD []))).setWidth 32 = s.vpn.timeout := by
  have bound : s.vpn.timeout.toNat ≤ ulongMax := by
    have small := s.vpn.timeout.isLt
    simp only [ulongMax]
    omega
  have parsed : ∀ tail : CString, endsNumber tail = true →
      (parseDuration (decimal s.vpn.timeout.toNat ++ tail)).setWidth 32 = s.vpn.timeout := by
    intro tail ends
    rw [parseDuration_decimal_append bound ends]
    apply BitVec.eq_of_toNat_eq
    simp
  rcases shape : trailingRecords s with _ | ⟨record, records⟩
  · exact parsed [] rfl
  · have merged : record ∈ trailingRecords s := shape ▸ List.mem_cons_self
    exact parsed _ (mem_trailingRecords merged).2

theorem methodRecord_shape (key : ConfigKey) {su viaSudo : FlagWord}
    (pair : MethodPair su viaSudo) (flags : FlagWord) :
    (methodBits su viaSudo flags = (true, true) ∧ methodRecord key su viaSudo flags = []) ∨
      (methodBits su viaSudo flags ≠ (true, true) ∧
        ∃ word, methodRecord key su viaSudo flags = [(key, word)]) := by
  have bits := pair.methodText_eq_none_iff flags
  rcases text : methodText su viaSudo flags with _ | word
  · exact Or.inl ⟨bits.mp text, by simp [methodRecord, text]⟩
  · refine Or.inr ⟨fun both => ?_, word, by simp [methodRecord, text]⟩
    simp [bits.mpr both] at text

@[simp]
theorem bitsAfter_both (written : Bool × Bool) : bitsAfter written (true, true) = written := by
  unfold bitsAfter
  split <;> simp_all

theorem localBits_initial (root : Bool) :
    localBits (initialGlobalFlags root) = (!root, !root) := by
  cases root <;> decide

theorem remoteBits_initial (root : Bool) :
    remoteBits (initialGlobalFlags root) = (true, true) := by
  cases root <;> decide

def SwitchesRestored (s r : Settings) : Prop :=
  r.vpn.timeout = s.vpn.timeout ∧ r.vpn.flags.has vpnTcp = s.vpn.flags.has vpnTcp ∧
    localBits r.globalFlags = localBits s.globalFlags ∧
    remoteBits r.globalFlags = remoteBits s.globalFlags

theorem storeRecords_protocol (home : CString) (tcp : Bool) (t : Settings) :
    let r := storeRecords home (if tcp then [(.protocol, "tcp".toList)] else []) t
    r.vpn.flags.has vpnTcp = (tcp || t.vpn.flags.has vpnTcp) ∧
      r.vpn.timeout = t.vpn.timeout ∧ r.globalFlags = t.globalFlags := by
  cases tcp with
  | false => exact ⟨rfl, rfl, rfl⟩
  | true =>
      refine ⟨?_, rfl, rfl⟩
      show (t.vpn.flags.raise vpnTcp).has vpnTcp = _
      rw [FlagWord.has_raise, show FlagWord.has vpnTcp vpnTcp = true by decide]
      simp

section Switches

variable {root : Bool} {s t : Settings} (home : CString)
  (methods : LocalMethods root s.globalFlags) (defaults : t.globalFlags = initialGlobalFlags root)
  (noFlags : t.vpn.flags = 0)

include methods

theorem localBits_default : bitsAfter (localBits s.globalFlags)
    (localBits (initialGlobalFlags root)) = localBits s.globalFlags := by
  unfold bitsAfter
  split
  next both =>
    obtain ⟨su, viaSudo⟩ := Prod.mk.inj both
    rw [localBits_initial, methods.bothUnprivileged su viaSudo, both]
    rfl
  next => rfl

include defaults noFlags

theorem switchesRestored_of_no_timeout (zero : s.vpn.timeout = 0) (unset : t.vpn.timeout = 0) :
    SwitchesRestored s (storeRecords home (readableRecords s) t) := by
  have records : readableRecords s = trailingRecords s := by
    rw [readableRecords, if_neg (by simp [zero])]
  rw [records, trailingRecords, List.append_assoc, storeRecords_append]
  obtain ⟨tcp, timeout, flags⟩ := storeRecords_protocol home (s.vpn.flags.has vpnTcp) t
  obtain ⟨vpn, chosenLocal, chosenRemote⟩ := storeRecords_methods home s.globalFlags
    (storeRecords home (if s.vpn.flags.has vpnTcp then [(.protocol, "tcp".toList)] else []) t)
  refine ⟨?_, ?_, ?_, ?_⟩
  · rw [vpn, timeout, unset, zero]
  · rw [vpn, tcp, noFlags]
    simp
  · rw [chosenLocal, flags, defaults, localBits_default methods]
  · rw [chosenRemote, flags, defaults, remoteBits_initial, bitsAfter_both]

/-- Behind the timeout, the switches come back if the swallowed record, the
first of the trailing ones, changes nothing. -/
theorem switchesRestored_tail (counted : t.vpn.timeout = s.vpn.timeout) :
    SwitchesRestored s (storeRecords home (trailingRecords s).tail t) ↔
      s.vpn.flags.has vpnTcp = false ∧
        (localBits s.globalFlags = (false, false) ∨
          (localBits s.globalFlags = (true, true) ∧ remoteBits s.globalFlags = (true, true))) := by
  have noTcp : t.vpn.flags.has vpnTcp = false := by rw [noFlags]; decide
  by_cases tcp : s.vpn.flags.has vpnTcp = true
  · have records : (trailingRecords s).tail =
        methodRecord .localSU flagLocalSu flagLocalSudo s.globalFlags ++
          methodRecord .remoteSU flagRemoteSu flagRemoteSudo s.globalFlags := by
      simp [trailingRecords, tcp]
    obtain ⟨vpn, -, -⟩ := storeRecords_methods home s.globalFlags t
    refine iff_of_false (fun restored => ?_) (by simp [tcp])
    have same := restored.2.1
    rw [records, vpn, noTcp, tcp] at same
    exact absurd same (by decide)
  have clear : s.vpn.flags.has vpnTcp = false := by simpa using tcp
  rcases methodRecord_shape .localSU localMethodPair s.globalFlags with
    ⟨both, noLocal⟩ | ⟨notBoth, word, localRecord⟩
  · obtain ⟨su, viaSudo⟩ := Prod.mk.inj both
    have localSame : localBits t.globalFlags = localBits s.globalFlags := by
      rw [defaults, localBits_initial, methods.bothUnprivileged su viaSudo]
      exact both.symm
    rcases methodRecord_shape .remoteSU remoteMethodPair s.globalFlags with
      ⟨remoteBoth, noRemote⟩ | ⟨notBoth, word, remoteRecord⟩
    · have records : (trailingRecords s).tail = [] := by
        simp [trailingRecords, clear, noLocal, noRemote]
      rw [records]
      refine iff_of_true ⟨counted, noTcp.trans clear.symm, localSame, ?_⟩
        ⟨clear, Or.inr ⟨both, remoteBoth⟩⟩
      show remoteBits t.globalFlags = _
      rw [defaults, remoteBits_initial]
      exact remoteBoth.symm
    · have records : (trailingRecords s).tail = [] := by
        simp [trailingRecords, clear, noLocal, remoteRecord]
      rw [records]
      refine iff_of_false (fun restored => notBoth ?_) ?_
      · have same : remoteBits t.globalFlags = remoteBits s.globalFlags := restored.2.2.2
        rw [defaults, remoteBits_initial] at same
        exact same.symm
      · rintro ⟨-, none | ⟨-, remoteBoth⟩⟩
        · rw [show localBits s.globalFlags = (true, true) from both] at none
          exact absurd none (by decide)
        · exact notBoth remoteBoth
  · have records : (trailingRecords s).tail =
        methodRecord .remoteSU flagRemoteSu flagRemoteSudo s.globalFlags := by
      simp [trailingRecords, clear, localRecord]
    obtain ⟨vpn, chosenRemote, keptLocal⟩ := storeRecords_remoteSU home s.globalFlags t
    rw [defaults, remoteBits_initial, bitsAfter_both] at chosenRemote
    rw [defaults, localBits_initial] at keptLocal
    rw [records]
    constructor
    · intro restored
      have same := restored.2.2.1
      rw [keptLocal] at same
      cases root with
      | true => exact ⟨clear, Or.inl same.symm⟩
      | false => exact absurd same.symm notBoth
    · rintro ⟨-, none | ⟨both, -⟩⟩
      · obtain ⟨su, viaSudo⟩ := Prod.mk.inj none
        rw [methods.noneRoot su viaSudo] at keptLocal
        exact ⟨by rw [vpn, counted], by rw [vpn, noTcp, clear], keptLocal.trans none.symm,
          chosenRemote⟩
      · exact absurd both notBoth

omit defaults noFlags methods in
theorem readableRecords_timeout (positive : s.vpn.timeout ≠ 0) :
    ∃ value, readableRecords s = (.timeout, value) :: (trailingRecords s).tail ∧
      (parseDuration value).setWidth 32 = s.vpn.timeout := by
  have counted : 0 < s.vpn.timeout.toNat := by
    have nonzero : s.vpn.timeout.toNat ≠ 0 := fun zero => positive (BitVec.eq_of_toNat_eq zero)
    omega
  refine ⟨_, ?_, parseDuration_merged s⟩
  rw [readableRecords, if_pos counted]

theorem switchesRestored_iff (unset : t.vpn.timeout = 0) :
    SwitchesRestored s (storeRecords home (readableRecords s) t) ↔ TimeoutStandsAlone s := by
  by_cases zero : s.vpn.timeout = 0
  · exact iff_of_true (switchesRestored_of_no_timeout home methods defaults noFlags zero unset)
      (Or.inl zero)
  · obtain ⟨value, records, parsed⟩ := readableRecords_timeout zero
    rw [records]
    simp only [TimeoutStandsAlone, zero, false_or]
    have timed : (storeSetting home .timeout value t).vpn.timeout = s.vpn.timeout := parsed
    exact switchesRestored_tail home methods defaults noFlags timed

end Switches

theorem restored_iff (s r : Settings) :
    Restored s r ↔
      (∀ key ∈ savedKeys, field r.vpn key = field s.vpn key) ∧ SwitchesRestored s r :=
  ⟨fun restored => ⟨restored.fields, restored.timeout, restored.tcp, restored.localMethod,
    restored.remoteMethod⟩,
  fun ⟨fields, timeout, tcp, localMethod, remoteMethod⟩ =>
    ⟨fields, timeout, tcp, localMethod, remoteMethod⟩⟩

/-- A context written by `WriteConfig` and read by `ReadConfig` into a new one
comes back whole exactly if its paths are readable and its timeout swallows no
setting. -/
theorem readConfig_writeConfig_iff {root : Bool} {args : List CString} {home action : CString}
    {server : CPtr} {texts : ConfigKey → SavedText} {s : Settings} {fresh : TVpn}
    (holds : Holds texts s.vpn) (reached : s.globalFlags = parsedGlobalFlags root args)
    (created : vpnCtxCreate action s.vpn.name server = some fresh) :
    Restored s
        (readConfig home (some (writeConfig home s)) ⟨fresh, initialGlobalFlags root⟩) ↔
      PathsReadable home texts ∧ TimeoutStandsAlone s := by
  obtain ⟨noFlags, noTimeout, noAllowed⟩ := vpnCtxCreate_fresh created
  have methods : LocalMethods root s.globalFlags := reached ▸ localMethods_parsed root args
  obtain ⟨flagsKept, timeoutKept, globalKept⟩ : _ ∧ _ ∧ _ := by
    simpa only [switches, Prod.mk.injEq] using
      switches_fieldRecords home texts ⟨fresh, initialGlobalFlags root⟩
  have fields := fields_restored_iff home s ⟨fresh, initialGlobalFlags root⟩ holds noAllowed
  have rest := switchesRestored_iff home methods globalKept (flagsKept.trans noFlags)
    (timeoutKept.trans noTimeout)
  rw [readConfig_writeConfig home s _ holds, restored_iff, fields, rest]

/-- A text that can stand in a file, for concrete contexts. -/
def plainText : SavedText := ⟨"x".toList, by decide, by decide⟩

/-- The context `work` with every field set to that text. -/
def plainVpn : TVpn :=
  let text := some plainText.text
  { name := some "work".toList, server := text, clientCert := text, clientKey := text
    verifyCert := text, confFile := text, upFile := text, downFile := text
    localAddress := text, allowedIPs := text, remoteDev := text, clientID := text
    userName := text, password := text, remoteSearchPath := text, dns := text }

theorem readConfig_writeConfig_plain :
    ∃ fresh, vpnCtxCreate "connect".toList (some "work".toList) (some []) = some fresh ∧
      (Restored ⟨plainVpn, parsedGlobalFlags false []⟩
          (readConfig "/home/u".toList
            (some (writeConfig "/home/u".toList ⟨plainVpn, parsedGlobalFlags false []⟩))
            ⟨fresh, initialGlobalFlags false⟩) ↔
        PathsReadable "/home/u".toList (fun _ => plainText) ∧
          TimeoutStandsAlone ⟨plainVpn, parsedGlobalFlags false []⟩) := by
  have holds : Holds (fun _ => plainText) plainVpn := by
    unfold Holds
    decide
  have created : vpnCtxCreate "connect".toList (some "work".toList) (some []) = some _ := rfl
  exact ⟨_, created, readConfig_writeConfig_iff holds rfl created⟩

/-- The same context with a timeout and `VPN_TCP`. -/
def timedTcpSettings : Settings :=
  ⟨{ plainVpn with timeout := 600, flags := vpnTcp }, parsedGlobalFlags false []⟩

/-- `Timeout=600` has no newline, so `Protocol=tcp` is never read. -/
theorem readConfig_writeConfig_loses_protocol :
    Holds (fun _ => plainText) timedTcpSettings.vpn ∧
      ∃ fresh, vpnCtxCreate "connect".toList timedTcpSettings.vpn.name (some []) = some fresh ∧
        ¬ Restored timedTcpSettings
            (readConfig "/home/u".toList
              (some (writeConfig "/home/u".toList timedTcpSettings))
              ⟨fresh, initialGlobalFlags false⟩) := by
  refine ⟨by unfold Holds; decide, _, rfl, fun restored => ?_⟩
  have tcp := restored.tcp
  revert tcp
  decide +kernel

end VpnMgr.Config
