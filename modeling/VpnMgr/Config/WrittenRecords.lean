import VpnMgr.Config.RoundTrip
import VpnMgr.Config.ServerLine

/-!
# A configuration of the fields that are set

`WriteConfig` writes no line for a field that is not set, and reading the file
leaves that field as it is.
-/

namespace VpnMgr.Config

open Machine Text CString LibUseful

def fieldRecord (home : CString) (vpn : TVpn) (key : ConfigKey) : List (ConfigKey × CString) :=
  if strValid (field vpn key) then [(key, savedValue home key (copyStr (field vpn key)))] else []

def writtenRecords (home : CString) (vpn : TVpn) : List (ConfigKey × CString) :=
  savedKeys.flatMap (fieldRecord home vpn)

def Writable (home : CString) (vpn : TVpn) : Prop :=
  ∀ key ∈ savedKeys, strValid (field vpn key) = true →
    Clean (savedValue home key (copyStr (field vpn key)))

theorem recordLines_fieldRecord_path (home : CString) (vpn : TVpn) {key : ConfigKey}
    (isPath : key ∈ pathKeys) :
    recordLines (fieldRecord home vpn key) =
      saveFilePath key.text (field vpn key) (homePrefix home) := by
  unfold fieldRecord saveFilePath
  rw [savedValue_path home _ isPath]
  split
  · simp [recordLines]
  · rfl

theorem fieldRecord_verbatim (home : CString) (vpn : TVpn) {key : ConfigKey}
    (isKey : key ∈ verbatimKeys) : fieldRecord home vpn key = verbatimRecord vpn key := by
  have noPath : key ∉ pathKeys := by
    revert isKey
    cases key <;> decide
  unfold fieldRecord verbatimRecord
  rw [savedValue_other home _ noPath]

theorem recordLines_pathRecords (home : CString) (vpn : TVpn) :
    recordLines (pathKeys.flatMap (fieldRecord home vpn)) = pathLines home vpn := by
  have homeText : mCopyStr [some home, some "/".toList] = homePrefix home := by
    simp [homePrefix]
  have line := fun key isPath => @recordLines_fieldRecord_path home vpn key isPath
  unfold pathLines
  simp only [homeText, pathKeys, List.flatMap_cons, List.flatMap_nil, recordLines_append,
    List.append_assoc]
  rw [line .clientCert (by decide), line .clientKey (by decide), line .verifyCert (by decide),
    line .confFile (by decide), line .upFile (by decide), line .downFile (by decide)]
  simp only [recordLines, List.map_nil, List.flatten_nil, List.append_nil]
  rfl

/-- A file that names a server is its records and the switches behind them. -/
theorem writeConfig_records (home : CString) {s : Settings}
    (served : strValid s.vpn.server = true) :
    writeConfig home s = recordLines (writtenRecords home s.vpn) ++
      (saveTimeout s.vpn.timeout ++ recordLines (trailingRecords s)) := by
  have server : recordLines (fieldRecord home s.vpn .server) =
      mCopyStr [some "Server=".toList, s.vpn.server, some ['\n']] := by
    have record : fieldRecord home s.vpn .server = [(.server, copyStr s.vpn.server)] := by
      apply (if_pos served).trans
      rw [savedValue_other home _ (by decide)]
      rfl
    obtain ⟨text, isServer, -⟩ := (strValid_iff _).mp served
    rw [record, isServer]
    simp only [recordLines, recordText, List.map_cons, List.map_nil, List.flatten_cons,
      List.flatten_nil, List.append_nil, copyStr_some, mCopyStr_some, mCopyStr_nil]
    exact List.append_assoc ..
  have verbatim : verbatimKeys.flatMap (fieldRecord home s.vpn) = verbatimRecords s.vpn :=
    List.flatMap_congr fun key isKey => fieldRecord_verbatim home s.vpn isKey
  have keys : savedKeys = .server :: (pathKeys ++ verbatimKeys) := rfl
  rw [writeConfig_lines, writtenRecords, keys, List.flatMap_cons, List.flatMap_append, verbatim,
    recordLines_append, recordLines_append, recordLines_pathRecords, server]
  simp only [List.append_assoc]

theorem writtenRecords_eq (home : CString) (vpn : TVpn) :
    writtenRecords home vpn = (savedKeys.filter fun key => strValid (field vpn key)).map
      fun key => (key, savedValue home key (copyStr (field vpn key))) := by
  unfold writtenRecords
  induction savedKeys with
  | nil => rfl
  | cons key keys inductionHypothesis =>
      rw [List.flatMap_cons, inductionHypothesis, fieldRecord, List.filter_cons]
      split <;> rfl

theorem writtenRecords_clean {home : CString} {vpn : TVpn} (writable : Writable home vpn) :
    ∀ record ∈ writtenRecords home vpn, record.1 ∈ savedKeys ∧ Clean record.2 := by
  intro record member
  rw [writtenRecords_eq] at member
  obtain ⟨key, isSet, rfl⟩ := List.mem_map.mp member
  obtain ⟨saved, set⟩ := List.mem_filter.mp isSet
  exact ⟨saved, writable key saved set⟩

theorem readConfig_written {home : CString} {s : Settings}
    (served : strValid s.vpn.server = true) (writable : Writable home s.vpn) (fresh : Settings) :
    readConfig home (some (writeConfig home s)) fresh =
      storeRecords home (readableRecords s)
        (storeRecords home (writtenRecords home s.vpn) fresh) := by
  rw [writeConfig_records home served,
    readConfig_records home _ fun record member => (writtenRecords_clean writable record member).2,
    readConfig_trailing]

theorem field_readableRecords (home : CString) (s t : Settings) {key : ConfigKey}
    (saved : key ∈ savedKeys) :
    field (storeRecords home (readableRecords s) t).vpn key = field t.vpn key := by
  have apart : ∀ key ∈ savedKeys,
      key ∉ [ConfigKey.timeout, .protocol, .localSU, .remoteSU] := by decide
  refine field_storeRecords_of_ne home _ t saved fun record member => ?_
  have behind := mem_readableRecords member
  constructor
  · rintro rfl
    exact apart _ saved behind
  · intro same
    rw [same] at behind
    exact absurd behind (by decide)

/-- A field that was set comes back as it is read, any other one stays. -/
theorem field_writtenRecords (home : CString) (vpn : TVpn) (t : Settings) {key : ConfigKey}
    (saved : key ∈ savedKeys) (unset : t.vpn.allowedIPs = none) :
    field (storeRecords home (writtenRecords home vpn) t).vpn key =
      if strValid (field vpn key) then
        some (readValue home key (savedValue home key (copyStr (field vpn key))))
      else field t.vpn key := by
  have noAlias : ConfigKey.serverCert ∉ savedKeys := by decide
  have inside : ∀ other ∈ savedKeys.filter fun key => strValid (field vpn key), other ∈ savedKeys :=
    fun other member => List.mem_of_mem_filter member
  rw [writtenRecords_eq]
  split
  case isTrue set =>
    have member : key ∈ savedKeys.filter fun key => strValid (field vpn key) :=
      List.mem_filter.mpr ⟨saved, set⟩
    have distinct : (savedKeys.filter fun key => strValid (field vpn key)).Nodup :=
      List.Nodup.sublist List.filter_sublist (by decide)
    exact field_storeRecords home (fun key => savedValue home key (copyStr (field vpn key))) _
      distinct inside t member fun isAllowed => isAllowed ▸ unset
  case isFalse clear =>
    refine field_storeRecords_of_ne home _ t saved fun record member => ?_
    obtain ⟨other, isSet, rfl⟩ := List.mem_map.mp member
    refine ⟨?_, fun isAlias => noAlias (isAlias ▸ inside other isSet)⟩
    rintro rfl
    exact clear (List.mem_filter.mp isSet).2

theorem field_readConfig_written {home : CString} {s : Settings}
    (served : strValid s.vpn.server = true) (writable : Writable home s.vpn) (fresh : Settings)
    {key : ConfigKey} (saved : key ∈ savedKeys) (unset : fresh.vpn.allowedIPs = none) :
    field (readConfig home (some (writeConfig home s)) fresh).vpn key =
      if strValid (field s.vpn key) then
        some (readValue home key (savedValue home key (copyStr (field s.vpn key))))
      else field fresh.vpn key := by
  rw [readConfig_written served writable, field_readableRecords home s _ saved,
    field_writtenRecords home s.vpn fresh saved unset]

theorem switches_readConfig_written {root : Bool} {home action : CString} {name server : CPtr}
    {s : Settings} {fresh : TVpn} (served : strValid s.vpn.server = true)
    (writable : Writable home s.vpn) (methods : LocalMethods root s.globalFlags)
    (created : vpnCtxCreate action name server = some fresh) :
    SwitchesRestored s
        (readConfig home (some (writeConfig home s)) ⟨fresh, initialGlobalFlags root⟩) ↔
      TimeoutStandsAlone s := by
  obtain ⟨noFlags, noTimeout, -⟩ := vpnCtxCreate_fresh created
  obtain ⟨flagsKept, timeoutKept, globalKept⟩ : _ ∧ _ ∧ _ := by
    simpa only [switches, Prod.mk.injEq] using
      switches_storeRecords home (writtenRecords home s.vpn)
        (fun record member => (writtenRecords_clean writable record member).1)
        ⟨fresh, initialGlobalFlags root⟩
  rw [readConfig_written served writable]
  exact switchesRestored_iff home methods globalKept (flagsKept.trans noFlags)
    (timeoutKept.trans noTimeout)

end VpnMgr.Config
