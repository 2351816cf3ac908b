import VpnMgr.Config.Privileges

/-!
# A configuration file as a list of records

Every record of a written file is read back as the setting it was written
for, except where two of them share a line: a timeout swallows the record
behind it.
-/

namespace VpnMgr.Config

open Machine Text CString LibUseful

def recordLines (records : List (ConfigKey × CString)) : CString :=
  (records.map fun record => recordText record.1.text record.2 ++ ['\n']).flatten

def storeRecords (home : CString) (records : List (ConfigKey × CString)) (s : Settings) :
    Settings :=
  records.foldl (fun s record => storeSetting home record.1 record.2 s) s

theorem not_newline_mem_of_clean {s : CString} (clean : Clean s) : '\n' ∉ s := fun membership =>
  absurd (clean _ membership) (by decide)

theorem readConfig_cons (home : CString) (key : ConfigKey) {value : CString} (clean : Clean value)
    (rest : CString) (s : Settings) :
    readConfig home (some (recordText key.text value ++ '\n' :: rest)) s =
      readConfig home (some rest) (storeSetting home key value s) := by
  have cleanRecord := clean_recordText key clean
  have stripped : stripTrailingWhitespace (recordText key.text value ++ ['\n']) =
      recordText key.text value := by
    rw [stripTrailingWhitespace, dropTrailingSpace, List.rdropWhile_concat_pos _ _ _ (by decide)]
    exact cleanRecord.dropTrailingSpace
  simp only [readConfig,
    streamReadLines_newline _ rest (not_newline_mem_of_clean cleanRecord), List.foldl_cons,
    stripped, readConfigLine_record home key clean]

theorem readConfig_last (home : CString) (key : ConfigKey) {value : CString} (clean : Clean value)
    (s : Settings) :
    readConfig home (some (recordText key.text value)) s = storeSetting home key value s := by
  have cleanRecord := clean_recordText key clean
  have nonempty : recordText key.text value ≠ [] := by simp [recordText]
  simp only [readConfig,
    streamReadLines_last _ nonempty (not_newline_mem_of_clean cleanRecord), List.foldl_cons,
    List.foldl_nil, stripTrailingWhitespace, cleanRecord.dropTrailingSpace,
    readConfigLine_record home key clean]

theorem readConfig_records (home : CString) (records : List (ConfigKey × CString))
    (clean : ∀ record ∈ records, Clean record.2) (rest : CString) (s : Settings) :
    readConfig home (some (recordLines records ++ rest)) s =
      readConfig home (some rest) (storeRecords home records s) := by
  induction records generalizing s with
  | nil => rfl
  | cons record records inductionHypothesis =>
      have head := readConfig_cons home record.1 (clean record (by simp))
        (recordLines records ++ rest) s
      have tail := inductionHypothesis
        (fun later membership => clean later (List.mem_cons_of_mem _ membership))
        (storeSetting home record.1 record.2 s)
      have shape : recordLines (record :: records) ++ rest =
          recordText record.1.text record.2 ++ '\n' :: (recordLines records ++ rest) := by
        simp [recordLines]
      rw [shape, head, tail]
      rfl

@[simp]
theorem readConfig_nil (home : CString) (s : Settings) : readConfig home (some []) s = s := rfl

/-- The string settings that `WriteConfig` persists, in its order. -/
def savedKeys : List ConfigKey :=
  [.server, .clientCert, .clientKey, .verifyCert, .confFile, .upFile, .downFile, .localAddress,
    .allowedIPs, .remoteDev, .dns, .clientID, .userName, .password, .remoteSearchPath]

/-- The settings that go through `SaveFilePath` and `ReadFileConf`. -/
def pathKeys : List ConfigKey :=
  [.clientCert, .clientKey, .verifyCert, .confFile, .upFile, .downFile]

/-- The member of `TVpn` behind a string setting. -/
def field (vpn : TVpn) : ConfigKey → CPtr
  | .server => vpn.server
  | .clientCert => vpn.clientCert
  | .clientKey => vpn.clientKey
  | .verifyCert => vpn.verifyCert
  | .serverCert => vpn.verifyCert
  | .confFile => vpn.confFile
  | .upFile => vpn.upFile
  | .downFile => vpn.downFile
  | .localAddress => vpn.localAddress
  | .allowedIPs => vpn.allowedIPs
  | .remoteDev => vpn.remoteDev
  | .clientID => vpn.clientID
  | .userName => vpn.userName
  | .password => vpn.password
  | .remoteSearchPath => vpn.remoteSearchPath
  | .dns => vpn.dns
  | .timeout | .protocol | .remoteSU | .localSU => none

/-- A field value that can stand in a file. -/
structure SavedText where
  text : CString
  nonempty : text ≠ []
  clean : Clean text

/-- Every persisted field of `vpn` is set, to these texts. -/
def Holds (texts : ConfigKey → SavedText) (vpn : TVpn) : Prop :=
  ∀ key ∈ savedKeys, field vpn key = some (texts key).text

/-- `GetCurrUserHomeDir()` with a slash behind it. -/
def homePrefix (home : CString) : CString := home ++ ['/']

/-- What `WriteConfig` writes for a field. -/
def savedValue (home : CString) (key : ConfigKey) (text : CString) : CString :=
  if key ∈ pathKeys then savedPath (homePrefix home) text else text

theorem savedValue_path {key : ConfigKey} (home text : CString) (isPath : key ∈ pathKeys) :
    savedValue home key text = savedPath (homePrefix home) text := if_pos isPath

theorem savedValue_other {key : ConfigKey} (home text : CString) (noPath : key ∉ pathKeys) :
    savedValue home key text = text := if_neg noPath

def fieldRecords (home : CString) (texts : ConfigKey → SavedText) :
    List (ConfigKey × CString) :=
  savedKeys.map fun key => (key, savedValue home key (texts key).text)

theorem savedPath_clean {home path : CString} (clean : Clean path) :
    Clean (savedPath home path) := by
  unfold savedPath
  split
  · refine Clean.append (by decide) fun c membership => ?_
    exact clean c (List.mem_of_mem_drop membership)
  · exact clean

theorem fieldRecords_clean (home : CString) (texts : ConfigKey → SavedText) :
    ∀ record ∈ fieldRecords home texts, Clean record.2 := by
  intro record membership
  obtain ⟨key, -, rfl⟩ := List.mem_map.mp membership
  simp only [savedValue]
  split
  · exact savedPath_clean (texts key).clean
  · exact (texts key).clean

/-- What reading makes of the text written for a path. -/
theorem readFileConf_savedPath (home path : CString) :
    readFileConf home (savedPath (homePrefix home) path) = path ↔
      (hasPrefix "~/".toList path = true → hasPrefix (homePrefix home) path = true) := by
  by_cases inHome : hasPrefix (homePrefix home) path = true
  · obtain ⟨rest, rfl⟩ := (hasPrefix_iff _ _).mp inHome
    simp only [inHome, implies_true, iff_true]
    simp [savedPath, readFileConf, homePrefix, mCopyStr, hasPrefix]
  · simp only [savedPath, if_neg inHome, readFileConf]
    split
    next tilde =>
      simp only [tilde, inHome, Bool.false_eq_true, true_implies, iff_false]
      intro same
      apply inHome
      obtain ⟨rest, rfl⟩ := (hasPrefix_iff _ _).mp tilde
      have prefixed : homePrefix home ++ rest = "~/".toList ++ rest := by
        simpa [homePrefix, mCopyStr] using same
      exact (hasPrefix_iff _ _).mpr ⟨rest, prefixed.symm⟩
    next plain => exact iff_of_true rfl fun tilde => absurd tilde plain

/-! ## The records behind the fields -/

def methodRecord (key : ConfigKey) (su viaSudo flags : FlagWord) : List (ConfigKey × CString) :=
  match methodText su viaSudo flags with
  | some word => [(key, word)]
  | none => []

/-- The records that `WriteConfig` writes behind the timeout. -/
def trailingRecords (s : Settings) : List (ConfigKey × CString) :=
  (if s.vpn.flags.has vpnTcp then [(.protocol, "tcp".toList)] else []) ++
    methodRecord .localSU flagLocalSu flagLocalSudo s.globalFlags ++
    methodRecord .remoteSU flagRemoteSu flagRemoteSudo s.globalFlags

theorem recordLines_append (first second : List (ConfigKey × CString)) :
    recordLines (first ++ second) = recordLines first ++ recordLines second := by
  simp [recordLines]

theorem saveMethod_eq (key : ConfigKey) (su viaSudo flags : FlagWord) :
    saveMethod key.text su viaSudo flags = recordLines (methodRecord key su viaSudo flags) := by
  unfold saveMethod methodRecord
  cases methodText su viaSudo flags <;> simp [recordLines]

theorem saveField_text (name : CString) (value : SavedText) :
    saveField name (some value.text) = recordText name value.text ++ ['\n'] := by
  simp [saveField, (strValid_some_iff _).mpr value.nonempty]

theorem saveFilePath_text (name home : CString) (value : SavedText) :
    saveFilePath name (some value.text) home =
      recordText name (savedPath home value.text) ++ ['\n'] := by
  simp [saveFilePath, (strValid_some_iff _).mpr value.nonempty]

/-- A written file: the fields, the unterminated timeout, the other records. -/
theorem writeConfig_eq {texts : ConfigKey → SavedText} (home : CString) (s : Settings)
    (holds : Holds texts s.vpn) :
    writeConfig home s = recordLines (fieldRecords home texts) ++
      (saveTimeout s.vpn.timeout ++ recordLines (trailingRecords s)) := by
  have server : s.vpn.server = some (texts .server).text := holds .server (by decide)
  have clientCert : s.vpn.clientCert = some (texts .clientCert).text := holds .clientCert (by decide)
  have clientKey : s.vpn.clientKey = some (texts .clientKey).text := holds .clientKey (by decide)
  have verifyCert : s.vpn.verifyCert = some (texts .verifyCert).text := holds .verifyCert (by decide)
  have confFile : s.vpn.confFile = some (texts .confFile).text := holds .confFile (by decide)
  have upFile : s.vpn.upFile = some (texts .upFile).text := holds .upFile (by decide)
  have downFile : s.vpn.downFile = some (texts .downFile).text := holds .downFile (by decide)
  have localAddress : s.vpn.localAddress = some (texts .localAddress).text := holds .localAddress (by decide)
  have allowedIPs : s.vpn.allowedIPs = some (texts .allowedIPs).text := holds .allowedIPs (by decide)
  have remoteDev : s.vpn.remoteDev = some (texts .remoteDev).text := holds .remoteDev (by decide)
  have dns : s.vpn.dns = some (texts .dns).text := holds .dns (by decide)
  have clientID : s.vpn.clientID = some (texts .clientID).text := holds .clientID (by decide)
  have userName : s.vpn.userName = some (texts .userName).text := holds .userName (by decide)
  have password : s.vpn.password = some (texts .password).text := holds .password (by decide)
  have remoteSearchPath : s.vpn.remoteSearchPath = some (texts .remoteSearchPath).text :=
    holds .remoteSearchPath (by decide)
  have protocol : (if s.vpn.flags.has vpnTcp then "Protocol=tcp\n".toList else []) =
      recordLines (if s.vpn.flags.has vpnTcp then [(.protocol, "tcp".toList)] else []) := by
    split <;> rfl
  have homeText : mCopyStr [some home, some "/".toList] = homePrefix home := by
    simp [homePrefix]
  have localSU : saveMethod "LocalSU".toList flagLocalSu flagLocalSudo s.globalFlags = _ :=
    saveMethod_eq .localSU flagLocalSu flagLocalSudo s.globalFlags
  have remoteSU : saveMethod "RemoteSU".toList flagRemoteSu flagRemoteSudo s.globalFlags = _ :=
    saveMethod_eq .remoteSU flagRemoteSu flagRemoteSudo s.globalFlags
  have serverLine : mCopyStr [some "Server=".toList, some (texts .server).text, some ['\n']] =
      recordText "Server".toList (texts .server).text ++ ['\n'] := by
    simp [recordText]
  have fields : recordLines (fieldRecords home texts) =
      (savedKeys.map fun key =>
        recordText key.text (savedValue home key (texts key).text) ++ ['\n']).flatten := by
    simp only [recordLines, fieldRecords, List.map_map, Function.comp_def]
  rw [fields]
  unfold writeConfig
  simp only [server, clientCert, clientKey, verifyCert, confFile, upFile, downFile,
    localAddress, allowedIPs, remoteDev, dns, clientID, userName, password, remoteSearchPath,
    saveField_text, saveFilePath_text, homeText, serverLine, protocol, localSU, remoteSU,
    trailingRecords, recordLines_append, savedKeys, List.map_cons, List.map_nil,
    List.flatten_cons, List.flatten_nil, List.append_assoc, List.append_nil]
  simp (disch := decide) only [savedValue_path, savedValue_other]
  rfl

def readableRecords (s : Settings) : List (ConfigKey × CString) :=
  if 0 < s.vpn.timeout.toNat then
    let merged := ((trailingRecords s).head?.map fun record =>
      recordText record.1.text record.2).getD []
    (.timeout, decimal s.vpn.timeout.toNat ++ merged) :: (trailingRecords s).tail
  else trailingRecords s

theorem methodText_word {su viaSudo flags : FlagWord} {word : CString}
    (text : methodText su viaSudo flags = some word) :
    word ∈ ["none".toList, "su".toList, "sudo".toList] := by
  simp only [methodText] at text
  split_ifs at text <;> simp_all

theorem mem_methodRecord {key : ConfigKey} {su viaSudo flags : FlagWord}
    {record : ConfigKey × CString} (membership : record ∈ methodRecord key su viaSudo flags) :
    record.1 = key ∧ record.2 ∈ ["none".toList, "su".toList, "sudo".toList] := by
  simp only [methodRecord] at membership
  split at membership
  next word text =>
    obtain rfl := List.mem_singleton.mp membership
    exact ⟨rfl, methodText_word text⟩
  next => exact absurd membership List.not_mem_nil

/-- The records behind the timeout are clean, and end the number of a timeout. -/
theorem mem_trailingRecords {s : Settings} {record : ConfigKey × CString}
    (membership : record ∈ trailingRecords s) :
    Clean record.2 ∧ endsNumber (recordText record.1.text record.2) = true := by
  have words : ∀ key ∈ [ConfigKey.localSU, .remoteSU],
      ∀ word ∈ ["none".toList, "su".toList, "sudo".toList],
      Clean word ∧ endsNumber (recordText key.text word) = true := by
    decide
  simp only [trailingRecords, List.mem_append] at membership
  rcases membership with (protocol | localSU) | remoteSU
  · split at protocol
    · obtain rfl := List.mem_singleton.mp protocol
      decide
    · exact absurd protocol List.not_mem_nil
  · obtain ⟨key, word⟩ := mem_methodRecord localSU
    rw [key]
    exact words _ (by decide) _ word
  · obtain ⟨key, word⟩ := mem_methodRecord remoteSU
    rw [key]
    exact words _ (by decide) _ word

/-- The part of a written file behind the fields, read back. -/
theorem readConfig_trailing (home : CString) (s t : Settings) :
    readConfig home (some (saveTimeout s.vpn.timeout ++ recordLines (trailingRecords s))) t =
      storeRecords home (readableRecords s) t := by
  have clean : ∀ record ∈ trailingRecords s, Clean record.2 := fun record membership =>
    (mem_trailingRecords membership).1
  have decimalClean : Clean (decimal s.vpn.timeout.toNat) := by
    intro c membership
    have digit := isDigit_of_mem_decimal membership
    rw [isPlain_iff]
    refine ⟨?_, ?_, ?_, ?_⟩
    · by_contra space
      simp [not_isDigit_of_isSpace (by simpa using space)] at digit
    all_goals
      rintro rfl
      exact absurd digit (by decide)
  by_cases positive : 0 < s.vpn.timeout.toNat
  · have written : saveTimeout s.vpn.timeout =
        recordText ConfigKey.timeout.text (decimal s.vpn.timeout.toNat) := if_pos positive
    simp only [written, readableRecords, if_pos positive]
    rcases shape : trailingRecords s with _ | ⟨record, records⟩
    · have last := readConfig_last home .timeout decimalClean t
      simpa [recordLines, storeRecords] using last
    · rw [shape] at clean
      have merged : Clean (decimal s.vpn.timeout.toNat ++ recordText record.1.text record.2) :=
        decimalClean.append (clean_recordText _ (clean record (by simp)))
      have head := readConfig_cons home .timeout merged (recordLines records) t
      have tail := readConfig_records home records
        (fun later membership => clean later (List.mem_cons_of_mem _ membership)) []
        (storeSetting home .timeout
          (decimal s.vpn.timeout.toNat ++ recordText record.1.text record.2) t)
      rw [List.append_nil, readConfig_nil] at tail
      have text : recordText ConfigKey.timeout.text (decimal s.vpn.timeout.toNat) ++
            recordLines (record :: records) =
          recordText ConfigKey.timeout.text
              (decimal s.vpn.timeout.toNat ++ recordText record.1.text record.2) ++
            '\n' :: recordLines records := by
        simp [recordLines, recordText]
      rw [text, head, tail]
      rfl
  · simp only [saveTimeout, readableRecords, if_neg positive, List.nil_append]
    have all := readConfig_records home (trailingRecords s) clean [] t
    rwa [List.append_nil, readConfig_nil] at all

theorem readConfig_writeConfig {texts : ConfigKey → SavedText} (home : CString)
    (s fresh : Settings) (holds : Holds texts s.vpn) :
    readConfig home (some (writeConfig home s)) fresh =
      storeRecords home (readableRecords s)
        (storeRecords home (fieldRecords home texts) fresh) := by
  rw [writeConfig_eq home s holds,
    readConfig_records home _ (fieldRecords_clean home texts), readConfig_trailing]

theorem field_storeSetting_of_ne (home value : CString) (s : Settings) {key other : ConfigKey}
    (saved : key ∈ savedKeys) (differ : other ≠ key) (noAlias : other ≠ .serverCert) :
    field (storeSetting home other value s).vpn key = field s.vpn key := by
  simp only [savedKeys, List.mem_cons, List.not_mem_nil, or_false] at saved
  rcases saved with rfl | rfl | rfl | rfl | rfl | rfl | rfl | rfl | rfl | rfl | rfl | rfl | rfl |
    rfl | rfl
  all_goals cases other <;> first | rfl | contradiction

/-- What reading a written value of a field puts into it. -/
def readValue (home : CString) (key : ConfigKey) (value : CString) : CString :=
  if key ∈ pathKeys then readFileConf home value else value

theorem field_storeSetting_self (home value : CString) (s : Settings) {key : ConfigKey}
    (saved : key ∈ savedKeys) (unset : key = .allowedIPs → field s.vpn key = none) :
    field (storeSetting home key value s).vpn key = some (readValue home key value) := by
  simp only [savedKeys, List.mem_cons, List.not_mem_nil, or_false] at saved
  rcases saved with rfl | rfl | rfl | rfl | rfl | rfl | rfl | rfl | rfl | rfl | rfl | rfl | rfl |
    rfl | rfl
  case inr.inr.inr.inr.inr.inr.inr.inr.inl =>
    have empty : s.vpn.allowedIPs = none := unset rfl
    show some (commaList s.vpn.allowedIPs (some value)) = some value
    simp [empty, commaList]
  all_goals rfl

theorem field_storeRecords_of_ne (home : CString) (records : List (ConfigKey × CString))
    (s : Settings) {key : ConfigKey} (saved : key ∈ savedKeys)
    (others : ∀ record ∈ records, record.1 ≠ key ∧ record.1 ≠ .serverCert) :
    field (storeRecords home records s).vpn key = field s.vpn key := by
  induction records generalizing s with
  | nil => rfl
  | cons record records inductionHypothesis =>
      have head := others record (by simp)
      have tail := inductionHypothesis (storeSetting home record.1 record.2 s)
        fun later membership => others later (List.mem_cons_of_mem _ membership)
      exact tail.trans (field_storeSetting_of_ne home record.2 s saved head.1 head.2)

/-- Records of distinct fields leave each field with its own value. -/
theorem field_storeRecords (home : CString) (value : ConfigKey → CString)
    (keys : List ConfigKey) (distinct : keys.Nodup) (saved : ∀ key ∈ keys, key ∈ savedKeys)
    (s : Settings) {key : ConfigKey} (membership : key ∈ keys)
    (unset : key = .allowedIPs → field s.vpn key = none) :
    field (storeRecords home (keys.map fun key => (key, value key)) s).vpn key =
      some (readValue home key (value key)) := by
  induction keys generalizing s with
  | nil => exact absurd membership List.not_mem_nil
  | cons first keys inductionHypothesis =>
      rw [List.nodup_cons] at distinct
      have savedKey := saved key membership
      by_cases here : first = key
      · subst here
        have others : ∀ record ∈ keys.map fun key => (key, value key),
            record.1 ≠ first ∧ record.1 ≠ .serverCert := by
          intro record inLater
          obtain ⟨later, laterMembership, rfl⟩ := List.mem_map.mp inLater
          refine ⟨fun same => distinct.1 (same ▸ laterMembership), ?_⟩
          rintro rfl
          exact absurd (saved .serverCert (List.mem_cons_of_mem _ laterMembership)) (by decide)
        exact (field_storeRecords_of_ne home _ _ savedKey others).trans
          (field_storeSetting_self home (value first) s savedKey unset)
      · have later : key ∈ keys := by
          rcases List.mem_cons.mp membership with same | later
          · exact absurd same.symm here
          · exact later
        have kept : field (storeSetting home first (value first) s).vpn key = field s.vpn key := by
          refine field_storeSetting_of_ne home _ s savedKey here ?_
          rintro rfl
          exact absurd (saved .serverCert (by simp)) (by decide)
        exact inductionHypothesis distinct.2
          (fun other inLater => saved other (List.mem_cons_of_mem _ inLater))
          (storeSetting home first (value first) s) later
          fun isAllowed => kept.trans (unset isAllowed)

def switches (s : Settings) : FlagWord × BitVec 32 × FlagWord :=
  (s.vpn.flags, s.vpn.timeout, s.globalFlags)

theorem switches_storeSetting (home value : CString) (s : Settings) {key : ConfigKey}
    (saved : key ∈ savedKeys) : switches (storeSetting home key value s) = switches s := by
  cases key <;> first | rfl | exact absurd saved (by decide)

theorem switches_storeRecords (home : CString) (records : List (ConfigKey × CString))
    (saved : ∀ record ∈ records, record.1 ∈ savedKeys) (s : Settings) :
    switches (storeRecords home records s) = switches s := by
  induction records generalizing s with
  | nil => rfl
  | cons record records inductionHypothesis =>
      have tail := inductionHypothesis
        (fun later membership => saved later (List.mem_cons_of_mem _ membership))
        (storeSetting home record.1 record.2 s)
      exact tail.trans (switches_storeSetting home record.2 s (saved record (by simp)))

theorem switches_fieldRecords (home : CString) (texts : ConfigKey → SavedText) (s : Settings) :
    switches (storeRecords home (fieldRecords home texts) s) = switches s := by
  refine switches_storeRecords home _ (fun record membership => ?_) s
  obtain ⟨key, saved, rfl⟩ := List.mem_map.mp membership
  exact saved

theorem mem_readableRecords {s : Settings} {record : ConfigKey × CString}
    (membership : record ∈ readableRecords s) :
    record.1 ∈ [ConfigKey.timeout, .protocol, .localSU, .remoteSU] := by
  have trailing : ∀ record ∈ trailingRecords s,
      record.1 ∈ [ConfigKey.timeout, .protocol, .localSU, .remoteSU] := by
    intro record membership
    simp only [trailingRecords, List.mem_append] at membership
    rcases membership with (protocol | localSU) | remoteSU
    · split at protocol
      · obtain rfl := List.mem_singleton.mp protocol
        decide
      · exact absurd protocol List.not_mem_nil
    · rw [(mem_methodRecord localSU).1]
      decide
    · rw [(mem_methodRecord remoteSU).1]
      decide
  unfold readableRecords at membership
  split at membership
  · rcases List.mem_cons.mp membership with rfl | inTail
    · exact List.mem_cons_self
    · exact trailing record (List.mem_of_mem_tail inTail)
  · exact trailing record membership

end VpnMgr.Config
