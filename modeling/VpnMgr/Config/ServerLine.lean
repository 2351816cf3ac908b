import VpnMgr.Config.FileSettings
import VpnMgr.Machine.LastWrite

/-!
# Which server a configuration names

`ReadConfigLine` splits a line at its blanks, so that a path with a blank in it
can name a server of its own.
-/

namespace VpnMgr.Config

open Machine Text CString LibUseful

def settingServer (setting : ConfigKey × CString) : Option CPtr :=
  if setting.1 = .server then some (some setting.2) else none

def serverNamed (text : CString) : Option CPtr := lastGiven settingServer (fileSettings (some text))

theorem server_readConfig (home text : CString) (s : Settings) :
    (readConfig home (some text) s).vpn.server = (serverNamed text).getD s.vpn.server := by
  rw [readConfig_eq, storeRecords]
  refine read_foldl _ (fun s => s.vpn.server) settingServer (fun s setting => ?_) _ s
  obtain ⟨key, value⟩ := setting
  cases key <;> rfl

theorem name_readConfig (home text : CString) (s : Settings) :
    (readConfig home (some text) s).vpn.name = s.vpn.name := by
  rw [readConfig_eq, storeRecords]
  induction fileSettings (some text) generalizing s with
  | nil => rfl
  | cons setting settings inductionHypothesis =>
      rw [List.foldl_cons, inductionHypothesis]
      cases setting.1 <;> rfl

/-- The lines of the paths. -/
def pathLines (home : CString) (vpn : TVpn) : CString :=
  let home := mCopyStr [some home, some "/".toList]
  saveFilePath "ClientCert".toList vpn.clientCert home ++
  saveFilePath "ClientKey".toList vpn.clientKey home ++
  saveFilePath "VerifyCert".toList vpn.verifyCert home ++
  saveFilePath "ConfFile".toList vpn.confFile home ++
  saveFilePath "UpFile".toList vpn.upFile home ++
  saveFilePath "DownFile".toList vpn.downFile home

/-- The keys whose values stand in the file as they are. -/
def verbatimKeys : List ConfigKey :=
  [.localAddress, .allowedIPs, .remoteDev, .dns, .clientID, .userName, .password,
    .remoteSearchPath]

def verbatimRecord (vpn : TVpn) (key : ConfigKey) : List (ConfigKey × CString) :=
  if strValid (field vpn key) then [(key, copyStr (field vpn key))] else []

def verbatimRecords (vpn : TVpn) : List (ConfigKey × CString) :=
  verbatimKeys.flatMap (verbatimRecord vpn)

theorem recordLines_verbatimRecord (vpn : TVpn) (key : ConfigKey) :
    recordLines (verbatimRecord vpn key) = saveField key.text (field vpn key) := by
  unfold verbatimRecord saveField
  split
  · simp [recordLines]
  · rfl

theorem writeConfig_lines (home : CString) (s : Settings) :
    writeConfig home s = mCopyStr [some "Server=".toList, s.vpn.server, some ['\n']] ++
      (pathLines home s.vpn ++ (recordLines (verbatimRecords s.vpn) ++
        (saveTimeout s.vpn.timeout ++ recordLines (trailingRecords s)))) := by
  have protocol : (if s.vpn.flags.has vpnTcp then "Protocol=tcp\n".toList else []) =
      recordLines (if s.vpn.flags.has vpnTcp then [(.protocol, "tcp".toList)] else []) := by
    split <;> rfl
  have localSU : saveMethod "LocalSU".toList flagLocalSu flagLocalSudo s.globalFlags = _ :=
    saveMethod_eq .localSU flagLocalSu flagLocalSudo s.globalFlags
  have remoteSU : saveMethod "RemoteSU".toList flagRemoteSu flagRemoteSudo s.globalFlags = _ :=
    saveMethod_eq .remoteSU flagRemoteSu flagRemoteSudo s.globalFlags
  have fields : recordLines (verbatimRecords s.vpn) =
      (verbatimKeys.map fun key => saveField key.text (field s.vpn key)).flatten := by
    simp only [verbatimRecords, verbatimKeys, List.flatMap_cons, List.flatMap_nil,
      recordLines_append, recordLines_verbatimRecord, List.map_cons, List.map_nil,
      List.flatten_cons, List.flatten_nil]
    rfl
  rw [fields]
  unfold writeConfig pathLines
  simp only [protocol, localSU, remoteSU, trailingRecords, recordLines_append, verbatimKeys,
    List.map_cons, List.map_nil, List.flatten_cons, List.flatten_nil, List.append_assoc,
    List.append_nil]
  rfl

/-! ## Texts that end with a line -/

def EndsLine (text : CString) : Prop := text = [] ∨ text.getLast? = some '\n'

theorem EndsLine.append {first second : CString} (endsFirst : EndsLine first)
    (endsSecond : EndsLine second) : EndsLine (first ++ second) := by
  rcases endsSecond with rfl | ends
  · rwa [List.append_nil]
  · refine .inr ?_
    rw [List.getLast?_append, ends]
    rfl

theorem streamReadLines_ne_nil {text : CString} (nonempty : text ≠ []) :
    streamReadLines text ≠ [] := by
  cases text with
  | nil => exact absurd rfl nonempty
  | cons c rest =>
      rw [streamReadLines]
      split
      · exact List.cons_ne_nil _ _
      · split <;> exact List.cons_ne_nil _ _

theorem streamReadLines_append {first : CString} (ends : EndsLine first) (second : CString) :
    streamReadLines (first ++ second) = streamReadLines first ++ streamReadLines second := by
  induction first with
  | nil => rfl
  | cons c first inductionHypothesis =>
      rcases ends with empty | ends
      · cases empty
      by_cases newline : c = '\n'
      · subst newline
        have later : EndsLine first := by
          cases first with
          | nil => exact .inl rfl
          | cons d rest => exact .inr (by rwa [List.getLast?_cons_cons] at ends)
        simp [streamReadLines, inductionHypothesis later]
      · cases first with
        | nil => exact absurd (Option.some.inj ends) newline
        | cons d rest =>
            rw [List.getLast?_cons_cons] at ends
            have lines := inductionHypothesis (.inr ends)
            obtain ⟨line, others, split⟩ := List.exists_cons_of_ne_nil
              (streamReadLines_ne_nil (List.cons_ne_nil d rest))
            rw [List.cons_append, streamReadLines, streamReadLines, lines, split]
            simp [newline]

theorem readConfig_append (home : CString) {first : CString} (ends : EndsLine first)
    (second : CString) (s : Settings) :
    readConfig home (some (first ++ second)) s =
      readConfig home (some second) (readConfig home (some first) s) := by
  simp only [readConfig, streamReadLines_append ends, List.foldl_append]

theorem endsLine_pathLines (home : CString) (vpn : TVpn) : EndsLine (pathLines home vpn) := by
  have line : ∀ name path home, EndsLine (saveFilePath name path home) := by
    intro name path home
    unfold saveFilePath
    split
    · exact .inr (List.getLast?_concat ..)
    · exact .inl rfl
  unfold pathLines
  exact (((((line _ _ _).append (line _ _ _)).append (line _ _ _)).append (line _ _ _)).append
    (line _ _ _)).append (line _ _ _)

theorem verbatimRecords_clean {vpn : TVpn}
    (fields : ∀ key ∈ verbatimKeys, ∀ value, field vpn key = some value → Clean value) :
    ∀ record ∈ verbatimRecords vpn, record.1 ∈ verbatimKeys ∧ Clean record.2 := by
  intro record member
  obtain ⟨key, isKey, written⟩ := List.mem_flatMap.mp member
  unfold verbatimRecord at written
  split at written
  next set =>
    obtain rfl := List.mem_singleton.mp written
    obtain ⟨value, isValue, -⟩ := (strValid_iff _).mp set
    refine ⟨isKey, ?_⟩
    rw [isValue]
    exact fields key isKey value isValue
  next => cases written

/-- A saved server comes back unless a path names another one. -/
theorem server_readConfig_writeConfig (home : CString) (s fresh : Settings) {server : CString}
    (isServer : s.vpn.server = some server) (clean : Clean server)
    (fields : ∀ key ∈ verbatimKeys, ∀ value, field s.vpn key = some value → Clean value) :
    (readConfig home (some (writeConfig home s)) fresh).vpn.server =
      (serverNamed (pathLines home s.vpn)).getD (some server) := by
  have records := verbatimRecords_clean fields
  have first : mCopyStr [some "Server=".toList, s.vpn.server, some ['\n']] =
      recordText ConfigKey.server.text server ++ ['\n'] := by
    rw [isServer]
    rfl
  have behind : ∀ s' : Settings, field (readConfig home (some (recordLines (verbatimRecords s.vpn) ++
      (saveTimeout s.vpn.timeout ++ recordLines (trailingRecords s)))) s').vpn .server =
        field s'.vpn .server := by
    intro s'
    rw [readConfig_records home _ fun record member => (records record member).2,
      readConfig_trailing]
    refine (field_storeRecords_of_ne home _ _ (by decide) fun record member => ?_).trans
      (field_storeRecords_of_ne home _ _ (by decide) fun record member => ?_)
    · have key := mem_readableRecords member
      refine ⟨?_, ?_⟩ <;> (intro same; rw [same] at key; exact absurd key (by decide))
    · have key := (records record member).1
      refine ⟨?_, ?_⟩ <;> (intro same; rw [same] at key; exact absurd key (by decide))
  have served := server_readConfig home (pathLines home s.vpn) (storeSetting home .server server fresh)
  rw [writeConfig_lines, first, List.append_assoc, List.singleton_append,
    readConfig_cons home .server clean, readConfig_append home (endsLine_pathLines home s.vpn)]
  exact (behind _).trans served

end VpnMgr.Config
