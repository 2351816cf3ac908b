import VpnMgr.Options.Precedence

/-!
# Contexts from clean words

What a context looks like when every word of the command line and every value
of the saved configuration is free of white space, quotes and backslashes.
-/

namespace VpnMgr.Options

open Machine Text CString LibUseful Config

def CleanPtr (p : CPtr) : Prop := ∀ s, p = some s → Clean s

def CleanList (p : CPtr) : Prop := ∀ s, p = some s → ∀ c ∈ s, isPlain c = true ∨ c = ' '

structure CleanContext (vpn : TVpn) : Prop where
  name : ∃ s, vpn.name = some s ∧ Clean s
  server : ∃ s, vpn.server = some s ∧ Clean s
  fields : ∀ field : TextField, field ≠ .allowedIPs → CleanPtr (field.get vpn)
  /-- the reader of the configuration joins its entries with `", "` -/
  allowedIPs : CleanList vpn.allowedIPs

theorem cleanPtr_none : CleanPtr none := fun _ set => absurd set (by simp)

theorem cleanPtr_some {s : CString} (clean : Clean s) : CleanPtr (some s) := fun t set => by
  obtain rfl := Option.some.inj set
  exact clean

theorem clean_nil : Clean [] := fun _ inside => absurd inside List.not_mem_nil

theorem clean_copyStr {p : CPtr} (clean : CleanPtr p) : Clean (copyStr p) := by
  cases p with
  | none => exact clean_nil
  | some s => exact clean s rfl

theorem cleanList_of_clean {p : CPtr} (clean : CleanPtr p) : CleanList p :=
  fun s set c inside => .inl (clean s set c inside)

theorem cleanList_commaList {list : CPtr} (listed : CleanList list) {value : CString}
    (clean : Clean value) : CleanList (some (commaList list (some value))) := by
  intro text set c inside
  obtain rfl := Option.some.inj set
  unfold commaList at inside
  split at inside
  · simp only [mCatStr, mCopyStr_some, mCopyStr_nil, List.mem_append] at inside
    rcases inside with inList | separator | inValue | none
    · cases list with
      | none => exact absurd inList List.not_mem_nil
      | some s => exact listed s rfl c inList
    · rcases List.mem_pair.mp separator with rfl | rfl
      · exact .inl rfl
      · exact .inr rfl
    · exact .inl (clean c inValue)
    · exact absurd none List.not_mem_nil
  · exact .inl (clean c inside)

namespace CleanContext

variable {vpn : TVpn}

/-- A string member is set. -/
theorem set (context : CleanContext vpn) (field : TextField) {value : CPtr}
    (clean : CleanPtr value) : CleanContext (field.set vpn value) where
  name := by
    have same : (field.set vpn value).name = vpn.name := by cases field <;> rfl
    rw [same]
    exact context.name
  server := by
    rw [(field.set_others vpn value).1]
    exact context.server
  fields other notAllowed := by
    rw [TextField.get_set]
    split
    · exact clean
    · exact context.fields other notAllowed
  allowedIPs := by
    have read := TextField.get_set vpn value field .allowedIPs
    change CleanList (TextField.allowedIPs.get (field.set vpn value))
    rw [read]
    split
    · exact cleanList_of_clean clean
    · exact context.allowedIPs

theorem congr {other : TVpn} (context : CleanContext vpn) (name : other.name = vpn.name)
    (server : other.server = vpn.server)
    (same : ∀ field : TextField, field.get other = field.get vpn) :
    CleanContext other where
  name := by
    rw [name]
    exact context.name
  server := by
    rw [server]
    exact context.server
  fields field notAllowed := by
    rw [same]
    exact context.fields field notAllowed
  allowedIPs := by
    change CleanList (TextField.allowedIPs.get other)
    rw [same]
    exact context.allowedIPs

end CleanContext

/-! ## From the command line -/

theorem clean_defaultScripts {name : CPtr} (cleanName : CleanPtr name) {kind : CString}
    (cleanKind : Clean kind) : Clean (defaultScripts name kind) := by
  have fallback : Clean (mCopyStr [some "/etc/vpn_mgr/default.".toList, some kind]) := by
    simpa using Clean.append (a := "/etc/vpn_mgr/default.".toList) (by decide) cleanKind
  refine Clean.append ?_ fallback
  cases name with
  | none => exact clean_nil
  | some s =>
      split
      · have own := Clean.append (a := "/etc/vpn_mgr/".toList) (by decide) (Clean.append
          (cleanName s rfl) (Clean.append (a := ".".toList) (by decide) (Clean.append cleanKind
            (b := ":".toList) (by decide))))
        simpa using own
      · exact clean_nil

theorem cleanContext_create {action : CString} {name server : CPtr} {vpn : TVpn}
    (created : vpnCtxCreate action name server = some vpn) (cleanName : CleanPtr name)
    (cleanServer : CleanPtr server) : CleanContext vpn := by
  unfold vpnCtxCreate at created
  simp only at created
  split at created
  · exact absurd created (by simp)
  · obtain rfl := Option.some.inj created
    refine ⟨⟨_, rfl, clean_copyStr cleanName⟩, ⟨_, rfl, clean_copyStr cleanServer⟩, ?_,
      cleanList_of_clean cleanPtr_none⟩
    intro field notAllowed
    cases field
    all_goals first
      | exact cleanPtr_none
      | exact cleanPtr_some (by decide)
      | exact cleanPtr_some (clean_defaultScripts cleanName (by decide))

theorem cleanContext_applyOption {kind : OptionKind} {value : CPtr} {s : Settings}
    (context : CleanContext s.vpn) (clean : CleanPtr value) :
    CleanContext (applyOption kind value s).vpn := by
  cases kind with
  | text field => exact context.set field (cleanPtr_some (clean_copyStr clean))
  | globalFlags => exact context
  | mtu | lineSpeed | timeout | vpnFlag =>
      exact context.congr rfl rfl fun field => by cases field <;> rfl

theorem optionsGiven_clean {args : List CString} (clean : ∀ word ∈ args, Clean word) :
    ∀ option ∈ optionsGiven args, CleanPtr option.2 := by
  fun_induction optionsGiven args with
  | case1 => simp
  | case2 arg rest unknown inductionHypothesis =>
      exact inductionHypothesis fun word inside => clean word (by simp [inside])
  | case3 arg kind known takes => simpa using cleanPtr_none
  | case4 arg kind known takes value rest inductionHypothesis =>
      simp only [List.mem_cons, forall_eq_or_imp] at clean ⊢
      exact ⟨cleanPtr_some clean.2.1, inductionHypothesis clean.2.2⟩
  | case5 arg rest kind known bare inductionHypothesis =>
      simp only [List.mem_cons, forall_eq_or_imp] at clean ⊢
      exact ⟨cleanPtr_none, inductionHypothesis clean.2⟩

theorem cleanContext_parseOptions {args : List CString} {s t : Settings}
    (parsed : parseOptions args s = some t) (clean : ∀ word ∈ args, Clean word)
    (context : CleanContext s.vpn) : CleanContext t.vpn := by
  rw [parseOptions_eq parsed]
  have cleanOptions := optionsGiven_clean clean
  generalize optionsGiven args = options at cleanOptions
  clear parsed
  induction options generalizing s with
  | nil => exact context
  | cons option options inductionHypothesis =>
      simp only [List.mem_cons, forall_eq_or_imp] at cleanOptions
      exact inductionHypothesis (cleanContext_applyOption context cleanOptions.1) cleanOptions.2

structure CleanWords (words : CommandWords) : Prop where
  name : CleanPtr words.name
  server : CleanPtr words.server
  options : ∀ word ∈ words.options, Clean word

theorem cleanWords_commandWords {argv : List CString} (clean : ∀ word ∈ argv, Clean word) :
    CleanWords (commandWords argv) := by
  have head {words : List CString} (inArgv : ∀ word ∈ words, word ∈ argv) :
      CleanPtr (some (copyStr words.head?)) := by
    refine cleanPtr_some (clean_copyStr fun s isHead => ?_)
    exact clean s (inArgv s (List.mem_of_head? isHead))
  have tail : ∀ word ∈ argv.tail, word ∈ argv := fun word => List.mem_of_mem_tail
  have tail2 : ∀ word ∈ argv.tail.tail, word ∈ argv := fun word inside =>
    tail word (List.mem_of_mem_tail inside)
  have tail3 : ∀ word ∈ argv.tail.tail.tail, word ∈ argv := fun word inside =>
    tail2 word (List.mem_of_mem_tail inside)
  unfold commandWords
  repeat' refine iteInduction (fun _ => ?_) (fun _ => ?_)
  · exact ⟨head tail, head tail2, fun word inside => clean word (tail3 word inside)⟩
  · exact ⟨head tail, cleanPtr_none, fun word inside => clean word (tail2 word inside)⟩
  · exact ⟨cleanPtr_none, head tail, fun word inside => clean word (tail2 word inside)⟩
  · exact ⟨cleanPtr_none, head tail, fun word inside => clean word (tail2 word inside)⟩
  · exact ⟨head tail, cleanPtr_some clean_nil, fun word inside => clean word (tail2 word inside)⟩
  · exact ⟨cleanPtr_none, cleanPtr_none, fun word inside => clean word (tail word inside)⟩
  · exact ⟨cleanPtr_none, cleanPtr_none, fun word inside => clean word (tail word inside)⟩

theorem cleanContext_parseCommandLine {root : Bool} {argv : List CString} {s : Settings}
    (parsed : parseCommandLine root argv = some s) (clean : ∀ word ∈ argv, Clean word) :
    CleanContext s.vpn := by
  obtain ⟨cleanName, cleanServer, cleanOptions⟩ := cleanWords_commandWords clean
  unfold parseCommandLine at parsed
  simp only at parsed
  split at parsed
  · obtain ⟨vpn, created, options⟩ := Option.bind_eq_some_iff.mp parsed
    exact cleanContext_parseOptions options cleanOptions
      (cleanContext_create created cleanName cleanServer)
  · exact absurd parsed (by simp)

theorem clean_readFileConf {home value : CString} (cleanHome : Clean home) (clean : Clean value) :
    Clean (readFileConf home value) := by
  unfold readFileConf
  split
  · have rest : Clean (value.drop 1) := fun c inside => clean c (List.mem_of_mem_drop inside)
    simpa using cleanHome.append rest
  · exact clean

theorem cleanContext_storeSetting {home : CString} (cleanHome : Clean home) {key : ConfigKey}
    {value : CString} (clean : Clean value) {s : Settings} (context : CleanContext s.vpn) :
    CleanContext (storeSetting home key value s).vpn := by
  have path := cleanPtr_some (clean_readFileConf cleanHome clean)
  have text := cleanPtr_some clean
  cases key
  case server =>
    exact ⟨context.name, ⟨value, rfl, clean⟩, context.fields, context.allowedIPs⟩
  case allowedIPs =>
    refine ⟨context.name, context.server, fun field notAllowed => ?_,
      cleanList_commaList context.allowedIPs clean⟩
    have same : field.get (storeSetting home .allowedIPs value s).vpn = field.get s.vpn := by
      cases field
      case allowedIPs => exact absurd rfl notAllowed
      all_goals rfl
    rw [same]
    exact context.fields field notAllowed
  case clientCert => exact context.set .clientCert path
  case clientKey => exact context.set .clientKey path
  case verifyCert => exact context.set .verifyCert path
  case serverCert => exact context.set .verifyCert path
  case confFile => exact context.set .confFile path
  case upFile => exact context.set .upFile path
  case downFile => exact context.set .downFile path
  case localAddress => exact context.set .localAddress text
  case remoteDev => exact context.set .remoteDev text
  case clientID => exact context.set .clientID text
  case userName => exact context.set .userName text
  case password => exact context.set .password text
  case remoteSearchPath => exact context.set .remoteSearchPath text
  case dns => exact context.set .dns text
  all_goals exact context.congr rfl rfl fun field => by cases field <;> rfl

theorem cleanContext_storeRecords {home : CString} (cleanHome : Clean home)
    {settings : List (ConfigKey × CString)} (clean : ∀ setting ∈ settings, Clean setting.2)
    {s : Settings} (context : CleanContext s.vpn) :
    CleanContext (storeRecords home settings s).vpn := by
  induction settings generalizing s with
  | nil => exact context
  | cons setting settings inductionHypothesis =>
      simp only [List.mem_cons, forall_eq_or_imp] at clean
      exact inductionHypothesis clean.2 (cleanContext_storeSetting cleanHome clean.1 context)

theorem cleanContext_toConnect {root : Bool} {argv : List CString} {s : Settings}
    (parsed : parseCommandLine root argv = some s) (clean : ∀ word ∈ argv, Clean word)
    {home : CString} (cleanHome : Clean home) {file : CPtr}
    (cleanFile : ∀ setting ∈ fileSettings file, Clean setting.2) :
    CleanContext (settingsToConnect home file s).vpn := by
  have context := cleanContext_parseCommandLine parsed clean
  unfold settingsToConnect
  split
  · exact context
  · rw [readConfig_eq]
    exact cleanContext_storeRecords cleanHome cleanFile context

end VpnMgr.Options
