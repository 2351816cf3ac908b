import VpnMgr.Ctx
import VpnMgr.LibUseful.Duration
import VpnMgr.LibUseful.Stream
import VpnMgr.LibUseful.Tokenizer

/-!
# Reading a saved configuration

`ReadConfig` goes through the lines of the file, and `ReadConfigLine` through
the `name=value` pairs of a line; each pair changes one setting.
-/

namespace VpnMgr.Config

open Machine Text CString LibUseful

/-- What a configuration file can change: the context and `GlobalFlags`. -/
structure Settings where
  vpn : TVpn
  globalFlags : FlagWord
  deriving DecidableEq

/-- `ReadFileConf`; `home` is `GetCurrUserHomeDir()`. -/
def readFileConf (home : CString) (value : CString) : CString :=
  if hasPrefix "~/".toList value then mCopyStr [some home, some (value.drop 1)] else value

/-- The names `ReadConfigLine` looks for, in its order. -/
inductive ConfigKey where
  | server
  | clientCert
  | clientKey
  | verifyCert
  | serverCert
  | confFile
  | upFile
  | downFile
  | localAddress
  | allowedIPs
  | remoteDev
  | clientID
  | userName
  | password
  | remoteSearchPath
  | dns
  | timeout
  | protocol
  | remoteSU
  | localSU
  deriving DecidableEq

namespace ConfigKey

def all : List ConfigKey :=
  [server, clientCert, clientKey, verifyCert, serverCert, confFile, upFile, downFile,
    localAddress, allowedIPs, remoteDev, clientID, userName, password, remoteSearchPath, dns,
    timeout, protocol, remoteSU, localSU]

def text : ConfigKey → CString
  | server => "Server".toList
  | clientCert => "ClientCert".toList
  | clientKey => "ClientKey".toList
  | verifyCert => "VerifyCert".toList
  | serverCert => "ServerCert".toList
  | confFile => "ConfFile".toList
  | upFile => "UpFile".toList
  | downFile => "DownFile".toList
  | localAddress => "LocalAddress".toList
  | allowedIPs => "AllowedIPs".toList
  | remoteDev => "RemoteDev".toList
  | clientID => "ClientID".toList
  | userName => "UserName".toList
  | password => "Password".toList
  | remoteSearchPath => "RemoteSearchPath".toList
  | dns => "DNS".toList
  | timeout => "Timeout".toList
  | protocol => "Protocol".toList
  | remoteSU => "RemoteSU".toList
  | localSU => "LocalSU".toList

end ConfigKey

/-- The flags after a `RemoteSU` or `LocalSU` setting with these two bits. -/
def chooseMethod (su viaSudo : FlagWord) (value : CString) (flags : FlagWord) : FlagWord :=
  let cleared := flags.drop (su ||| viaSudo)
  if value = "none".toList then cleared.drop (su ||| viaSudo)
  else if value = "su".toList then cleared.raise su
  else if value = "sudo".toList then cleared.raise viaSudo
  else cleared

/-- The body of the `if` for `key` in `ReadConfigLine`. -/
def storeSetting (home : CString) (key : ConfigKey) (value : CString) (s : Settings) :
    Settings :=
  match key with
  | .server => { s with vpn := { s.vpn with server := some value } }
  | .clientCert => { s with vpn := { s.vpn with clientCert := some (readFileConf home value) } }
  | .clientKey => { s with vpn := { s.vpn with clientKey := some (readFileConf home value) } }
  | .verifyCert => { s with vpn := { s.vpn with verifyCert := some (readFileConf home value) } }
  | .serverCert => { s with vpn := { s.vpn with verifyCert := some (readFileConf home value) } }
  | .confFile => { s with vpn := { s.vpn with confFile := some (readFileConf home value) } }
  | .upFile => { s with vpn := { s.vpn with upFile := some (readFileConf home value) } }
  | .downFile => { s with vpn := { s.vpn with downFile := some (readFileConf home value) } }
  | .localAddress => { s with vpn := { s.vpn with localAddress := some value } }
  | .allowedIPs =>
      { s with vpn := { s.vpn with allowedIPs := some (commaList s.vpn.allowedIPs (some value)) } }
  | .remoteDev => { s with vpn := { s.vpn with remoteDev := some value } }
  | .clientID => { s with vpn := { s.vpn with clientID := some value } }
  | .userName => { s with vpn := { s.vpn with userName := some value } }
  | .password => { s with vpn := { s.vpn with password := some value } }
  | .remoteSearchPath => { s with vpn := { s.vpn with remoteSearchPath := some value } }
  | .dns => { s with vpn := { s.vpn with dns := some value } }
  | .timeout => { s with vpn := { s.vpn with timeout := (parseDuration value).setWidth 32 } }
  | .protocol => { s with vpn := { s.vpn with flags := s.vpn.flags.raise vpnTcp } }
  | .remoteSU =>
      { s with globalFlags := chooseMethod flagRemoteSu flagRemoteSudo value s.globalFlags }
  | .localSU =>
      { s with globalFlags := chooseMethod flagLocalSu flagLocalSudo value s.globalFlags }

/-- The body of the loop of `ReadConfigLine`: one `if` after the other. -/
def applySetting (home key value : CString) (s : Settings) : Settings :=
  ConfigKey.all.foldl
    (fun s known => if sameNoCase key known.text then storeSetting home known value s else s) s

/-- The loop of `ReadConfigLine`. -/
def readConfigPairs (home : CString) : Nat → NameValue → Settings → Settings
  | 0, _, s => s
  | fuel + 1, pair, s =>
      match pair.ptr with
      | none => s
      | some rest =>
          readConfigPairs home fuel (getNameValuePair (some rest) [' '] ['='])
            (applySetting home pair.name pair.value s)

/-- `ReadConfigLine`.  A pair uses up at least one character of the line. -/
def readConfigLine (home line : CString) (s : Settings) : Settings :=
  readConfigPairs home (line.length + 1) (getNameValuePair (some line) [' '] ['=']) s

/-- `ReadConfig` on the contents of the file; without a file nothing changes. -/
def readConfig (home : CString) (file : CPtr) (s : Settings) : Settings :=
  match file with
  | none => s
  | some contents =>
      (streamReadLines contents).foldl
        (fun s line => readConfigLine home (stripTrailingWhitespace line) s) s

/-! ## One record -/

theorem ConfigKey.mem_all (key : ConfigKey) : key ∈ ConfigKey.all := by
  cases key <;> decide

theorem ConfigKey.sameNoCase_text (key known : ConfigKey) :
    sameNoCase key.text known.text = decide (key = known) := by
  have distinct : ∀ key ∈ ConfigKey.all, ∀ known ∈ ConfigKey.all,
      sameNoCase key.text known.text = decide (key = known) := by
    decide +kernel
  exact distinct key key.mem_all known known.mem_all

theorem applySetting_text (home : CString) (key : ConfigKey) (value : CString) (s : Settings) :
    applySetting home key.text value s = storeSetting home key value s := by
  simp only [applySetting, ConfigKey.sameNoCase_text]
  cases key <;> rfl

theorem ConfigKey.text_plain (key : ConfigKey) : ∀ c ∈ key.text, isPlain c = true ∧ c ≠ '=' := by
  have checked : key.text.all (fun c => isPlain c && c != '=') = true := by
    cases key <;> rfl
  simpa using checked

theorem ConfigKey.text_ne_nil (key : ConfigKey) : key.text ≠ [] := by
  cases key <;> decide

/-- `name=value`, as a configuration line holds it. -/
def recordText (name value : CString) : CString := name ++ '=' :: value

theorem clean_recordText (key : ConfigKey) {value : CString} (clean : Clean value) :
    Clean (recordText key.text value) := by
  intro c membership
  rcases List.mem_append.mp membership with inKey | inValue
  · exact (key.text_plain c inKey).1
  · rcases List.mem_cons.mp inValue with rfl | inValue
    · decide
    · exact clean c inValue

theorem getNameValuePair_record (key : ConfigKey) {value : CString} (clean : Clean value) :
    getNameValuePair (some (recordText key.text value)) [' '] ['='] =
      ⟨some [], key.text, value⟩ := by
  have nonempty : recordText key.text value ≠ [] := by simp [recordText]
  have noBlank : ∀ c ∈ recordText key.text value, isUnquoted c = true ∧ c ≠ ' ' := by
    intro c membership
    have plain := clean_recordText key clean c membership
    refine ⟨isUnquoted_of_isPlain plain, ?_⟩
    rintro rfl
    exact absurd plain (by decide)
  have pair : getToken (some (recordText key.text value)) [' '] getTokenHonorQuotes =
      ⟨some [], recordText key.text value⟩ :=
    getToken_honor_no_sep nonempty rfl rfl (by decide) noBlank
  have name : getToken (some (recordText key.text value)) ['='] getTokenQuotes =
      ⟨some value, key.text⟩ :=
    getToken_honor_append_sep value key.text_ne_nil rfl rfl (by decide) fun c membership =>
      ⟨isUnquoted_of_isPlain (key.text_plain c membership).1, (key.text_plain c membership).2⟩
  simp [getNameValuePair, pair, name, nonempty, stripQuotes_of_clean clean]

theorem readConfigPairs_none (home : CString) (fuel : Nat) (name value : CString)
    (s : Settings) : readConfigPairs home fuel ⟨none, name, value⟩ s = s := by
  cases fuel <;> rfl

theorem readConfigLine_record (home : CString) (key : ConfigKey) {value : CString}
    (clean : Clean value) (s : Settings) :
    readConfigLine home (recordText key.text value) s = storeSetting home key value s := by
  have done : getNameValuePair (some []) [' '] ['='] = ⟨none, [], []⟩ := by
    simp [getNameValuePair]
  simp only [readConfigLine, readConfigPairs, getNameValuePair_record key clean, done,
    applySetting_text, readConfigPairs_none]

end VpnMgr.Config
