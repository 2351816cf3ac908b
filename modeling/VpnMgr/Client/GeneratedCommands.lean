import VpnMgr.Client.AllowedIps
import VpnMgr.Client.OpenVpn
import VpnMgr.Client.Ppp
import VpnMgr.Client.Wireguard
import VpnMgr.LibUseful.Url
import VpnMgr.Options.CleanContext
import VpnMgr.Shell.LineWords

/-!
# Generated commands

The parts that the commands of the drivers are meant to have, and when the
texts that the drivers put together have exactly these parts.
-/

namespace VpnMgr.Client

open Machine Text CString LibUseful Command Options Shell

def urlOf (details : HostDetails) : Url :=
  ⟨some details.host, some details.port, some details.user⟩

/-- `ParseURL`. -/
def parseURL (url : CPtr) : Url := urlOf (decodeURL true (copyStr url))

/-- `UnpackURL`. -/
def unpackURL (url : CPtr) : Url := urlOf (decodeURL false (copyStr url))

/-! ## The intended parts -/

inductive Part where
  | word (text : CString)
  | option (name : CString) (values : List CString)
  /-- `name=value` in one word -/
  | setting (name value : CString)

namespace Part

def words : Part → List Word
  | word text => [text]
  | option name values => name :: values
  | setting name value => [name ++ value]

def values : Part → List CString
  | word _ => []
  | option _ values => values
  | setting _ value => [value]

end Part

/-- A text that is there and that is one word for whoever splits the line. -/
def IsValue (value : CString) : Prop := value ≠ [] ∧ Clean value

instance (value : CString) : Decidable (IsValue value) :=
  inferInstanceAs (Decidable (value ≠ [] ∧ Clean value))

/-- Every value is there, and the line consists of the words of the parts. -/
def Complete (line : CString) (parts : List Part) : Prop :=
  (∀ part ∈ parts, ∀ value ∈ part.values, IsValue value) ∧
    lineWords line = parts.flatMap Part.words

def given (p : CPtr) : List CString := if strValid p then [copyStr p] else []

def givenOption (name : CString) (p : CPtr) : List Part :=
  (given p).map fun value => .option name [value]

/-- The documented rule of `-key`: without it the key is in the file of `-cert`. -/
def privateKey (vpn : TVpn) : CPtr :=
  if strValid vpn.clientKey then vpn.clientKey else vpn.clientCert

/-- What `OpenVpnUp` starts its own command with. -/
def startParts (url : Url) : List Part :=
  [.word "openvpn".toList, .word "--client".toList, .word "--tls-client".toList,
    .option "--dev".toList ["tun".toList], .word "--persist-tun".toList, .word "--nobind".toList,
    .option "--keepalive".toList ["10".toList, "30".toList],
    .option "--remote".toList (copyStr url.host :: given url.port)]

def protoParts (vpn : TVpn) : List Part :=
  [.option "--proto".toList [if vpn.flags.has vpnTcp then "tcp-client".toList else "udp".toList]]

def authParts (settings : Settings) (vpn : TVpn) : List Part :=
  if strValid vpn.userName then
    [.option "--auth-user-pass".toList [openVpnPath settings vpn ".auth".toList]]
  else []

def keyParts (vpn : TVpn) : List Part :=
  givenOption "--cert".toList vpn.clientCert ++ givenOption "--key".toList (privateKey vpn)

def tailParts (settings : Settings) (vpn : TVpn) : List Part :=
  (if vpn.mtu ≠ 0 then [.option "--tun-mtu".toList [decimal vpn.mtu.toNat]] else []) ++
    [.option "--writepid".toList [openVpnPath settings vpn ".pid".toList]]

def openVpnParts (settings : Settings) (vpn : TVpn) : List Part :=
  (if strValid vpn.confFile then
    [.word "openvpn".toList, .option "--conf".toList [copyStr vpn.confFile]]
  else
    startParts (settings.parseURL vpn.server) ++ protoParts vpn ++
      givenOption "--secret".toList vpn.preSharedKey ++
      givenOption "--cipher".toList vpn.ciphers ++ authParts settings vpn ++ keyParts vpn ++
      givenOption "--ca".toList vpn.verifyCert) ++ tailParts settings vpn

def endpointText (host port : CPtr) : CString :=
  if strValid host then copyStr host ++ ':' :: copyStr port else []

def peerParts (vpn : TVpn) (peer : CString) (host port : CPtr) : List Part :=
  (if vpn.action = .server then [.option "listen-port".toList [copyStr port]] else []) ++
    [.option "peer".toList [peer]] ++
    (if vpn.action = .connect then [.option "endpoint".toList [endpointText host port]] else []) ++
    (if strValid vpn.allowedIPs then
      [.option "allowed-ips".toList
        [if sameNoCase (copyStr vpn.allowedIPs) "all".toList then "0.0.0.0/0".toList
          else copyStr vpn.allowedIPs]]
    else [])

def interfaceParts (vpn : TVpn) (dev : CString) : List Part :=
  [.word "wg".toList, .option "set".toList [dev],
    .option "private-key".toList [copyStr (privateKey vpn)]]

def wireguardParts (vpn : TVpn) (dev peer : CString) (host port : CPtr) : List Part :=
  if strValid vpn.confFile then
    [.word "wg".toList, .option "setconf".toList [dev, copyStr vpn.confFile]]
  else interfaceParts vpn dev ++ peerParts vpn peer host port

def tlsParts (vpn : TVpn) : List Part :=
  [.word "rw".toList, .setting "SSL:CertFile=".toList (copyStr vpn.clientCert),
    .setting "SSL:KeyFile=".toList (copyStr (privateKey vpn))] ++
    (given vpn.verifyCert).map (.setting "SSL:VerifyFile=".toList) ++
    (given vpn.ciphers).map (.setting "SSL:PermittedCiphers=".toList)

theorem literal_of_clean {text : CString} (clean : Clean text) (quoted : Bool) :
    Literal quoted text := by
  intro c inside
  obtain ⟨notSpace, _, notQuote, _⟩ := (isPlain_iff c).mp (clean c inside)
  refine ⟨notQuote, fun blank => ?_⟩
  have space : isSpace c = true := by
    rcases (by simpa [isBlank] using blank : c = ' ' ∨ c = '\t') with rfl | rfl <;> rfl
  exact absurd space (by simp [notSpace])

theorem IsValue.renders {value : CString} (isValue : IsValue value) : Renders value [value] :=
  .word (literal_of_clean isValue.2 false) isValue.1

theorem isValue_of_set {p : CPtr} (clean : CleanPtr p) (set : strValid p = true) :
    IsValue (copyStr p) := by
  obtain ⟨value, rfl, nonempty⟩ := (strValid_iff p).mp set
  exact ⟨nonempty, clean value rfl⟩

theorem eq_some_copyStr {p : CPtr} (set : strValid p = true) : p = some (copyStr p) := by
  obtain ⟨value, rfl, _⟩ := (strValid_iff p).mp set
  rfl

theorem set_of_isValue {p : CPtr} (isValue : IsValue (copyStr p)) : strValid p = true := by
  cases p with
  | none => exact absurd rfl isValue.1
  | some s => exact (strValid_some_iff s).mpr isValue.1

theorem given_values {p : CPtr} (clean : CleanPtr p) : ∀ value ∈ given p, IsValue value := by
  intro value member
  unfold given at member
  split at member
  case isTrue set =>
    obtain rfl := List.mem_singleton.mp member
    exact isValue_of_set clean set
  case isFalse => exact absurd member List.not_mem_nil

def HaveValues (parts : List Part) : Prop :=
  ∀ part ∈ parts, ∀ value ∈ part.values, IsValue value

theorem haveValues_append {first second : List Part} :
    HaveValues (first ++ second) ↔ HaveValues first ∧ HaveValues second :=
  List.forall_mem_append

theorem haveValues_givenOption (name : CString) {p : CPtr} (clean : CleanPtr p) :
    HaveValues (givenOption name p) := by
  intro part member value inside
  obtain ⟨set, isGiven, rfl⟩ := List.mem_map.mp member
  obtain rfl := List.mem_singleton.mp inside
  exact given_values clean _ isGiven

theorem words_givenOption (name : CString) (p : CPtr) :
    (givenOption name p).flatMap Part.words = if strValid p then [name, copyStr p] else [] := by
  unfold givenOption given
  split <;> rfl

theorem segment_option (text name : CString) {value : CString} (ends : EndsBetween text [name])
    (blank : text.head? = some ' ') (isValue : IsValue value) :
    Segment (text ++ value) [name, value] :=
  .after ends blank isValue.renders

theorem segment_givenOption (text name : CString) (ends : EndsBetween text [name])
    (blank : text.head? = some ' ') {p : CPtr} (clean : CleanPtr p) :
    Segment (if strValid p then mCopyStr [some text, p] else [])
      ((givenOption name p).flatMap Part.words) := by
  rw [words_givenOption]
  split
  case isTrue set =>
    have written : mCopyStr [some text, p] = text ++ copyStr p := by
      obtain ⟨value, rfl, _⟩ := (strValid_iff p).mp set
      simp
    rw [written]
    exact .after ends blank (isValue_of_set clean set).renders
  case isFalse => exact .nil

theorem cleanPtr_privateKey {vpn : TVpn} (context : CleanContext vpn) :
    CleanPtr (privateKey vpn) := by
  unfold privateKey
  split
  · exact context.fields .clientKey (by decide)
  · exact context.fields .clientCert (by decide)

theorem privateKey_set {vpn : TVpn} (cert : strValid vpn.clientCert = true) :
    strValid (privateKey vpn) = true := by
  unfold privateKey
  split
  case isTrue key => exact key
  case isFalse => exact cert

/-! ## OpenVPN -/

section OpenVpn

variable {settings : Settings} {vpn : TVpn}

theorem openVpnPath_eq {name : CString} (named : vpn.name = some name) (extension : CString) :
    openVpnPath settings vpn extension =
      settings.homeDir ++ ("/.config/vpn_mgr/".toList ++ (name ++ ("/".toList ++
        (name ++ extension)))) := by
  simp [openVpnPath, named]

theorem isValue_openVpnPath (cleanHome : Clean settings.homeDir) (context : CleanContext vpn)
    {extension : CString} (cleanExtension : Clean extension) :
    IsValue (openVpnPath settings vpn extension) := by
  obtain ⟨name, named, cleanName⟩ := context.name
  rw [openVpnPath_eq named]
  refine ⟨by simp, cleanHome.append (.append (by decide) (cleanName.append (.append (by decide)
    (cleanName.append cleanExtension))))⟩

theorem segment_given {p : CPtr} (clean : CleanPtr p) :
    Segment (mCopyStr [some " ".toList, p]) (given p) := by
  by_cases set : strValid p = true
  · obtain ⟨text, rfl, _⟩ := (strValid_iff p).mp set
    have behind : Segment (" ".toList ++ text) ([] ++ [text]) :=
      .after rfl rfl (isValue_of_set clean set).renders
    simpa [given, set] using behind
  · have missing : mCopyStr [some " ".toList, p] = " ".toList := by
      rcases p with _ | _ | _ <;> simp_all
    rw [missing]
    simpa [given, set] using (Segment.fixed rfl rfl : Segment " ".toList [])

theorem renders_start {url : Url} (cleanHost : CleanPtr url.host)
    (set : strValid url.host = true) (cleanPort : CleanPtr url.port) :
    Renders (mCopyStr [some ("openvpn --client --tls-client --dev tun --persist-tun --nobind " ++
      "--keepalive 10 30 --remote ").toList, url.host, some " ".toList, url.port])
      ((startParts url).flatMap Part.words) := by
  have fixed : EndsBetween ("openvpn --client --tls-client --dev tun --persist-tun --nobind " ++
      "--keepalive 10 30 --remote ").toList
      ["openvpn".toList, "--client".toList, "--tls-client".toList, "--dev".toList, "tun".toList,
        "--persist-tun".toList, "--nobind".toList, "--keepalive".toList, "10".toList,
        "30".toList, "--remote".toList] := by
    decide +kernel
  obtain ⟨host, isHost, _⟩ := (strValid_iff url.host).mp set
  have hostValue : IsValue host := by
    simpa [isHost] using isValue_of_set cleanHost set
  have port := segment_given cleanPort
  have whole := Renders.after fixed (hostValue.renders.append port.renders port.separate)
  simpa only [startParts, isHost, mCopyStr_some, List.flatMap_cons, List.flatMap_nil, Part.words,
    copyStr_some, List.cons_append, List.nil_append, List.append_nil] using whole

theorem segment_quoted (text name : CString) (ends : EndsBetween text [name])
    (blank : text.head? = some ' ') {value : CString} (clean : Clean value) :
    Segment (text ++ '\'' :: value ++ "' ".toList) [name, value] := by
  have quoted := (Renders.quoted (literal_of_clean clean true)).trailing
  have same : text ++ '\'' :: value ++ "' ".toList =
      text ++ ('\'' :: value ++ ['\''] ++ [' ']) := by
    simp
  rw [same]
  exact .after ends blank quoted

theorem segment_cipher (context : CleanContext vpn) :
    Segment (if strValid vpn.ciphers then
        mCopyStr [some " --cipher '".toList, vpn.ciphers, some "' ".toList] else [])
      ((givenOption "--cipher".toList vpn.ciphers).flatMap Part.words) := by
  rw [words_givenOption]
  split
  case isTrue set =>
    obtain ⟨ciphers, isSet, _⟩ := (strValid_iff vpn.ciphers).mp set
    have clean : Clean ciphers := context.fields .ciphers (by decide) ciphers isSet
    simpa [isSet] using segment_quoted " --cipher ".toList "--cipher".toList (by decide) rfl clean
  case isFalse => exact .nil

theorem segment_auth (cleanHome : Clean settings.homeDir) (context : CleanContext vpn) :
    Segment (if strValid vpn.userName then
        mCopyStr [some " --auth-user-pass ".toList, some settings.homeDir,
          some "/.config/vpn_mgr/".toList, vpn.name, some "/".toList, vpn.name,
          some ".auth ".toList] else [])
      ((authParts settings vpn).flatMap Part.words) := by
  unfold authParts
  split
  case isTrue =>
    obtain ⟨name, named, _⟩ := context.name
    have path := isValue_openVpnPath cleanHome context (show Clean ".auth".toList by decide)
    have segment := Segment.after (show EndsBetween " --auth-user-pass ".toList
      ["--auth-user-pass".toList] by decide) rfl path.renders.trailing
    simpa [openVpnPath_eq named, named, Part.words] using segment
  case isFalse => exact .nil

def writtenKeyWords (vpn : TVpn) : List Word :=
  if strValid vpn.clientCert then
    "--cert".toList :: copyStr vpn.clientCert :: "--key".toList :: given vpn.clientKey
  else []

theorem segment_cert (context : CleanContext vpn) :
    Segment (if strValid vpn.clientCert then
        mCopyStr [some " --cert ".toList, vpn.clientCert] ++
          mCopyStr [some " --key ".toList, vpn.clientKey] else [])
      (writtenKeyWords vpn) := by
  unfold writtenKeyWords
  split
  case isTrue set =>
    have cert : Segment (mCopyStr [some " --cert ".toList, vpn.clientCert])
        ["--cert".toList, copyStr vpn.clientCert] := by
      have segment := segment_givenOption " --cert ".toList "--cert".toList
        (by decide) rfl (context.fields .clientCert (by decide))
      rw [words_givenOption] at segment
      simpa [TextField.get, set] using segment
    have key : Segment (mCopyStr [some " --key ".toList, vpn.clientKey])
        ("--key".toList :: given vpn.clientKey) := by
      have value := segment_given (context.fields .clientKey (by decide))
      have name : IsValue "--key".toList := by decide
      have segment := (Segment.mk name.renders.blank (.inr rfl)).append value
      simpa [TextField.get] using segment
    exact cert.append key
  case isFalse => exact .nil

/-- The words are the intended ones exactly when certificate and key are both
set or neither is. -/
theorem writtenKeyWords_eq_iff (vpn : TVpn) :
    writtenKeyWords vpn = (keyParts vpn).flatMap Part.words ↔
      strValid vpn.clientCert = strValid vpn.clientKey := by
  rw [keyParts, List.flatMap_append, words_givenOption, words_givenOption]
  unfold writtenKeyWords privateKey given
  cases cert : strValid vpn.clientCert <;> cases key : strValid vpn.clientKey <;>
    simp [cert, key]

theorem isValue_decimal (n : Nat) : IsValue (decimal n) := by
  refine ⟨decimal_ne_nil n, fun c inside => ?_⟩
  have digit := isEntryChar_of_isDigit (isDigit_of_mem_decimal inside)
  exact ((isEntryChar_iff c).mp digit).2.1

theorem isValue_formatInt (value : Int) : IsValue (formatInt value) := by
  have digits := isValue_decimal value.natAbs
  unfold formatInt
  split
  · exact ⟨List.cons_ne_nil _ _, Clean.append (a := ['-']) (by decide) digits.2⟩
  · exact digits

theorem formatInt_toInt_eq_iff (word : BitVec 32) :
    formatInt word.toInt = decimal word.toNat ↔ word.toNat < 0x80000000 := by
  have value := BitVec.toInt_eq_toNat_cond word
  constructor
  · intro same
    by_contra large
    have negative : word.toInt < 0 := by
      rw [value, if_neg (by omega)]
      have small := word.isLt
      omega
    rw [formatInt, if_pos negative] at same
    have minus : '-' ∈ decimal word.toNat := same ▸ List.mem_cons_self
    exact absurd (isDigit_of_mem_decimal minus) (by decide)
  · intro small
    have same : word.toInt = word.toNat := by rw [value, if_pos (by omega)]
    rw [formatInt, if_neg (by omega), same, Int.natAbs_natCast]

def writtenMtuWords (vpn : TVpn) : List Word :=
  if vpn.mtu ≠ 0 then ["--tun-mtu".toList, formatInt vpn.mtu.toInt] else []

def writePidWords (settings : Settings) (vpn : TVpn) : List Word :=
  ["--writepid".toList, openVpnPath settings vpn ".pid".toList]

theorem segment_tail (cleanHome : Clean settings.homeDir) (context : CleanContext vpn) :
    Segment ((if vpn.mtu ≠ 0 then
        " --tun-mtu ".toList ++ formatInt vpn.mtu.toInt ++ " ".toList else []) ++
        mCopyStr [some " --writepid '".toList, some settings.homeDir,
          some "/.config/vpn_mgr/".toList, vpn.name, some "/".toList, vpn.name,
          some ".pid' ".toList])
      (writtenMtuWords vpn ++ writePidWords settings vpn) := by
  refine Segment.append ?_ ?_
  · unfold writtenMtuWords
    split
    case isTrue =>
      have value := isValue_formatInt vpn.mtu.toInt
      have segment := Segment.after (show EndsBetween " --tun-mtu ".toList
        ["--tun-mtu".toList] by decide) rfl value.renders.trailing
      simpa using segment
    case isFalse => exact .nil
  · obtain ⟨name, named, _⟩ := context.name
    have path := isValue_openVpnPath cleanHome context (show Clean ".pid".toList by decide)
    have segment := segment_quoted " --writepid ".toList "--writepid".toList
      (by decide) rfl path.2
    simpa [openVpnPath_eq named, named, writePidWords] using segment

/-- The command and the intended one have the same words just when they have
the same words before the MTU, and the MTU is positive as a signed number. -/
theorem tailWords_eq_iff (settings : Settings) (vpn : TVpn) (front intended : List Word) :
    front ++ (writtenMtuWords vpn ++ writePidWords settings vpn) =
        intended ++ (tailParts settings vpn).flatMap Part.words ↔
      front = intended ∧ vpn.mtu.toNat < 0x80000000 := by
  rw [tailParts, List.flatMap_append, show [Part.option "--writepid".toList
    [openVpnPath settings vpn ".pid".toList]].flatMap Part.words = writePidWords settings vpn from rfl,
    ← List.append_assoc, ← List.append_assoc, List.append_left_inj, writtenMtuWords]
  split
  case isTrue =>
    rw [← formatInt_toInt_eq_iff]
    constructor
    · intro same
      obtain ⟨frontSame, mtuSame⟩ := List.append_inj' same rfl
      exact ⟨frontSame, (List.cons.inj (List.cons.inj mtuSame).2).1⟩
    · rintro ⟨rfl, mtuSame⟩
      rw [mtuSame]
      rfl
  case isFalse zero =>
    simp [Decidable.not_not.mp zero]

theorem renders_openVpnOptions (cleanHome : Clean settings.homeDir) (context : CleanContext vpn)
    (cleanHost : CleanPtr (settings.parseURL vpn.server).host)
    (cleanPort : CleanPtr (settings.parseURL vpn.server).port)
    (host : strValid (settings.parseURL vpn.server).host = true) :
    Renders (openVpnOptions settings vpn)
      ((startParts (settings.parseURL vpn.server) ++ protoParts vpn ++
        givenOption "--secret".toList vpn.preSharedKey ++
        givenOption "--cipher".toList vpn.ciphers ++ authParts settings vpn).flatMap Part.words ++
      writtenKeyWords vpn ++
      (givenOption "--ca".toList vpn.verifyCert).flatMap Part.words) := by
  have start := renders_start cleanHost host cleanPort
  have proto : Segment (if vpn.flags.has vpnTcp then " --proto tcp-client ".toList
      else " --proto udp ".toList) ((protoParts vpn).flatMap Part.words) := by
    unfold protoParts
    split <;> exact .fixed (by decide) rfl
  have secret := segment_givenOption " --secret ".toList "--secret".toList
    (by decide) rfl (context.fields .preSharedKey (by decide))
  have ca := segment_givenOption " --ca ".toList "--ca".toList
    (by decide) rfl (context.fields .verifyCert (by decide))
  have rest := proto.append (secret.append ((segment_cipher context).append
    ((segment_auth cleanHome context).append ((segment_cert context).append ca))))
  have whole := start.append rest.renders rest.separate
  simp only [openVpnOptions, List.flatMap_append, List.append_assoc]
  exact whole

theorem haveValues_startParts {url : Url} (cleanHost : CleanPtr url.host)
    (cleanPort : CleanPtr url.port) : HaveValues (startParts url) ↔ strValid url.host = true := by
  constructor
  · intro valued
    have remote : IsValue (copyStr url.host) :=
      valued (.option "--remote".toList (copyStr url.host :: given url.port))
        (by simp [startParts]) _ (by simp [Part.values])
    exact set_of_isValue remote
  · intro set part member
    simp only [startParts, List.mem_cons, List.not_mem_nil, or_false] at member
    rcases member with rfl | rfl | rfl | rfl | rfl | rfl | rfl | rfl
    case inr.inr.inr.inr.inr.inr.inr =>
      exact List.forall_mem_cons.mpr ⟨isValue_of_set cleanHost set, given_values cleanPort⟩
    all_goals
      unfold Part.values
      decide

theorem haveValues_tailParts (cleanHome : Clean settings.homeDir) (context : CleanContext vpn) :
    HaveValues (tailParts settings vpn) := by
  refine haveValues_append.mpr ⟨?_, ?_⟩
  · split
    case isTrue => simpa [HaveValues, Part.values] using isValue_decimal vpn.mtu.toNat
    case isFalse => exact fun part member => absurd member List.not_mem_nil
  · simpa [HaveValues, Part.values] using
      isValue_openVpnPath cleanHome context (show Clean ".pid".toList by decide)

/-- When the command of `OpenVpnUp` is complete. -/
def OpenVpnGiven (settings : Settings) (vpn : TVpn) : Prop :=
  vpn.mtu.toNat < 0x80000000 ∧ (strValid vpn.confFile = true ∨
    (strValid (settings.parseURL vpn.server).host = true ∧
      strValid vpn.clientCert = strValid vpn.clientKey))

theorem renders_conf (context : CleanContext vpn) (conf : strValid vpn.confFile = true) :
    Renders (mCopyStr [some "openvpn --conf ".toList, vpn.confFile])
      ["openvpn".toList, "--conf".toList, copyStr vpn.confFile] := by
  have value := isValue_of_set (context.fields .confFile (by decide)) conf
  obtain ⟨file, isFile, _⟩ := (strValid_iff vpn.confFile).mp conf
  have whole := Renders.after (show EndsBetween "openvpn --conf ".toList
    ["openvpn".toList, "--conf".toList] by decide) value.renders
  simpa only [TextField.get, isFile, mCopyStr_some, mCopyStr_nil, List.append_nil, copyStr_some,
    List.cons_append, List.nil_append] using whole

theorem haveValues_ownParts (cleanHome : Clean settings.homeDir) (context : CleanContext vpn)
    (cleanHost : CleanPtr (settings.parseURL vpn.server).host)
    (cleanPort : CleanPtr (settings.parseURL vpn.server).port)
    (host : strValid (settings.parseURL vpn.server).host = true) :
    HaveValues (startParts (settings.parseURL vpn.server) ++ protoParts vpn ++
      givenOption "--secret".toList vpn.preSharedKey ++
      givenOption "--cipher".toList vpn.ciphers ++ authParts settings vpn ++ keyParts vpn ++
      givenOption "--ca".toList vpn.verifyCert) := by
  have proto : HaveValues (protoParts vpn) := by
    have named : IsValue (if vpn.flags.has vpnTcp then "tcp-client".toList else "udp".toList) := by
      split <;> decide
    simpa only [HaveValues, protoParts, List.forall_mem_singleton, Part.values] using named
  have auth : HaveValues (authParts settings vpn) := by
    unfold authParts
    split
    · simpa only [HaveValues, List.forall_mem_singleton, Part.values] using
        isValue_openVpnPath cleanHome context (show Clean ".auth".toList by decide)
    · exact fun part member => absurd member List.not_mem_nil
  have key := cleanPtr_privateKey context
  simp only [haveValues_append, keyParts]
  exact ⟨⟨⟨⟨⟨⟨(haveValues_startParts cleanHost cleanPort).mpr host, proto⟩,
    haveValues_givenOption _ (context.fields .preSharedKey (by decide))⟩,
    haveValues_givenOption _ (context.fields .ciphers (by decide))⟩, auth⟩,
    haveValues_givenOption _ (context.fields .clientCert (by decide)),
    haveValues_givenOption _ key⟩,
    haveValues_givenOption _ (context.fields .verifyCert (by decide))⟩

theorem openVpnCommand_complete_iff (cleanHome : Clean settings.homeDir)
    (context : CleanContext vpn) (cleanHost : CleanPtr (settings.parseURL vpn.server).host)
    (cleanPort : CleanPtr (settings.parseURL vpn.server).port) :
    Complete (openVpnCommand settings vpn) (openVpnParts settings vpn) ↔
      OpenVpnGiven settings vpn := by
  have tail := segment_tail cleanHome context
  have tailValues := haveValues_tailParts cleanHome context
  by_cases conf : strValid vpn.confFile = true
  · have confValue : IsValue (copyStr vpn.confFile) :=
      isValue_of_set (context.fields .confFile (by decide)) conf
    have words := ((renders_conf context conf).append tail.renders tail.separate).lineWords_eq
    have values : HaveValues (openVpnParts settings vpn) := by
      rw [openVpnParts, if_pos conf]
      refine haveValues_append.mpr ⟨?_, tailValues⟩
      simpa [HaveValues, Part.values] using confValue
    have sameWords : lineWords (openVpnCommand settings vpn) =
        (openVpnParts settings vpn).flatMap Part.words ↔ vpn.mtu.toNat < 0x80000000 := by
      rw [openVpnCommand, if_pos conf, List.append_assoc, words, openVpnParts, if_pos conf,
        List.flatMap_append, tailWords_eq_iff]
      exact and_iff_right rfl
    rw [Complete, sameWords]
    simp only [OpenVpnGiven, conf, true_or, and_true]
    exact and_iff_right values
  · by_cases host : strValid (settings.parseURL vpn.server).host = true
    · have options := renders_openVpnOptions cleanHome context cleanHost cleanPort host
      have words := (options.append tail.renders tail.separate).lineWords_eq
      have values : HaveValues (openVpnParts settings vpn) := by
        rw [openVpnParts, if_neg conf]
        exact haveValues_append.mpr
          ⟨haveValues_ownParts cleanHome context cleanHost cleanPort host, tailValues⟩
      have sameWords : lineWords (openVpnCommand settings vpn) =
            (openVpnParts settings vpn).flatMap Part.words ↔
          writtenKeyWords vpn = (keyParts vpn).flatMap Part.words ∧ vpn.mtu.toNat < 0x80000000 := by
        rw [openVpnCommand, if_neg conf, List.append_assoc, words, openVpnParts, if_neg conf,
          @List.flatMap_append _ _ _ (tailParts settings vpn), tailWords_eq_iff]
        simp only [List.flatMap_append, List.append_left_inj, List.append_right_inj]
      rw [Complete, sameWords, writtenKeyWords_eq_iff]
      simp only [OpenVpnGiven, conf, host, Bool.false_eq_true, false_or, true_and]
      exact (and_iff_right values).trans and_comm
    · refine iff_of_false (fun complete => ?_) (by simp [OpenVpnGiven, conf, host])
      have start : HaveValues (startParts (settings.parseURL vpn.server)) := fun part member =>
        complete.1 part (by simp [openVpnParts, conf, member])
      exact host ((haveValues_startParts cleanHost cleanPort).mp start)

end OpenVpn

/-! ## WireGuard -/

section Wireguard

variable {vpn : TVpn} {dev peer : CString} {host port : CPtr}

/-- The file behind `VerifyCert` holds a key, the peer has an address, and the
allowed addresses are one word. -/
structure PeerGiven (vpn : TVpn) (peer : CString) (host : CPtr) : Prop where
  peer : IsValue peer
  host : vpn.action = .connect → strValid host = true
  allowedIPs : strValid vpn.allowedIPs = true →
    sameNoCase (copyStr vpn.allowedIPs) "all".toList = false → Clean (copyStr vpn.allowedIPs)

theorem isValue_endpointText_iff (cleanHost : CleanPtr host) (cleanPort : CleanPtr port) :
    IsValue (endpointText host port) ↔ strValid host = true := by
  unfold endpointText
  split
  case isTrue set =>
    have clean := (clean_copyStr cleanHost).append
      (Clean.append (a := ":".toList) (by decide) (clean_copyStr cleanPort))
    exact iff_of_true ⟨by simp, by simpa using clean⟩ set
  case isFalse unset => exact iff_of_false (fun isValue => isValue.1 rfl) unset

theorem haveValues_peerParts (cleanHost : CleanPtr host) (cleanPort : CleanPtr port)
    (portSet : strValid port = true) :
    HaveValues (peerParts vpn peer host port) ↔ PeerGiven vpn peer host := by
  have portValue := isValue_of_set cleanPort portSet
  have listen : HaveValues (if vpn.action = .server then
      [.option "listen-port".toList [copyStr port]] else []) := by
    split
    · simpa only [HaveValues, List.forall_mem_singleton, Part.values] using portValue
    · exact fun part member => absurd member List.not_mem_nil
  have endpoint : HaveValues (if vpn.action = .connect then
      [.option "endpoint".toList [endpointText host port]] else []) ↔
      (vpn.action = .connect → strValid host = true) := by
    split
    case isTrue connects =>
      simp only [HaveValues, List.forall_mem_singleton, Part.values,
        isValue_endpointText_iff cleanHost cleanPort, connects, forall_const]
    case isFalse other =>
      exact iff_of_true (fun part member => absurd member List.not_mem_nil)
        fun connects => absurd connects other
  have allowed : HaveValues (if strValid vpn.allowedIPs then
      [.option "allowed-ips".toList
        [if sameNoCase (copyStr vpn.allowedIPs) "all".toList then "0.0.0.0/0".toList
          else copyStr vpn.allowedIPs]] else []) ↔
      (strValid vpn.allowedIPs = true →
        sameNoCase (copyStr vpn.allowedIPs) "all".toList = false →
          Clean (copyStr vpn.allowedIPs)) := by
    split
    case isTrue set =>
      simp only [HaveValues, List.forall_mem_singleton, Part.values, set, forall_const]
      have nonempty : copyStr vpn.allowedIPs ≠ [] := by
        obtain ⟨text, isSet, nonempty⟩ := (strValid_iff vpn.allowedIPs).mp set
        simpa [isSet] using nonempty
      split
      case isTrue all =>
        exact iff_of_true (by decide) fun notAll => Bool.noConfusion (all.symm.trans notAll)
      case isFalse notAll =>
        simp only [Bool.not_eq_true] at notAll
        simp only [IsValue, ne_eq, nonempty, not_false_eq_true, true_and, notAll, forall_const]
    case isFalse unset =>
      exact iff_of_true (fun part member => absurd member List.not_mem_nil)
        fun set => absurd set unset
  simp only [peerParts, haveValues_append, endpoint, allowed]
  constructor
  · rintro ⟨⟨⟨-, peerValue⟩, hostSet⟩, oneWord⟩
    refine ⟨?_, hostSet, oneWord⟩
    simpa only [HaveValues, List.forall_mem_singleton, Part.values] using peerValue
  · intro peerGiven
    refine ⟨⟨⟨listen, ?_⟩, peerGiven.host⟩, peerGiven.allowedIPs⟩
    simpa only [HaveValues, List.forall_mem_singleton, Part.values] using peerGiven.peer

theorem segment_peerParts (cleanHost : CleanPtr host) (cleanPort : CleanPtr port)
    (portSet : strValid port = true) (peerGiven : PeerGiven vpn peer host) :
    Segment ((if vpn.action = .server then mCopyStr [some " listen-port ".toList, port] else []) ++
        mCopyStr [some " peer ".toList, some peer] ++
        (if vpn.action = .connect then
          mCopyStr [some " endpoint ".toList, host, some ":".toList, port] else []) ++
        (if strValid vpn.allowedIPs then
          (if sameNoCase (copyStr vpn.allowedIPs) "all".toList then
            " allowed-ips 0.0.0.0/0".toList
          else mCopyStr [some " allowed-ips ".toList, vpn.allowedIPs]) else []))
      ((peerParts vpn peer host port).flatMap Part.words) := by
  obtain ⟨number, isNumber, _⟩ := (strValid_iff port).mp portSet
  have portValue := isValue_of_set cleanPort portSet
  subst isNumber
  simp only [peerParts, List.flatMap_append]
  refine ((Segment.append ?listen ?peer).append ?endpoint).append ?allowed
  case listen =>
    split
    · simpa only [mCopyStr_some, mCopyStr_nil, List.append_nil, List.flatMap_singleton, Part.words,
        copyStr_some] using
        segment_option " listen-port ".toList "listen-port".toList (by decide) rfl portValue
    · exact .nil
  case peer =>
    simpa only [mCopyStr_some, mCopyStr_nil, List.append_nil, List.flatMap_singleton, Part.words]
      using segment_option " peer ".toList "peer".toList (by decide) rfl peerGiven.peer
  case endpoint =>
    split
    case isTrue connects =>
      have set := peerGiven.host connects
      have value := (isValue_endpointText_iff cleanHost cleanPort).mpr set
      obtain ⟨name, isHost, _⟩ := (strValid_iff host).mp set
      subst isHost
      have segment := segment_option " endpoint ".toList "endpoint".toList (by decide) rfl value
      simpa [endpointText, set, Part.words] using segment
    case isFalse => exact .nil
  case allowed =>
    split
    case isTrue set =>
      obtain ⟨list, isList, nonempty⟩ := (strValid_iff vpn.allowedIPs).mp set
      split
      case isTrue all =>
        exact segment_option " allowed-ips ".toList "allowed-ips".toList (by decide) rfl
          (show IsValue "0.0.0.0/0".toList by decide)
      case isFalse notAll =>
        simp only [Bool.not_eq_true] at notAll
        have value : IsValue (copyStr vpn.allowedIPs) :=
          ⟨by simpa [isList] using nonempty, peerGiven.allowedIPs set notAll⟩
        have segment :=
          segment_option " allowed-ips ".toList "allowed-ips".toList (by decide) rfl value
        simpa only [isList, copyStr_some, mCopyStr_some, mCopyStr_nil, List.append_nil,
          List.flatMap_singleton, Part.words] using segment
    case isFalse => exact .nil

theorem renders_wgSetCommand (context : CleanContext vpn) (devValue : IsValue dev)
    (cleanHost : CleanPtr host) (cleanPort : CleanPtr port) (portSet : strValid port = true)
    (peerGiven : PeerGiven vpn peer host) :
    Renders (wgSetCommand vpn dev peer host port)
      (["wg".toList, "set".toList, dev, "private-key".toList] ++ given vpn.clientCert ++
        (peerParts vpn peer host port).flatMap Part.words) := by
  have start := Renders.after
    (show EndsBetween "wg set ".toList ["wg".toList, "set".toList] by decide) devValue.renders
  have name : IsValue "private-key".toList := by decide
  have key := (Segment.mk name.renders.blank (.inr rfl)).append
    (segment_given (context.fields .clientCert (by decide)))
  have rest := key.append (segment_peerParts cleanHost cleanPort portSet peerGiven)
  have whole := start.append rest.renders rest.separate
  have text : mCopyStr [some "wg set ".toList, some dev, some " private-key ".toList,
      vpn.clientCert] = "wg set ".toList ++ dev ++
        (' ' :: "private-key".toList ++ mCopyStr [some " ".toList, vpn.clientCert]) := by
    simp
  simp only [wgSetCommand, text]
  simpa only [List.append_assoc, List.cons_append, List.nil_append, TextField.get] using whole

theorem given_eq_privateKey_iff (vpn : TVpn) :
    given vpn.clientCert = [copyStr (privateKey vpn)] ↔
      strValid vpn.clientCert = true ∧
        (strValid vpn.clientKey = true → vpn.clientKey = vpn.clientCert) := by
  unfold given privateKey
  by_cases cert : strValid vpn.clientCert = true
  · obtain ⟨certText, isCert, _⟩ := (strValid_iff vpn.clientCert).mp cert
    by_cases key : strValid vpn.clientKey = true
    · obtain ⟨keyText, isKey, _⟩ := (strValid_iff vpn.clientKey).mp key
      rw [isCert] at cert
      rw [isKey] at key
      simp only [isCert, isKey, cert, key, if_true, copyStr_some, List.cons.injEq, and_true,
        Option.some.injEq, true_and, forall_const]
      exact eq_comm
    · simp [cert, key]
  · simp [cert]

/-- When the command of `WireguardFormatCommand` is complete. -/
def WireguardGiven (vpn : TVpn) (peer : CString) (host : CPtr) : Prop :=
  strValid vpn.confFile = true ∨
    (strValid vpn.clientCert = true ∧
      (strValid vpn.clientKey = true → vpn.clientKey = vpn.clientCert) ∧ PeerGiven vpn peer host)

theorem wgSetCommand_complete_iff (context : CleanContext vpn) (devValue : IsValue dev)
    (cleanHost : CleanPtr host) (cleanPort : CleanPtr port) (portSet : strValid port = true)
    (noConf : strValid vpn.confFile = false) :
    Complete (wgSetCommand vpn dev peer host port) (wireguardParts vpn dev peer host port) ↔
      WireguardGiven vpn peer host := by
  have parts : wireguardParts vpn dev peer host port =
      interfaceParts vpn dev ++ peerParts vpn peer host port := by
    simp only [wireguardParts, noConf, Bool.false_eq_true, if_false]
  rw [parts]
  by_cases peerGiven : PeerGiven vpn peer host
  · have words := (renders_wgSetCommand context devValue cleanHost cleanPort portSet
      peerGiven).lineWords_eq
    have sameWords : lineWords (wgSetCommand vpn dev peer host port) =
          (interfaceParts vpn dev ++ peerParts vpn peer host port).flatMap Part.words ↔
        given vpn.clientCert = [copyStr (privateKey vpn)] := by
      rw [words, List.flatMap_append, List.append_left_inj]
      exact List.append_right_inj ["wg".toList, "set".toList, dev, "private-key".toList]
    have peerValues := (haveValues_peerParts cleanHost cleanPort portSet).mpr peerGiven
    rw [Complete, sameWords, given_eq_privateKey_iff]
    constructor
    · rintro ⟨-, cert, key⟩
      exact .inr ⟨cert, key, peerGiven⟩
    · rintro (conf | ⟨cert, key, -⟩)
      · exact absurd conf (by simp [noConf])
      · have keyValue : IsValue (copyStr (privateKey vpn)) := by
          have set := (given_eq_privateKey_iff vpn).mpr ⟨cert, key⟩
          have certValue := given_values (context.fields .clientCert (by decide))
          exact certValue _ (by simp [TextField.get, set])
        refine ⟨haveValues_append.mpr ⟨?_, peerValues⟩, cert, key⟩
        simp [HaveValues, interfaceParts, Part.values, devValue, keyValue]
  · refine iff_of_false (fun complete => ?_) ?_
    · exact peerGiven ((haveValues_peerParts cleanHost cleanPort portSet).mp
        (haveValues_append.mp complete.1).2)
    · simp [WireguardGiven, noConf, peerGiven]

theorem setconf_complete (context : CleanContext vpn) (devValue : IsValue dev)
    (conf : strValid vpn.confFile = true) :
    Complete (mCopyStr [some "wg setconf ".toList, some dev, some " ".toList, vpn.confFile])
      (wireguardParts vpn dev peer host port) := by
  have confValue : IsValue (copyStr vpn.confFile) :=
    isValue_of_set (context.fields .confFile (by decide)) conf
  have file := segment_given (context.fields .confFile (by decide))
  have start := Renders.after (show EndsBetween "wg setconf ".toList
    ["wg".toList, "setconf".toList] by decide) devValue.renders
  have words := (start.append file.renders file.separate).lineWords_eq
  rw [wireguardParts, if_pos conf]
  refine ⟨by simp [Part.values, devValue, confValue], ?_⟩
  simpa [given, conf, TextField.get, Part.words] using words

def fileRead (env : Environment Answer) (before : History Answer) (path : CPtr) : CString :=
  if strValid path then env before (.readFile (copyStr path)) else []

theorem readNamedFile_run (path : CPtr) (env : Environment Answer) (before : History Answer) :
    ∃ reached, readNamedFile path env before =
      some (.returned (fileRead env before path), reached) := by
  cases named : strValid path with
  | true => exact ⟨_, by simp only [readNamedFile, fileRead, named, if_true]; rfl⟩
  | false =>
      exact ⟨_, by simp only [readNamedFile, fileRead, named, Bool.false_eq_true, if_false]; rfl⟩

/-- The text of the file behind `VerifyCert`, as `WireguardFormatCommand` reads it. -/
def peerRead (env : Environment Answer) (before : History Answer) (vpn : TVpn) : CString :=
  stripTrailingWhitespace (stripTrailingWhitespace (fileRead env before vpn.verifyCert))

/-- The port of `WireguardFormatCommand`. -/
def wireguardPort (settings : Settings) (vpn : TVpn) : CPtr :=
  let port := (settings.unpackURL vpn.server).port
  if strValid port then port else some "51820".toList

/-- What `WireguardFormatCommand` returns, whenever it does. -/
theorem wireguardFormatCommand_returned {settings : Settings} {env : Environment Answer}
    {before after : History Answer} {text : CString}
    (run : wireguardFormatCommand settings vpn dev env before =
      some (.returned text, after)) :
    text = if strValid vpn.confFile then
        mCopyStr [some "wg setconf ".toList, some dev, some " ".toList, vpn.confFile]
      else wgSetCommand vpn dev (peerRead env before vpn) (settings.unpackURL vpn.server).host
        (wireguardPort settings vpn) := by
  unfold wireguardFormatCommand at run
  split at run
  case isTrue conf =>
    rw [if_pos conf]
    cases run
    rfl
  case isFalse conf =>
    rw [if_neg conf]
    obtain ⟨reached, isRead⟩ := readNamedFile_run vpn.verifyCert env before
    rw [Process.bind_run, isRead] at run
    simp only [Process.bind_run] at run
    split at run
    case h_1 ended =>
      cases run
      rfl
    case h_2 => cases run
    case h_3 => cases run

end Wireguard

theorem renders_setting {name value : CString} (cleanName : Clean name) (isValue : IsValue value) :
    Renders (name ++ value) [name ++ value] :=
  .word (literal_of_clean (cleanName.append isValue.2) false) (by simp [isValue.1])

theorem segment_setting {name : CString} (cleanName : Clean name) {p : CPtr} (clean : CleanPtr p) :
    Segment (if strValid p then mCopyStr [some (' ' :: name), p] else [])
      (((given p).map (Part.setting name)).flatMap Part.words) := by
  by_cases set : strValid p = true
  · obtain ⟨value, rfl, _⟩ := (strValid_iff p).mp set
    have renders := (renders_setting cleanName (isValue_of_set clean set)).blank
    have segment : Segment (' ' :: (name ++ value)) [name ++ value] := ⟨renders, .inr rfl⟩
    simpa [set, given, Part.words] using segment
  · simpa [set, given] using Segment.nil

theorem haveValues_settings (name : CString) {p : CPtr} (clean : CleanPtr p) :
    HaveValues ((given p).map (Part.setting name)) := by
  intro part member value inside
  obtain ⟨set, isGiven, rfl⟩ := List.mem_map.mp member
  obtain rfl := List.mem_singleton.mp inside
  exact given_values clean _ isGiven

/-- Certificate and key. -/
theorem renders_certAndKey {cert key : CString} (certValue : IsValue cert)
    (keyValue : IsValue key) :
    Renders (mCopyStr [some "rw SSL:CertFile=".toList, some cert] ++
        mCopyStr [some " SSL:KeyFile=".toList, some key])
      ([.word "rw".toList, .setting "SSL:CertFile=".toList cert,
        .setting "SSL:KeyFile=".toList key].flatMap Part.words) := by
  have start := Renders.after (show EndsBetween "rw ".toList ["rw".toList] by decide)
    (renders_setting (show Clean "SSL:CertFile=".toList by decide) certValue)
  have name : Clean "SSL:KeyFile=".toList := by decide
  have rest := (renders_setting name keyValue).blank
  have whole := start.append rest (.inr rfl)
  have text : mCopyStr [some "rw SSL:CertFile=".toList, some cert] ++
      mCopyStr [some " SSL:KeyFile=".toList, some key] =
      "rw ".toList ++ ("SSL:CertFile=".toList ++ cert) ++
        (' ' :: ("SSL:KeyFile=".toList ++ key)) := by
    simp
  rw [text]
  exact whole

theorem renders_tlsConfig {vpn : TVpn} (context : CleanContext vpn)
    (cert : strValid vpn.clientCert = true) :
    Renders (tlsConfig vpn) ((tlsParts vpn).flatMap Part.words) := by
  have keySet := privateKey_set cert
  have certValue : IsValue (copyStr vpn.clientCert) :=
    isValue_of_set (context.fields .clientCert (by decide)) cert
  have keyValue := isValue_of_set (cleanPtr_privateKey context) keySet
  have start := renders_certAndKey certValue keyValue
  rw [← eq_some_copyStr cert, ← eq_some_copyStr keySet] at start
  have verify := segment_setting (show Clean "SSL:VerifyFile=".toList by decide)
    (context.fields .verifyCert (by decide))
  have ciphers := segment_setting (show Clean "SSL:PermittedCiphers=".toList by decide)
    (context.fields .ciphers (by decide))
  have rest := verify.append ciphers
  have whole := start.append rest.renders rest.separate
  rw [tlsParts, List.flatMap_append, List.flatMap_append, List.append_assoc]
  rw [← List.append_assoc] at whole
  exact whole

theorem tlsConfig_complete_iff {vpn : TVpn} (context : CleanContext vpn) :
    Complete (tlsConfig vpn) (tlsParts vpn) ↔ strValid vpn.clientCert = true := by
  constructor
  · intro complete
    have cert : IsValue (copyStr vpn.clientCert) :=
      complete.1 (.setting "SSL:CertFile=".toList (copyStr vpn.clientCert)) (by simp [tlsParts]) _
        (by simp [Part.values])
    exact set_of_isValue cert
  · intro cert
    have certValue : IsValue (copyStr vpn.clientCert) :=
      isValue_of_set (context.fields .clientCert (by decide)) cert
    have keyValue := isValue_of_set (cleanPtr_privateKey context) (privateKey_set cert)
    refine ⟨?_, (renders_tlsConfig context cert).lineWords_eq⟩
    refine haveValues_append.mpr ⟨haveValues_append.mpr ⟨?_, ?_⟩, ?_⟩
    · simp [HaveValues, Part.values, certValue, keyValue]
    · exact haveValues_settings _ (context.fields .verifyCert (by decide))
    · exact haveValues_settings _ (context.fields .ciphers (by decide))

theorem cleanPtr_urlOf {details : HostDetails} (clean : Clean details.host ∧ Clean details.port) :
    CleanPtr (urlOf details).host ∧ CleanPtr (urlOf details).port :=
  ⟨cleanPtr_some clean.1, cleanPtr_some clean.2⟩

/-- For every context that a command line or a saved configuration of clean
words gives. -/
theorem generated_complete_iff {settings : Settings} {root : Bool} {argv : List CString}
    {file : CPtr} {s : Config.Settings} (parsed : parseCommandLine root argv = some s)
    (cleanWords : ∀ word ∈ argv, Clean word)
    (cleanFile : ∀ setting ∈ Config.fileSettings file, Clean setting.2)
    (cleanHome : Clean settings.homeDir) (parses : settings.parseURL = parseURL)
    (unpacks : settings.unpackURL = unpackURL) :
    let vpn := (settingsToConnect settings.homeDir file s).vpn
    (Complete (openVpnCommand settings vpn) (openVpnParts settings vpn) ↔
        OpenVpnGiven settings vpn) ∧
      (∀ dev, IsValue dev → ∀ env before text after,
        wireguardFormatCommand settings vpn dev env before = some (.returned text, after) →
          (Complete text (wireguardParts vpn dev (peerRead env before vpn)
              (settings.unpackURL vpn.server).host (wireguardPort settings vpn)) ↔
            WireguardGiven vpn (peerRead env before vpn) (settings.unpackURL vpn.server).host)) ∧
      (Complete (tlsConfig vpn) (tlsParts vpn) ↔ strValid vpn.clientCert = true) := by
  intro vpn
  have context : CleanContext vpn := cleanContext_toConnect parsed cleanWords cleanHome cleanFile
  obtain ⟨server, isServer, cleanServer⟩ := context.server
  have parsedClean : CleanPtr (settings.parseURL vpn.server).host ∧
      CleanPtr (settings.parseURL vpn.server).port := by
    rw [parses, isServer]
    exact cleanPtr_urlOf (decodeURL_clean true cleanServer)
  have unpackedClean : CleanPtr (settings.unpackURL vpn.server).host ∧
      CleanPtr (settings.unpackURL vpn.server).port := by
    rw [unpacks, isServer]
    exact cleanPtr_urlOf (decodeURL_clean false cleanServer)
  refine ⟨openVpnCommand_complete_iff cleanHome context parsedClean.1 parsedClean.2, ?_,
    tlsConfig_complete_iff context⟩
  intro dev devValue env before text after run
  have portClean : CleanPtr (wireguardPort settings vpn) := by
    unfold wireguardPort
    simp only
    split
    · exact unpackedClean.2
    · exact cleanPtr_some (by decide)
  have portSet : strValid (wireguardPort settings vpn) = true := by
    unfold wireguardPort
    simp only
    split
    case isTrue set => exact set
    case isFalse => rfl
  rw [wireguardFormatCommand_returned run]
  by_cases conf : strValid vpn.confFile = true
  · rw [if_pos conf]
    exact iff_of_true (setconf_complete context devValue conf) (.inl conf)
  · rw [if_neg conf]
    exact wgSetCommand_complete_iff context devValue unpackedClean.1 portClean portSet
      (by simpa using conf)

def urlSettings : Settings :=
  { plainSettings with parseURL := parseURL, unpackURL := unpackURL }

def certOnly : List CString :=
  ["connect".toList, "ovpn:v.net:1194".toList, "-cert".toList, "c.pem".toList]

def certAndKey : List CString :=
  certOnly ++ ["-key".toList, "k.pem".toList, "-mtu".toList, "1400".toList]

theorem generated_complete_iff_keyed : ∃ s, parseCommandLine true certAndKey = some s ∧
    Complete (openVpnCommand urlSettings (settingsToConnect urlSettings.homeDir none s).vpn)
      (openVpnParts urlSettings (settingsToConnect urlSettings.homeDir none s).vpn) := by
  have checked : (parseCommandLine true certAndKey).map (fun s =>
      let vpn := (settingsToConnect urlSettings.homeDir none s).vpn
      decide (vpn.mtu.toNat < 0x80000000 ∧ strValid (urlSettings.parseURL vpn.server).host = true ∧
        strValid vpn.clientCert = strValid vpn.clientKey)) = some true := by
    decide +kernel
  obtain ⟨s, parsed, checked⟩ := Option.map_eq_some_iff.mp checked
  have given := of_decide_eq_true checked
  have cleanHome : Clean urlSettings.homeDir := by decide
  have noSettings : ∀ setting ∈ Config.fileSettings none, Clean setting.2 := by
    simp [Config.fileSettings, copyStr, streamReadLines]
  have both := generated_complete_iff parsed (by decide +kernel) noSettings cleanHome rfl rfl
  exact ⟨s, parsed, both.1.mpr ⟨given.1, .inr given.2⟩⟩

/-- The word behind `--key` is the next option. -/
theorem certOnly_incomplete : ∃ s, parseCommandLine true certOnly = some s ∧
    ¬ Complete (openVpnCommand urlSettings (settingsToConnect urlSettings.homeDir none s).vpn)
      (openVpnParts urlSettings (settingsToConnect urlSettings.homeDir none s).vpn) := by
  have checked : (parseCommandLine true certOnly).map (fun s =>
      let vpn := (settingsToConnect urlSettings.homeDir none s).vpn
      decide (lineWords (openVpnCommand urlSettings vpn) =
        (openVpnParts urlSettings vpn).flatMap Part.words)) = some false := by
    decide +kernel
  obtain ⟨s, parsed, differ⟩ := Option.map_eq_some_iff.mp checked
  exact ⟨s, parsed, fun complete => of_decide_eq_false differ complete.2⟩

end VpnMgr.Client
