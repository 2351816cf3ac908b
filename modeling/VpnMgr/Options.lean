import VpnMgr.CommandLine
import VpnMgr.Config.Read

/-!
# The command line

`ParseCommandLine`: the command words, the table of options and the loop over
the options that fills a new context.
-/

namespace VpnMgr.Options

open Machine Text CString LibUseful Config

/-- The string members that options store. -/
inductive TextField where
  | confFile
  | allowedIPs
  | remoteAllowedIPs
  | dev
  | remoteDev
  | localAddress
  | remoteAddress
  | clientID
  | userName
  | password
  | preSharedKey
  | clientCert
  | clientKey
  | verifyCert
  | ciphers
  | dns
  | pppAuth
  | upFile
  | downFile
  | remoteSearchPath
  | serverAuth
  deriving DecidableEq

namespace TextField

def get (vpn : TVpn) : TextField → CPtr
  | confFile => vpn.confFile
  | allowedIPs => vpn.allowedIPs
  | remoteAllowedIPs => vpn.remoteAllowedIPs
  | dev => vpn.dev
  | remoteDev => vpn.remoteDev
  | localAddress => vpn.localAddress
  | remoteAddress => vpn.remoteAddress
  | clientID => vpn.clientID
  | userName => vpn.userName
  | password => vpn.password
  | preSharedKey => vpn.preSharedKey
  | clientCert => vpn.clientCert
  | clientKey => vpn.clientKey
  | verifyCert => vpn.verifyCert
  | ciphers => vpn.ciphers
  | dns => vpn.dns
  | pppAuth => vpn.pppAuth
  | upFile => vpn.upFile
  | downFile => vpn.downFile
  | remoteSearchPath => vpn.remoteSearchPath
  | serverAuth => vpn.serverAuth

def set (vpn : TVpn) (value : CPtr) : TextField → TVpn
  | confFile => { vpn with confFile := value }
  | allowedIPs => { vpn with allowedIPs := value }
  | remoteAllowedIPs => { vpn with remoteAllowedIPs := value }
  | dev => { vpn with dev := value }
  | remoteDev => { vpn with remoteDev := value }
  | localAddress => { vpn with localAddress := value }
  | remoteAddress => { vpn with remoteAddress := value }
  | clientID => { vpn with clientID := value }
  | userName => { vpn with userName := value }
  | password => { vpn with password := value }
  | preSharedKey => { vpn with preSharedKey := value }
  | clientCert => { vpn with clientCert := value }
  | clientKey => { vpn with clientKey := value }
  | verifyCert => { vpn with verifyCert := value }
  | ciphers => { vpn with ciphers := value }
  | dns => { vpn with dns := value }
  | pppAuth => { vpn with pppAuth := value }
  | upFile => { vpn with upFile := value }
  | downFile => { vpn with downFile := value }
  | remoteSearchPath => { vpn with remoteSearchPath := value }
  | serverAuth => { vpn with serverAuth := value }

end TextField

/-- What the branch for an option does. -/
inductive OptionKind where
  /-- `Ctx->Field=CopyStr(Ctx->Field, CommandLineNext(Cmd))`. -/
  | text (field : TextField)
  /-- `Ctx->MTU=atoi(CommandLineNext(Cmd))`. -/
  | mtu
  /-- `Ctx->LineSpeed=atoi(CommandLineNext(Cmd))`. -/
  | lineSpeed
  /-- `Ctx->Timeout=ParseDuration(CommandLineNext(Cmd))`. -/
  | timeout
  /-- `Ctx->Flags |= mask`. -/
  | vpnFlag (mask : FlagWord)
  /-- `GlobalFlags = (GlobalFlags & ~cleared) | raised`. -/
  | globalFlags (cleared raised : FlagWord)
  deriving DecidableEq

/-- The `if`s of the option loop, in their order. -/
def optionTable : List (CString × OptionKind) :=
  [("-c".toList, .text .confFile),
    ("-conf".toList, .text .confFile),
    ("-a".toList, .text .allowedIPs),
    ("-A".toList, .text .remoteAllowedIPs),
    ("-d".toList, .text .dev),
    ("-dev".toList, .text .dev),
    ("-ldev".toList, .text .dev),
    ("-local-dev".toList, .text .dev),
    ("-D".toList, .text .remoteDev),
    ("-rdev".toList, .text .remoteDev),
    ("-remote-dev".toList, .text .remoteDev),
    ("-L".toList, .text .localAddress),
    ("-R".toList, .text .remoteAddress),
    ("-local-address".toList, .text .localAddress),
    ("-remote-address".toList, .text .remoteAddress),
    ("-laddr".toList, .text .localAddress),
    ("-raddr".toList, .text .remoteAddress),
    ("-cid".toList, .text .clientID),
    ("-id".toList, .text .clientID),
    ("-user".toList, .text .userName),
    ("-pass".toList, .text .password),
    ("-passwd".toList, .text .password),
    ("-password".toList, .text .password),
    ("-pw".toList, .text .password),
    ("-psk".toList, .text .preSharedKey),
    ("-cert".toList, .text .clientCert),
    ("-key".toList, .text .clientKey),
    ("-k".toList, .text .clientKey),
    ("-server-key".toList, .text .verifyCert),
    ("-ca".toList, .text .verifyCert),
    ("-ciphers".toList, .text .ciphers),
    ("-dns".toList, .text .dns),
    ("-nodns".toList, .globalFlags 0 flagNoDns),
    ("-mtu".toList, .mtu),
    ("-ppp-auth".toList, .text .pppAuth),
    ("-ppp-speed".toList, .lineSpeed),
    ("-up".toList, .text .upFile),
    ("-down".toList, .text .downFile),
    ("-remote_path".toList, .text .remoteSearchPath),
    ("-local-sudo".toList, .globalFlags flagLocalSu flagLocalSudo),
    ("-local-su".toList, .globalFlags flagLocalSudo flagLocalSu),
    ("-remote-sudo".toList, .globalFlags flagRemoteSu flagRemoteSudo),
    ("-remote-su".toList, .globalFlags flagRemoteSudo flagRemoteSu),
    ("-s".toList, .globalFlags 0 flagRemoteSu),
    ("-S".toList, .globalFlags 0 flagRemoteSudo),
    ("-tcp".toList, .vpnFlag vpnTcp),
    ("-timeout".toList, .timeout),
    ("-T".toList, .timeout),
    ("-V".toList, .vpnFlag vpnVerifyPeer),
    ("-verify".toList, .vpnFlag vpnVerifyPeer),
    ("-N".toList, .globalFlags (flagRemoteSu ||| flagRemoteSudo) 0),
    ("-auth".toList, .text .serverAuth),
    ("-debug".toList, .globalFlags 0 flagDebug),
    ("-verbose".toList, .globalFlags 0 flagVerbose),
    ("-version".toList, .globalFlags 0 flagVerbose),
    ("--version".toList, .globalFlags 0 flagVerbose)]

/-- The option behind a word of the command line, if it is one. -/
def optionKind (arg : CString) : Option OptionKind := optionTable.lookup arg

def longMax : Nat := 9223372036854775807

/-- `atoi`: `strtol` in base ten, cut to an `int`. -/
def atoi (s : CString) : BitVec 32 :=
  let (negative, body) :=
    match skipSpace s with
    | '-' :: rest => (true, rest)
    | '+' :: rest => (false, rest)
    | rest => (false, rest)
  let value := Nat.ofDigitChars 10 (body.takeWhile Char.isDigit) 0
  if negative then -(BitVec.ofNat 32 (min value (longMax + 1)))
  else BitVec.ofNat 32 (min value longMax)

namespace OptionKind

/-- The option calls `CommandLineNext` for a value. -/
def takesValue : OptionKind → Bool
  | text _ | mtu | lineSpeed | timeout => true
  | vpnFlag _ | globalFlags _ _ => false

/-- `atoi` does not take the NULL of an exhausted command line. -/
def needsValue : OptionKind → Bool
  | mtu | lineSpeed => true
  | text _ | timeout | vpnFlag _ | globalFlags _ _ => false

end OptionKind

/-- The branch for an option and its value. -/
def applyOption (kind : OptionKind) (value : CPtr) (s : Settings) : Settings :=
  match kind with
  | .text field => { s with vpn := field.set s.vpn (some (copyStr value)) }
  | .mtu => { s with vpn := { s.vpn with mtu := atoi (copyStr value) } }
  | .lineSpeed => { s with vpn := { s.vpn with lineSpeed := atoi (copyStr value) } }
  | .timeout =>
      { s with vpn := { s.vpn with timeout := (parseDuration (copyStr value)).setWidth 32 } }
  | .vpnFlag mask => { s with vpn := { s.vpn with flags := s.vpn.flags.raise mask } }
  | .globalFlags cleared raised =>
      { s with globalFlags := (s.globalFlags.drop cleared).raise raised }

/-- The option loop; `none` when `atoi` is handed NULL. -/
def parseOptions : List CString → Settings → Option Settings
  | [], s => some s
  | arg :: rest, s =>
      match optionKind arg with
      | none => parseOptions rest s
      | some kind =>
          if kind.takesValue then
            match rest with
            | [] => if kind.needsValue then none else some (applyOption kind none s)
            | value :: rest => parseOptions rest (applyOption kind (some value) s)
          else parseOptions rest (applyOption kind none s)

/-! ## The command words -/

/-- `IsServerURL`. -/
def isServerURL (server : CString) : Bool :=
  ["wg:", "ovpn:", "openvpn:", "ssh:", "tls:", "ssl:", "pssh:", "pppssh:", "pssl:", "pppssl:",
    "ptls:", "ppptls:"].any fun scheme => hasPrefix scheme.toList server

/-- What stands in front of the options. -/
structure CommandWords where
  action : CString
  name : CPtr
  server : CPtr
  options : List CString

/-- The `if`s over the action at the start of `ParseCommandLine`. -/
def commandWords (argv : List CString) : CommandWords :=
  let action := copyStr argv.head?
  let first := argv.tail
  let second := first.tail
  let isAction := fun word : String => sameNoCase action word.toList
  if isAction "add" || isAction "conf" || isAction "config" then
    ⟨action, some (copyStr first.head?), some (copyStr second.head?), second.tail⟩
  else if isAction "list" || isAction "del" || isAction "delete" || isAction "protocols" then
    ⟨action, some (copyStr first.head?), none, second⟩
  else if isAction "server" then ⟨action, none, some (copyStr first.head?), second⟩
  else if isAction "connect" then
    if isServerURL (copyStr first.head?) then ⟨action, none, some (copyStr first.head?), second⟩
    else ⟨action, some (copyStr first.head?), some [], second⟩
  else if isAction "version" || isAction "-version" || isAction "--version" then
    ⟨"version".toList, none, none, first⟩
  else ⟨"help".toList, none, none, first⟩

/-- `CommandLineValid`. -/
def commandLineValid (action : CString) (server : CPtr) : Bool :=
  if ["add", "connect", "server"].any fun word => sameNoCase action word.toList then
    !strValid server || isServerURL (copyStr server)
  else true

/-- `ParseCommandLine`, on the words behind the program's name. -/
def parseCommandLine (root : Bool) (argv : List CString) : Option Settings :=
  let words := commandWords argv
  if commandLineValid words.action words.server then
    (vpnCtxCreate words.action words.name words.server).bind fun vpn =>
      parseOptions words.options ⟨vpn, initialGlobalFlags root⟩
  else none

/-- `if (! StrValid(Vpn->Server)) ReadConfig(Vpn)` of `main`: what the driver is
started with.  `file` is the saved configuration of the context's name. -/
def settingsToConnect (home : CString) (file : CPtr) (s : Settings) : Settings :=
  if strValid s.vpn.server then s else readConfig home file s

end VpnMgr.Options
