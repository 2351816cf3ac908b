import VpnMgr.Client.RouteOrder
import VpnMgr.Machine.RoutingTable

/-!
# The way to the server

What goes through the tunnel must not be routed into the tunnel once more.  The
kernel takes the route of the longest prefix, so the route to the server itself
is taken until a route to the same address leads into the link.
-/

namespace VpnMgr.Client

open Machine Text CString LibUseful Command Process Shell

/-! ## What `route` does -/

inductive Hop where
  | gateway (address : CString)
  | device (name : CString)
  deriving DecidableEq

/-- The route that a `route add` of these words adds, where `resolve` finds the
addresses of hosts. -/
inductive WordsAdd (resolve : CString → Option Ipv4Address) : List Word → Route Hop → Prop
  | gateway {host gateway : Word} {address : Ipv4Address} (found : resolve host = some address) :
      WordsAdd resolve ["-host".toList, host, "gw".toList, gateway]
        ⟨Ipv4Net.host address, .gateway gateway⟩
  | host {net : Ipv4Net} {dev : Word} (single : net.length = none) :
      WordsAdd resolve ["-host".toList, net.text, dev] ⟨net, .device dev⟩
  | net {net : Ipv4Net} {dev : Word} (wide : net.length.isSome = true) :
      WordsAdd resolve ["-net".toList, net.text, dev] ⟨net, .device dev⟩
  | default {dev : Word} :
      WordsAdd resolve ["default".toList, dev] ⟨Ipv4Net.everything, .device dev⟩

/-- The route that a command line adds. -/
def CommandAdds (resolve : CString → Option Ipv4Address) (text : CString) (route : Route Hop) :
    Prop :=
  ∃ arguments words, text = "route add ".toList ++ arguments ∧
    simpleCommands text = some ["route".toList :: "add".toList :: words] ∧
    WordsAdd resolve words route

/-- A call of a run, and the route that it added to the kernel's table, if any. -/
abbrev RouteEvent := Sigma Answer × Option (Route Hop)

def CallAdds (resolve : CString → Option Ipv4Address) : Sigma Answer → Route Hop → Prop
  | ⟨.runCommand text _, _⟩, route => CommandAdds resolve text route
  | _, _ => False

/-- The calls that a run has made so far, with their effects. -/
structure Recorded (resolve : CString → Option Ipv4Address) (made : History Answer)
    (events : List RouteEvent) : Prop where
  calls : events.map Prod.fst <+: made
  effects : ∀ event ∈ events, ∀ route, event.2 = some route → CallAdds resolve event.1 route

section Words

variable {resolve : CString → Option Ipv4Address} {route : Route Hop} {words : List Word}

theorem commandAdds_words (areWords : ∀ word ∈ words, IsWord word) :
    CommandAdds resolve ("route add ".toList ++ [' '].intercalate words) route ↔
      WordsAdd resolve words route := by
  have read := route_words simpleCommands_splitsAtBlanks (bare_intercalate areWords)
  rw [blankWords_intercalate areWords] at read
  constructor
  · rintro ⟨arguments, others, -, othersRead, adds⟩
    have same := (List.cons.inj (Option.some.inj (read.symm.trans othersRead))).1
    obtain rfl := (List.cons.inj (List.cons.inj same).2).2
    exact adds
  · exact fun adds => ⟨_, words, rfl, read, adds⟩

theorem isWord_literal {word : Word} (checked : (word != [] && word.all isBare) = true) :
    IsWord word := by
  rw [Bool.and_eq_true, bne_iff_ne] at checked
  exact ⟨checked.1, List.all_eq_true.mp checked.2⟩

theorem commandAdds_server {address gateway : CString} (isAddress : IsWord address)
    (isGateway : IsWord gateway) :
    CommandAdds resolve (serverCommand (some address) gateway) route ↔
      ∃ server, resolve address = some server ∧ route = ⟨Ipv4Net.host server, .gateway gateway⟩ := by
  have text : serverCommand (some address) gateway = "route add ".toList ++
      [' '].intercalate ["-host".toList, address, "gw".toList, gateway] := by
    simp [serverCommand, List.intercalate_cons_cons]
  have areWords : ∀ word ∈ ["-host".toList, address, "gw".toList, gateway], IsWord word := by
    simp only [List.forall_mem_cons, List.not_mem_nil, false_implies, implies_true, and_true]
    exact ⟨isWord_literal (by decide), isAddress, isWord_literal (by decide), isGateway⟩
  rw [text, commandAdds_words areWords]
  constructor
  · intro adds
    cases adds with
    | gateway found => exact ⟨_, found, rfl⟩
  · rintro ⟨server, found, rfl⟩
    exact .gateway found

inductive AllowedEntry where
  | all
  | default
  | network (net : Ipv4Net)
  deriving DecidableEq

namespace AllowedEntry

def text : AllowedEntry → CString
  | all => "all".toList
  | default => "default".toList
  | network net => net.text

theorem text_ne_nil (entry : AllowedEntry) : entry.text ≠ [] := by
  cases entry with
  | all => decide
  | default => decide
  | network net => exact List.ne_nil_of_mem (Ipv4Net.dot_mem_text net)

theorem text_plain (entry : AllowedEntry) : entry.text.all isEntryChar = true := by
  cases entry with
  | all => decide
  | default => decide
  | network net =>
      refine List.all_eq_true.mpr fun c member => ?_
      rcases Ipv4Net.mem_text member with digit | rfl | rfl
      · exact isEntryChar_of_isDigit digit
      · decide
      · decide

def listed (entry : AllowedEntry) : ListEntry := ⟨entry.text, entry.text_ne_nil, entry.text_plain⟩

end AllowedEntry

/-- An entry with the blanks around it. -/
structure AllowedItem where
  before : Nat := 0
  entry : AllowedEntry
  after : Nat := 0
  deriving DecidableEq

def AllowedItem.listed (item : AllowedItem) : ListItem :=
  ⟨item.before, item.entry.listed, item.after⟩

/-- `AllowedIPs`, a list of IPv4 networks and keywords. -/
def allowedText (items : List AllowedItem) : CString := listText (items.map AllowedItem.listed)

/-- The entry routes the address alone. -/
def AllowedEntry.IsHostOf (entry : AllowedEntry) (server : Ipv4Address) : Prop :=
  match entry with
  | .network net => net.IsHost server
  | _ => False

def AllowedEntry.net : AllowedEntry → Ipv4Net
  | .network net => net
  | _ => Ipv4Net.everything

theorem isHostOf_iff (entry : AllowedEntry) (server : Ipv4Address) :
    entry.IsHostOf server ↔ entry.net.IsHost server := by
  cases entry with
  | network net => exact Iff.rfl
  | all => exact iff_of_false id (Ipv4Net.not_isHost_everything server)
  | default => exact iff_of_false id (Ipv4Net.not_isHost_everything server)

theorem isWord_entryText (entry : AllowedEntry) : IsWord entry.text :=
  ⟨entry.text_ne_nil, fun _ member =>
    bare_of_isEntryChar (List.all_eq_true.mp entry.text_plain _ member)⟩

theorem routeCommand_network (net : Ipv4Net) (dev : CString) :
    routeCommand net.text dev = "route add ".toList ++ [' '].intercalate
      [if net.length.isSome then "-net".toList else "-host".toList, net.text, dev] := by
  have noKeyword : ∀ word : CString, '.' ∉ word → net.text ≠ word :=
    fun word noDot same => noDot (same ▸ Ipv4Net.dot_mem_text net)
  have isAddress : (net.text = "default".toList || net.text = "all".toList) = false := by
    rw [Bool.or_eq_false_iff]
    exact ⟨decide_eq_false (noKeyword _ (by decide)), decide_eq_false (noKeyword _ (by decide))⟩
  have slash : net.text.contains '/' = net.length.isSome := by
    rw [Bool.eq_iff_iff, List.contains_iff_mem]
    exact Ipv4Net.slash_mem_text net
  simp only [routeCommand, isAddress, Bool.false_eq_true, if_false, slash]
  split <;> simp [List.intercalate_cons_cons]

theorem commandAdds_default {dev : CString} (isDev : IsWord dev) :
    CommandAdds resolve (mCopyStr [some "route add default ".toList, some dev]) route ↔
      route = ⟨Ipv4Net.everything, .device dev⟩ := by
  have text : mCopyStr [some "route add default ".toList, some dev] =
      "route add ".toList ++ [' '].intercalate ["default".toList, dev] := by
    simp [List.intercalate_cons_cons]
  have areWords : ∀ word ∈ ["default".toList, dev], IsWord word := by
    simp only [List.forall_mem_cons, List.not_mem_nil, false_implies, implies_true, and_true]
    exact ⟨isWord_literal (by decide), isDev⟩
  rw [text, commandAdds_words areWords]
  constructor
  · intro adds
    cases adds with
    | default => rfl
  · rintro rfl
    exact .default

theorem commandAdds_network (net : Ipv4Net) {dev : CString} (isDev : IsWord dev) :
    CommandAdds resolve (routeCommand net.text dev) route ↔ route = ⟨net, .device dev⟩ := by
  rw [routeCommand_network, commandAdds_words]
  · constructor
    · intro adds
      generalize isText : net.text = text at adds
      split at adds
      next =>
        cases adds with
        | net => rw [Ipv4Net.text_injective isText]
      next =>
        cases adds with
        | host => rw [Ipv4Net.text_injective isText]
    · rintro rfl
      split
      next wide => exact .net wide
      next single => exact .host (by simpa using single)
  · simp only [List.forall_mem_cons, List.not_mem_nil, false_implies, implies_true, and_true]
    refine ⟨?_, isWord_entryText (.network net), isDev⟩
    split
    · exact isWord_literal (by decide)
    · exact isWord_literal (by decide)

theorem commandAdds_entry (entry : AllowedEntry) {dev : CString} (isDev : IsWord dev) :
    CommandAdds resolve (routeCommand entry.text dev) route ↔
      route = ⟨entry.net, .device dev⟩ := by
  cases entry with
  | all => exact commandAdds_default isDev
  | default => exact commandAdds_default isDev
  | network net => exact commandAdds_network net isDev

end Words

/-! ## The server stays outside -/

def TookEffect (events : List RouteEvent) (text : CString) : Prop :=
  ∃ flags answer route, (⟨.runCommand text flags, answer⟩, some route) ∈ events

theorem exists_item {items : List AllowedItem} {allowed : CPtr} {dev text : CString}
    (listed : copyStr allowed = allowedText items) (member : text ∈ routeCommands allowed dev) :
    ∃ item ∈ items, text = routeCommand item.entry.text dev := by
  obtain ⟨address, isToken, rfl⟩ := List.mem_map.mp member
  cases allowed with
  | none => exact absurd isToken List.not_mem_nil
  | some allowed =>
      obtain rfl : allowed = allowedText items := listed
      have tokens : getTokens (some (allowedText items)) ",".toList getTokenQuotes =
          (items.map AllowedItem.listed).map ListItem.text := getTokens_listText _
      rw [tokens, List.map_map] at isToken
      obtain ⟨item, isItem, rfl⟩ := List.mem_map.mp isToken
      exact ⟨item, isItem, by rw [Function.comp_apply, strip_itemText]; rfl⟩

section Outside

variable {resolve : CString → Option Ipv4Address} {settings : Settings} {fuel : Nat} {vpn : TVpn}
  {protocol : Protocol} {env : Environment Answer} {ending : Ending Unit} {made : History Answer}
  {items : List AllowedItem} {events front behind : List RouteEvent} {address gateway : CString}
  {flags : FlagWord} {answer : Option RunCmd} {own : Route Hop}

theorem commandFeature_of_adds {text : CString} {route : Route Hop}
    (adds : CommandAdds resolve text route) : commandFeature text = .addRoute := by
  obtain ⟨arguments, words, rfl, -, -⟩ := adds
  rfl

theorem command_of_adds {interaction : Sigma Answer} {route : Route Hop}
    (adds : CallAdds resolve interaction route) :
    ∃ text flags, interaction.1 = .runCommand text flags ∧ CommandAdds resolve text route := by
  obtain ⟨call, answer⟩ := interaction
  cases call with
  | runCommand text flags => exact ⟨text, flags, rfl, adds⟩
  | _ => exact False.elim adds

theorem Recorded.split {event : RouteEvent}
    (recorded : Recorded resolve made (front ++ event :: behind)) :
    ∃ rest, made = front.map Prod.fst ++ event.1 :: rest := by
  obtain ⟨rest, whole⟩ := recorded.calls
  exact ⟨behind.map Prod.fst ++ rest, by rw [← whole]; simp⟩

theorem noBlank_intercalate {separator : CString} (between : ' ' ∉ separator)
    {parts : List CString} (each : ∀ part ∈ parts, ' ' ∉ part) :
    ' ' ∉ separator.intercalate parts := by
  induction parts with
  | nil => exact List.not_mem_nil
  | cons part rest inductionHypothesis =>
      have here := each part List.mem_cons_self
      have later := inductionHypothesis fun other member => each other (List.mem_cons_of_mem _ member)
      cases rest with
      | nil => rwa [List.intercalate_singleton]
      | cons other rest =>
          rw [List.intercalate_cons_cons]
          simp [here, between, later]

theorem noBlank_formatInt (value : Int) : ' ' ∉ formatInt value := by
  have digits : ∀ n : Nat, ' ' ∉ decimal n := not_mem_decimal rfl
  unfold formatInt
  split
  · simp [digits]
  · exact digits _

theorem noBlank_routeParseHexAddress (text : CString) : ' ' ∉ routeParseHexAddress text := by
  refine noBlank_intercalate (by decide) fun part member => ?_
  obtain ⟨pair, -, rfl⟩ := List.mem_map.mp member
  exact noBlank_formatInt _

theorem noBlank_routeGetDefault (text : CString) : ' ' ∉ routeGetDefault text := by
  unfold routeGetDefault
  refine List.foldlRecOn _ _ (motive := fun found => ' ' ∉ found) List.not_mem_nil
    fun found noBlank entry _ => ?_
  split
  · exact noBlank_routeParseHexAddress _
  · exact noBlank

theorem lastWord_unique {front other first second : CString} (noBlank : ' ' ∉ first)
    (noBlankToo : ' ' ∉ second) (same : front ++ ' ' :: first = other ++ ' ' :: second) :
    first = second := by
  have cut {front word : CString} (noBlank : ' ' ∉ word) :
      ((front ++ ' ' :: word).reverse.takeWhile (· != ' ')).reverse = word := by
    have solid : ∀ c ∈ word.reverse, (c != ' ') = true := by
      intro c member
      rw [bne_iff_ne]
      rintro rfl
      exact noBlank (List.mem_reverse.mp member)
    rw [List.reverse_append, List.reverse_cons, List.append_assoc,
      List.takeWhile_append_of_pos solid]
    simp
  rw [← cut noBlank, same, cut noBlankToo]

theorem gateway_of_serverCommand {other : CPtr} {text : CString} (isGateway : IsWord gateway)
    (same : serverCommand (some address) gateway = serverCommand other (routeGetDefault text)) :
    gateway = routeGetDefault text := by
  have shape (name gateway : CString) : serverCommand (some name) gateway =
      ("route add -host ".toList ++ name ++ " gw".toList) ++ ' ' :: gateway := by
    simp [serverCommand]
  cases other with
  | none =>
      have ends : serverCommand none (routeGetDefault text) = "route add -host".toList ++ ' ' :: [] :=
        rfl
      rw [shape, ends] at same
      exact absurd (lastWord_unique isGateway.noBlank List.not_mem_nil same) isGateway.1
  | some other =>
      rw [shape, shape] at same
      exact lastWord_unique isGateway.noBlank (noBlank_routeGetDefault text) same

/-- What is routed after the server leads into a link, for an entry of the list. -/
theorem entry_of_effect {event later : RouteEvent} {middle : List RouteEvent} {route : Route Hop}
    (ran : protocolUp settings fuel vpn protocol env [] = some (ending, made))
    (listed : copyStr vpn.allowedIPs = allowedText items)
    (recorded : Recorded resolve made (front ++ event :: (middle ++ later :: behind)))
    (added : event.2 = some own) (effect : later.2 = some route) :
    ∃ item ∈ items, ∃ dev flags answer, LinkUp made dev ∧
      later.1 = ⟨.runCommand (routeCommand item.entry.text dev) flags, answer⟩ := by
  obtain ⟨text, flags, isCommand, adds⟩ :=
    command_of_adds (recorded.effects later (by simp) route effect)
  obtain ⟨earlier, earlierFlags, isEarlier, addsEarlier⟩ :=
    command_of_adds (recorded.effects event (by simp) own added)
  have whole : front ++ event :: (middle ++ later :: behind) =
      (front ++ event :: middle) ++ later :: behind := by simp
  rw [whole] at recorded
  obtain ⟨rest, rfl⟩ := recorded.split
  obtain ⟨here, next, tells, move⟩ := protocolUp_move ran
  rcases later with ⟨⟨call, answer⟩, _⟩
  obtain rfl := isCommand
  cases move with
  | serverRoute address _ _ down isServer =>
      have noRoute := tells.noRoute down event.1 (by simp) earlier earlierFlags isEarlier
      exact absurd (commandFeature_of_adds addsEarlier) noRoute
  | linkRoute dev _ _ _ isRoute up inList =>
      obtain ⟨item, isItem, rfl⟩ := exists_item listed inList
      exact ⟨item, isItem, dev, flags, answer, List.mem_append_left _ (tells.link dev up), rfl⟩
  | other _ noTable noLink noRoute =>
      exact absurd (commandFeature_of_adds adds) (noRoute text flags rfl)

def serverEvent (address gateway : CString) (flags : FlagWord) (answer : Option RunCmd)
    (own : Route Hop) : RouteEvent :=
  (⟨.runCommand (serverCommand (some address) gateway) flags, answer⟩, some own)

/-- No link is up when the route to the server is added, and the gateway is
that of the table. -/
theorem serverEvent_first
    (ran : protocolUp settings fuel vpn protocol env [] = some (ending, made))
    (listed : copyStr vpn.allowedIPs = allowedText items)
    (named : ∀ dev, LinkUp made dev → IsWord dev) (isAddress : IsWord address)
    (isGateway : IsWord gateway)
    (recorded : Recorded resolve made
      (front ++ serverEvent address gateway flags answer own :: behind)) :
    gateway = routeGetDefault (lastRead (front.map Prod.fst)) ∧
      ∀ dev, ¬ LinkUp (front.map Prod.fst) dev := by
  have adds : CommandAdds resolve (serverCommand (some address) gateway) own :=
    recorded.effects (serverEvent address gateway flags answer own) (by simp) own rfl
  obtain ⟨rest, rfl⟩ := recorded.split
  obtain ⟨here, next, tells, move⟩ := protocolUp_move ran
  rw [serverEvent] at move
  generalize isText : serverCommand (some address) gateway = text at move
  cases move with
  | serverRoute other _ _ down isServer =>
      rw [tells.table] at isText
      exact ⟨gateway_of_serverCommand isGateway isText, tells.noLink down.1⟩
  | linkRoute dev _ _ _ isRoute up inList =>
      obtain ⟨item, -, rfl⟩ := exists_item listed inList
      have isDev := named dev (List.mem_append_left _ (tells.link dev up))
      rw [isText] at adds
      obtain rfl := (commandAdds_entry item.entry isDev).mp adds
      rw [← isText] at adds
      obtain ⟨server, -, same⟩ := (commandAdds_server isAddress isGateway).mp adds
      cases congrArg Route.hop same
  | other _ noTable noLink noRoute =>
      exact absurd (commandFeature_of_adds (isText ▸ adds)) (noRoute text flags rfl)

/-- The route to the server leads to the gateway of the table as it was before
the first link, and packets to the server take it until an entry of `AllowedIPs`
that is the server's own address takes effect. -/
theorem outside_iff {server : Ipv4Address} {before after : RoutingTable Hop}
    (ran : protocolUp settings fuel vpn protocol env [] = some (ending, made))
    (listed : copyStr vpn.allowedIPs = allowedText items)
    (named : ∀ dev, LinkUp made dev → IsWord dev) (isAddress : IsWord address)
    (isGateway : IsWord gateway) (found : resolve address = some server)
    (recorded : Recorded resolve made
      (front ++ serverEvent address gateway flags answer own :: behind))
    (evolves : RoutingTable.Evolves server before
      ((front ++ serverEvent address gateway flags answer own :: behind).map Prod.snd) after) :
    (gateway = routeGetDefault (lastRead (front.map Prod.fst)) ∧
      ∀ dev, ¬ LinkUp (front.map Prod.fst) dev) ∧
    ((RoutingTable.taken server after).map Route.hop = some (.gateway gateway) ↔
      ∀ item ∈ items, item.entry.IsHostOf server → ∀ dev, LinkUp made dev →
        ¬ TookEffect behind (routeCommand item.entry.text dev)) := by
  refine ⟨serverEvent_first ran listed named isAddress isGateway recorded, ?_⟩
  have adds : CommandAdds resolve (serverCommand (some address) gateway) own :=
    recorded.effects (serverEvent address gateway flags answer own) (by simp) own rfl
  obtain ⟨other, sameServer, rfl⟩ := (commandAdds_server isAddress isGateway).mp adds
  obtain rfl := Option.some.inj (found.symm.trans sameServer)
  have routed : ∀ route, some route ∈ behind.map Prod.snd → ∃ item ∈ items, ∃ dev,
      LinkUp made dev ∧ route = ⟨item.entry.net, .device dev⟩ ∧
        TookEffect behind (routeCommand item.entry.text dev) := by
    intro route member
    obtain ⟨later, inBehind, effect⟩ := List.mem_map.mp member
    obtain ⟨middle, more, rfl⟩ := List.append_of_mem inBehind
    obtain ⟨item, isItem, dev, flags, answer, up, isCall⟩ :=
      entry_of_effect ran listed recorded rfl effect
    have addsLater : CallAdds resolve later.1 route :=
      recorded.effects later (by simp) route effect
    rw [isCall] at addsLater
    refine ⟨item, isItem, dev, up, (commandAdds_entry item.entry (named dev up)).mp addsLater,
      flags, answer, route, ?_⟩
    rw [← isCall, ← effect]
    exact List.mem_append_right _ List.mem_cons_self
  rw [List.map_append, List.map_cons] at evolves
  refine (evolves.taken_iff (Ipv4Net.isHost_host server) fun route member => ?_).trans ⟨?_, ?_⟩
  · obtain ⟨item, -, dev, -, rfl, -⟩ := routed route member
    exact nofun
  · rintro none item isItem isHost dev up ⟨flags, answer, route, took⟩
    have addsLater : CommandAdds resolve (routeCommand item.entry.text dev) route :=
      recorded.effects _ (List.mem_append_right _ (List.mem_cons_of_mem _ took)) route rfl
    obtain rfl := (commandAdds_entry item.entry (named dev up)).mp addsLater
    exact none _ (List.mem_map_of_mem took) ((isHostOf_iff item.entry server).mp isHost)
  · intro none route member isHost
    obtain ⟨item, isItem, dev, up, rfl, took⟩ := routed route member
    exact none item isItem ((isHostOf_iff item.entry server).mpr isHost) dev up took

end Outside

def loopNet : Ipv4Net := { octets := (10, 1, 1, 1), length := none }

def loopServer : RouteEvent :=
  serverEvent "10.1.1.1".toList "192.168.0.1".toList cmdAsRoot (some .okay)
    ⟨Ipv4Net.host 0x0a010101, .gateway "192.168.0.1".toList⟩

def loopBehind : List RouteEvent :=
  loopLater.zip [none, none, some ⟨loopNet, .device "wg0".toList⟩]

def loopResolve (host : CString) : Option Ipv4Address :=
  if host = "10.1.1.1".toList then some 0x0a010101 else none

/-- The address of the server goes into the tunnel. -/
theorem outside_iff_loop :
    let table : RoutingTable Hop :=
      [⟨loopNet, .device "wg0".toList⟩,
        ⟨Ipv4Net.host 0x0a010101, .gateway "192.168.0.1".toList⟩]
    TookEffect loopBehind (routeCommand loopNet.text "wg0".toList) ∧
      (RoutingTable.taken 0x0a010101 table).map Route.hop ≠
        some (.gateway "192.168.0.1".toList) := by
  intro table
  have isDev : IsWord "wg0".toList := isWord_literal (by decide)
  have isAddress : IsWord "10.1.1.1".toList := isWord_literal (by decide)
  have isGateway : IsWord "192.168.0.1".toList := isWord_literal (by decide)
  have took : TookEffect loopBehind (routeCommand loopNet.text "wg0".toList) :=
    ⟨cmdAsRoot, some .okay, ⟨loopNet, .device "wg0".toList⟩, .tail _ (.tail _ (.head _))⟩
  refine ⟨took, fun outside => ?_⟩
  have up : LinkUp (loopFront ++ loopServer.1 :: (loopLater ++ loopRest))
      "wg0".toList := by
    apply List.mem_append_right
    exact .tail _ (.tail _ (.head _))
  have only : ∀ dev, LinkUp (loopFront ++ loopServer.1 :: (loopLater ++ loopRest))
      dev → IsWord dev := by
    intro dev isUp
    have call := List.mem_map_of_mem (f := Sigma.fst) isUp
    simp only [loopFront, loopServer, serverEvent, loopLater, loopSetCall, loopRest,
      List.map_cons, List.map_nil, List.cons_append, List.nil_append, List.mem_cons, reduceCtorEq,
      false_or, or_false, Call.vpnUp.injEq, List.not_mem_nil] at call
    rw [call]
    exact isDev
  have recorded : Recorded loopResolve
      (loopFront ++ loopServer.1 :: (loopLater ++ loopRest))
      (loopFront.map (fun interaction => (interaction, none)) ++ loopServer :: loopBehind) := by
    refine ⟨⟨loopRest, rfl⟩, fun event member route effect => ?_⟩
    rcases List.mem_append.mp member with inFront | behind
    · obtain ⟨interaction, -, rfl⟩ := List.mem_map.mp inFront
      cases effect
    rcases List.mem_cons.mp behind with rfl | inBehind
    · obtain rfl := Option.some.inj effect
      exact (commandAdds_server isAddress isGateway).mpr ⟨_, by decide, rfl⟩
    · simp only [loopBehind, loopLater, List.zip_cons_cons, List.zip_nil_left, List.mem_cons,
        List.not_mem_nil, or_false] at inBehind
      rcases inBehind with rfl | rfl | rfl
      · cases effect
      · cases effect
      · obtain rfl := Option.some.inj effect
        exact (commandAdds_entry (.network loopNet) isDev).mpr rfl
  have idle {t u : RoutingTable Hop} {rest : List (Option (Route Hop))}
      (evolves : RoutingTable.Evolves 0x0a010101 t rest u) :
      RoutingTable.Evolves 0x0a010101 t (none :: rest) u := .cons rfl evolves
  have evolves : RoutingTable.Evolves 0x0a010101 []
      ((loopFront.map (fun interaction => (interaction, none)) ++ loopServer :: loopBehind).map
        Prod.snd) table := by
    iterate 11 apply idle
    exact .cons rfl (idle (idle (.cons rfl (.nil _))))
  have listed : copyStr loopVpn.allowedIPs = allowedText [{ entry := .network loopNet }] := rfl
  have isHost : loopNet.IsHost 0x0a010101 := by decide
  have judged := outside_iff loop_runs listed only isAddress isGateway (by decide) recorded evolves
  exact judged.2.mp outside _ List.mem_cons_self isHost _ up took

end VpnMgr.Client
