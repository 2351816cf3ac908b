import VpnMgr.Client.Keeping

/-!
# What a failed bring-up leaves

The devices, addresses and routes that a run adds to the host and does not
take away again.
-/

namespace VpnMgr.Client

open Machine Text CString LibUseful Command Process

/-! ## Items on the host -/

inductive Item where
  | device (dev : CString)
  /-- an address on a device -/
  | address (dev : CString)
  /-- a route, by its command -/
  | route (text : CString)
  deriving DecidableEq

/-- Does the item go with this device? -/
def Item.on (dev : CString) : Item → Bool
  | .device other => other = dev
  | .address other => other = dev
  | .route _ => false

/-- How the commands begin that name a device of theirs next. -/
def deviceCommands : List CString :=
  ["ip tuntap add dev ".toList, "ip link add dev ".toList, "ip address add dev ".toList,
    "ip link delete dev ".toList]

def deviceName (text : CString) : CString := text.takeWhile (· ≠ ' ')

/-- The device of a command: `ip ... dev DEVICE`, or the last word. -/
def commandDevice (text : CString) : CString :=
  match deviceCommands.find? fun start => hasPrefix start text with
  | some start => deviceName (text.drop start.length)
  | none => (getTokens (some text) "\\S".toList noFlags).getLast?.getD []

/-- What a command that ends well has added. -/
def itemAdded : Sigma Answer → Option Item
  | ⟨.runCommand text _, some .okay⟩ =>
      match commandFeature text with
      | .addDevice => some (.device (commandDevice text))
      | .addAddress => some (.address (commandDevice text))
      | .addRoute => some (.route text)
      | _ => none
  | _ => none

/-- The device that a command that ends well has deleted. -/
def deviceDeleted : Sigma Answer → Option CString
  | ⟨.runCommand text _, some .okay⟩ =>
      if commandFeature text = .deleteDevice then some (commandDevice text) else none
  | _ => none

def added (made : History Answer) : List Item := made.filterMap itemAdded

def deleted (made : History Answer) : List CString := made.filterMap deviceDeleted

/-- The items after a call; a device takes its addresses along. -/
def itemsAfter (items : List Item) (interaction : Sigma Answer) : List Item :=
  match deviceDeleted interaction with
  | some dev => items.filter fun item => !item.on dev
  | none => items ++ (itemAdded interaction).toList

def left (made : History Answer) : List Item := made.foldl itemsAfter []

section Left

variable {made before after : History Answer}

theorem added_append : added (before ++ after) = added before ++ added after :=
  List.filterMap_append ..

theorem deleted_append : deleted (before ++ after) = deleted before ++ deleted after :=
  List.filterMap_append ..

section Footprint

variable {features : List Feature}

theorem deviceDeleted_feature {interaction : Sigma Answer}
    (isDeleted : deviceDeleted interaction ≠ none) :
    featureOf interaction.1 = .deleteDevice := by
  rcases interaction with ⟨call, answer⟩
  cases call with
  | runCommand text flags =>
      rcases answer with _ | _ | _
      case some.okay =>
        by_cases feature : commandFeature text = .deleteDevice
        · exact feature
        · exact absurd (if_neg feature) isDeleted
      all_goals exact absurd rfl isDeleted
  | _ => exact absurd rfl isDeleted

theorem deleted_eq_nil (only : Only (within features) made) (lacks : .deleteDevice ∉ features) :
    deleted made = [] :=
  filterMap_eq_nil_of_within (fun _ => deviceDeleted_feature) lacks (by decide) only

end Footprint

end Left

/-! ## Runs without `VpnUp` -/

section Runs

variable {β : Type} {reading : Sigma Answer → Option β} {settings : Settings} {fuel : Nat}
  {vpn : TVpn} {made : History Answer}

structure MayFollow (features : List Feature) (property : History Answer → Prop) : Prop where
  nil : property []
  after : ∀ before made, Only (within features) before → property made → property (before ++ made)

theorem MayFollow.bind {α β : Type} {features : List Feature} {property : History Answer → Prop}
    {process : Driver α} {next : α → Driver β} (follow : MayFollow features property)
    (touches : Touches process features)
    (rest : ∀ result, (next result).Makes property property) :
    (process >>= next).Makes property property := by
  have first : process.Ends (fun _ made => Only (within features) made) property :=
    Ends.mono touches (fun _ _ only => only) fun made only => by
      simpa using follow.after made [] only follow.nil
  exact Ends.bind first fun result before only => (rest result).mono
    (fun _ _ held => follow.after _ _ only held) fun _ held => follow.after _ _ only held

/-- Unless `VpnUp` is called, a part without deletions comes first and one
without additions after it. -/
def InParts (made : History Answer) : Prop :=
  ups made = [] → ∃ before after, made = before ++ after ∧ deleted before = [] ∧ added after = []

theorem InParts.after {features : List Feature} {before : History Answer}
    (only : Only (within features) before) (lacks : .deleteDevice ∉ features)
    (inParts : InParts made) : InParts (before ++ made) := by
  intro noUp
  rw [ups_append, List.append_eq_nil_iff] at noUp
  obtain ⟨first, second, rfl, noDelete, noAdd⟩ := inParts noUp.2
  refine ⟨before ++ first, second, by rw [List.append_assoc], ?_, noAdd⟩
  rw [deleted_append, deleted_eq_nil only lacks, noDelete, List.nil_append]

/-- The devices and addresses that are added, and the devices that are deleted, are
of this name. -/
structure OnDevice (dev : CString) (made : History Answer) : Prop where
  adds : ∀ item ∈ added made, item.on dev = true ∨ ∃ text, item = .route text
  deletes : ∀ other ∈ deleted made, other = dev

theorem OnDevice.append {dev : CString} {first second : History Answer} (before : OnDevice dev first)
    (after : OnDevice dev second) : OnDevice dev (first ++ second) where
  adds item member := by
    rw [added_append] at member
    exact (List.mem_append.mp member).elim (before.adds item) (after.adds item)
  deletes other member := by
    rw [deleted_append] at member
    exact (List.mem_append.mp member).elim (before.deletes other) (after.deletes other)

end Runs

def serverRoute : Item := .route "route add -host 10.1.1.1 gw 192.168.0.1".toList

end VpnMgr.Client
