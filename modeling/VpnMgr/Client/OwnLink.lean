import VpnMgr.Client.PppRelay

/-!
# Whose link is brought up

`PPPDTryConfigureEndpoint` knows the link of its pppd by the start of the name
and the local address only.
-/

namespace VpnMgr.Client

open Machine Text CString LibUseful Command Process

/-- What `NetDevFindForIP` looks for. -/
def isEndpoint (address : CString) (dev : Device) : Bool :=
  hasPrefix "ppp".toList dev.name && dev.ip = address

def deviceNames (table : NetTable) : List CString := (netLoadDevices table).map Device.name

/-- Each old device that looks like the link is listed after a new one that does. -/
def NewFirst (existing : NetTable) (address : CString) (table : NetTable) : Prop :=
  ∀ before dev after, netLoadDevices table = before ++ dev :: after →
    isEndpoint address dev = true → dev.name ∈ deviceNames existing →
      ∃ other ∈ before, isEndpoint address other = true ∧ other.name ∉ deviceNames existing

def EndpointEvent.table : EndpointEvent → Option NetTable
  | .polled table => some table
  | .up _ => none

def EndpointEvent.dev : EndpointEvent → Option CString
  | .polled _ => none
  | .up dev => some dev

def polledTables (made : History Answer) : List NetTable :=
  (endpointEvents made).filterMap EndpointEvent.table

theorem find?_new_iff {α : Type} (wanted : α → Bool) (old : α → Prop) (items : List α) :
    (∀ item, items.find? wanted = some item → ¬ old item) ↔
      ∀ before item after, items = before ++ item :: after → wanted item = true → old item →
        ∃ other ∈ before, wanted other = true ∧ ¬ old other := by
  constructor
  · rintro isNew before item after rfl isWanted isOld
    cases earlier : before.find? wanted with
    | some other =>
        refine ⟨other, List.mem_of_find?_eq_some earlier, List.find?_some earlier, ?_⟩
        exact isNew other (by simp [List.find?_append, earlier])
    | none => exact absurd isOld (isNew item (by simp [List.find?_append, earlier, isWanted]))
  · intro behind item found isOld
    obtain ⟨isWanted, before, after, rfl, none⟩ := List.find?_eq_some_iff_append.mp found
    obtain ⟨other, member, otherWanted, -⟩ := behind before item after rfl isWanted isOld
    simpa [otherWanted] using none other member

theorem netDevFindForIP_mem {table : NetTable} {address : CString}
    (found : netDevFindForIP table "ppp".toList address ≠ []) :
    ∃ dev, (netLoadDevices table).find? (isEndpoint address) = some dev ∧
      netDevFindForIP table "ppp".toList address = dev.name := by
  unfold netDevFindForIP isEndpoint at *
  split at found
  next dev first => exact ⟨dev, first, rfl⟩
  next => exact absurd rfl found

theorem netDevFindForIP_of_find {table : NetTable} {address : CString} {dev : Device}
    (first : (netLoadDevices table).find? (isEndpoint address) = some dev) :
    netDevFindForIP table "ppp".toList address = dev.name ∧ dev.name ≠ [] := by
  have isFirst : netDevFindForIP table "ppp".toList address = dev.name := by
    unfold netDevFindForIP isEndpoint at *
    rw [first]
  have starts := List.find?_some first
  refine ⟨isFirst, fun empty => ?_⟩
  rw [isEndpoint, empty] at starts
  simp [hasPrefix] at starts

theorem newFirst_iff (existing : NetTable) (address : CString) (table : NetTable) :
    NewFirst existing address table ↔ (netDevFindForIP table "ppp".toList address ≠ [] →
      netDevFindForIP table "ppp".toList address ∉ deviceNames existing) := by
  refine (find?_new_iff (isEndpoint address) (·.name ∈ deviceNames existing) _).symm.trans ?_
  constructor
  · intro isNew found
    obtain ⟨dev, first, name⟩ := netDevFindForIP_mem found
    rw [name]
    exact isNew dev first
  · intro isNew dev first
    obtain ⟨name, valid⟩ := netDevFindForIP_of_find first
    rw [← name]
    exact isNew (name ▸ valid)

theorem ups_eq (made : History Answer) :
    ups made = (endpointEvents made).filterMap EndpointEvent.dev := by
  rw [ups, brackets, endpointEvents, List.filterMap_filterMap, List.filterMap_filterMap]
  congr 1
  funext interaction
  rcases interaction with ⟨call, answer⟩
  cases call <;> rfl

theorem ConfiguresOnce.own_iff {address : CString} {existing : NetTable}
    {events : List EndpointEvent} (once : ConfiguresOnce address events) :
    (∀ dev ∈ events.filterMap EndpointEvent.dev, dev ∉ deviceNames existing) ↔
      ∀ table ∈ events.filterMap EndpointEvent.table, NewFirst existing address table := by
  induction once with
  | waits => simp
  | polls missing later inductionHypothesis =>
      have free := (newFirst_iff existing address _).mpr (absurd missing)
      simpa [EndpointEvent.dev, EndpointEvent.table, free] using inductionHypothesis
  | finds found => simpa [EndpointEvent.dev, EndpointEvent.table, newFirst_iff] using .inl found

/-- `VpnUp` is called for none of the devices that were there before pppd was
launched exactly when those are behind the new link at every look. -/
theorem pppdRun_ownLink_iff (settings : Settings) (vpn : TVpn) (existing : NetTable)
    (env : Environment Answer) (made : History Answer) (run : PppdRun settings vpn env made) :
    (∀ dev ∈ ups made, dev ∉ deviceNames existing) ↔
      ∀ table ∈ polledTables made, NewFirst existing (copyStr (pppdLocalAddress vpn)) table := by
  rw [ups_eq, polledTables]
  exact (run.spec pppdProcessWithin_configuresOnce).own_iff

/-- Another connection's link, and then the new one with it. -/
def officeTable : NetTable where
  procNetDev := some "Inter-|   Receive\n face |bytes\n  lo: 0 0\n  ppp0: 0 0\n".toList
  interfaceIP := fun name => if name = "ppp0".toList then "10.9.0.2".toList else []

def linkedTable : NetTable where
  procNetDev := some "Inter-|   Receive\n face |bytes\n  lo: 0 0\n  ppp0: 0 0\n  ppp1: 0 0\n".toList
  interfaceIP := fun name =>
    if name = "ppp0".toList then "10.9.0.2".toList
    else if name = "ppp1".toList then "172.16.0.2".toList else []

def linkedHost : Environment Answer
  | history, .netLoadDevices => if polledTables history = [] then officeTable else linkedTable
  | history, .streamSelect => sharedHost history .streamSelect
  | history, .streamReadBytes stream => sharedHost history (.streamReadBytes stream)
  | history, .flagExit => (ups history ≠ [] : Bool)
  | history, call => obligingHost history call

theorem pppdRun_ownLink_iff_linked :
    ∃ made, ups made = ["ppp1".toList] ∧ ∀ dev ∈ ups made, dev ∉ deviceNames officeTable := by
  have run : (pppdProcess plainSettings 5 {} linkedHost []).map
      (fun ended => (ended.1, ups ended.2, (polledTables ended.2).map fun table =>
        netDevFindForIP table "ppp".toList "172.16.0.2".toList)) =
      some (.returned (), ["ppp1".toList], [[], "ppp1".toList]) := by decide +kernel
  obtain ⟨⟨ending, made⟩, ended, read⟩ := Option.map_eq_some_iff.mp run
  simp only [Prod.mk.injEq] at read
  obtain ⟨rfl, entered, looks⟩ := read
  refine ⟨made, entered, (pppdRun_ownLink_iff plainSettings {} officeTable linkedHost made
    (pppdRun_of_ended ended)).mpr fun table member => ?_⟩
  refine (newFirst_iff officeTable "172.16.0.2".toList table).mpr fun found => ?_
  have look := List.mem_map_of_mem (f := fun table =>
    netDevFindForIP table "ppp".toList "172.16.0.2".toList) member
  rw [looks] at look
  rcases List.mem_pair.mp look with none | new
  · exact absurd none found
  · rw [new]
    decide

/-- The link of the other connection, which has the default address too, is
brought up in place of the new one. -/
theorem pppdProcess_takes_other_link :
    ∃ made, pppdProcess plainSettings 2 {} sharedHost [] = some (.returned (), made) ∧
      ¬ ∀ dev ∈ ups made, dev ∉ deviceNames sharedTable := by
  obtain ⟨made, ended, -, up⟩ := pppdProcess_runs_shared
  refine ⟨made, ended, fun own => own "ppp0".toList ?_ (by decide)⟩
  rw [up]
  exact List.mem_singleton.mpr rfl

end VpnMgr.Client
