import VpnMgr.Ctx
import VpnMgr.LibUseful.Stream
import VpnMgr.LibUseful.Tokenizer
import VpnMgr.Text.Decimal

/-!
# Network devices

The device list of `net.c` and the searches over it.
-/

namespace VpnMgr

open Text CString LibUseful

/-- What the host shows of its interfaces: `/proc/net/dev`, if it opens, and
`GetInterfaceIP`. -/
structure NetTable where
  procNetDev : Option CString
  interfaceIP : CString → CString

structure Device where
  name : CString
  ip : CString
  deriving DecidableEq

/-- `NetLoadDevices`; the two header lines are listed too. -/
def netLoadDevices (table : NetTable) : List Device :=
  match table.procNetDev with
  | none => []
  | some text =>
      (streamReadLines text).map fun line =>
        let trimmed := stripTrailingWhitespace (stripLeadingWhitespace line)
        let name := (getToken (some trimmed) ":".toList noFlags).text
        { name, ip := table.interfaceIP name }

/-- `NetDevExists`. -/
def netDevExists (table : NetTable) (name : CString) : Bool :=
  (netLoadDevices table).any fun dev => equalStrNoCase (some dev.name) (some name)

/-- `FormatStr("%s%d", Prefix, i)`. -/
def numbered (stem : CString) (n : Nat) : CString := stem ++ decimal n

/-- `NetDevFindNext`; empty when all 999 names are taken. -/
def netDevFindNext (table : NetTable) (stem : CString) : CString :=
  match (List.range 999).find? fun i => !netDevExists table (numbered stem i) with
  | some i => numbered stem i
  | none => []

/-- `NetDevFindForIP`. -/
def netDevFindForIP (table : NetTable) (stem ip : CString) : CString :=
  match (netLoadDevices table).find? fun dev => hasPrefix stem dev.name && dev.ip = ip with
  | some dev => dev.name
  | none => []

/-- `DevsIPExists`. -/
def devsIPExists (devs : List Device) (ip : CString) : Bool := devs.any fun dev => dev.ip = ip

/-- `FormatStr("%s.%d", Prefix, count)`. -/
def hostAddress (stem : CString) (count : Nat) : CString := numbered (stem ++ ".".toList) count

/-- `NetDevFindNextIP`; empty when all of 2 to 254 are taken. -/
def netDevFindNextIP (table : NetTable) (stem : CString) : CString :=
  let devs := netLoadDevices table
  match (List.range' 2 253).find? fun count => !devsIPExists devs (hostAddress stem count) with
  | some count => hostAddress stem count
  | none => []

theorem numbered_injective {stem : CString} {m n : Nat} (same : numbered stem m = numbered stem n) :
    m = n := decimal_injective (List.append_cancel_left same)

theorem hostAddress_ne_nil (stem : CString) (count : Nat) : hostAddress stem count ≠ [] := by
  simp [hostAddress, numbered]

/-- The address found is the lowest that no interface has. -/
theorem netDevFindNextIP_spec (table : NetTable) (stem : CString) :
    (netDevFindNextIP table stem = [] ∧ ∀ count, 2 ≤ count → count < 255 →
      devsIPExists (netLoadDevices table) (hostAddress stem count) = true) ∨
    ∃ count, 2 ≤ count ∧ count < 255 ∧
      netDevFindNextIP table stem = hostAddress stem count ∧
      devsIPExists (netLoadDevices table) (hostAddress stem count) = false ∧
      ∀ lower, 2 ≤ lower → lower < count →
        devsIPExists (netLoadDevices table) (hostAddress stem lower) = true := by
  unfold netDevFindNextIP
  dsimp only
  split
  next count found =>
    simp only [List.find?_range'_eq_some, List.mem_range'_1, Bool.not_eq_eq_eq_not, Bool.not_true,
      Bool.not_false] at found
    obtain ⟨free, ⟨least, most⟩, taken⟩ := found
    exact .inr ⟨count, least, by omega, rfl, free, taken⟩
  next none =>
    refine .inl ⟨rfl, fun count least most => ?_⟩
    have taken := List.find?_eq_none.mp none count (List.mem_range'_1.mpr ⟨least, by omega⟩)
    simpa using taken

end VpnMgr
