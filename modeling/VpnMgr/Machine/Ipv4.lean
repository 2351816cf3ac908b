import Mathlib.Data.Set.Lattice
import Mathlib.Tactic.Common
import VpnMgr.Text.Decimal

/-!
# IPv4 networks

Networks in dotted notation, and the addresses they stand for.
-/

namespace VpnMgr.Machine

open Text

abbrev Ipv4Address := BitVec 32

instance octetNeZero : @NeZero Nat Zero.ofOfNat0 256 := ⟨Nat.succ_ne_zero 255⟩

/-- A network in CIDR notation; without a length it is a single host. -/
structure Ipv4Net where
  octets : Fin 256 × Fin 256 × Fin 256 × Fin 256
  length : Option (Fin 33)
  deriving DecidableEq

namespace Ipv4Net

def number (net : Ipv4Net) : Nat :=
  ((net.octets.1 * 256 + net.octets.2.1) * 256 + net.octets.2.2.1) * 256 + net.octets.2.2.2

/-- How many bits of an address the network leaves free. -/
def freeBits (net : Ipv4Net) : Nat := 32 - (net.length.map Fin.val).getD 32

/-- The addresses that agree with the network in all bits but the free ones. -/
def addresses (net : Ipv4Net) : Set Ipv4Address :=
  {address | address.toNat >>> net.freeBits = net.number >>> net.freeBits}

def text (net : Ipv4Net) : List Char :=
  let octet (value : Fin 256) := decimal value
  octet net.octets.1 ++ '.' :: octet net.octets.2.1 ++ '.' :: octet net.octets.2.2.1 ++
    '.' :: octet net.octets.2.2.2 ++
      (net.length.map fun length => '/' :: decimal length).getD []

/-- `0.0.0.0/0`. -/
def everything : Ipv4Net := { octets := (0, 0, 0, 0), length := some 0 }

theorem mem_text {net : Ipv4Net} {c : Char} (member : c ∈ net.text) :
    c.isDigit = true ∨ c = '.' ∨ c = '/' := by
  have digits : ∀ n : Nat, c ∈ decimal n → c.isDigit = true := fun _ => isDigit_of_mem_decimal
  rcases net with ⟨octets, length⟩
  simp only [text, List.mem_append, List.mem_cons] at member
  rcases member with (((inside | rfl | inside) | rfl | inside) | rfl | inside) | inside
  · exact .inl (digits _ inside)
  · exact .inr (.inl rfl)
  · exact .inl (digits _ inside)
  · exact .inr (.inl rfl)
  · exact .inl (digits _ inside)
  · exact .inr (.inl rfl)
  · exact .inl (digits _ inside)
  · cases length with
    | none => exact absurd inside List.not_mem_nil
    | some bits =>
        rcases List.mem_cons.mp inside with rfl | last
        · exact .inr (.inr rfl)
        · exact .inl (digits _ last)

theorem dot_mem_text (net : Ipv4Net) : '.' ∈ net.text := by
  simp [text]

end Ipv4Net

end VpnMgr.Machine
