import Mathlib.Data.List.ReduceOption
import VpnMgr.Machine.Ipv4

/-!
# Routing tables

Of the routes that reach an address the one with the longest prefix is taken,
and of several such routes the newest.
-/

namespace VpnMgr.Machine

open Text

namespace Ipv4Net

instance decidableMem (net : Ipv4Net) (address : Ipv4Address) :
    Decidable (address ∈ net.addresses) :=
  inferInstanceAs (Decidable (address.toNat >>> net.freeBits = net.number >>> net.freeBits))

def IsHost (net : Ipv4Net) (address : Ipv4Address) : Prop :=
  net.freeBits = 0 ∧ address ∈ net.addresses

instance decidableIsHost (net : Ipv4Net) (address : Ipv4Address) : Decidable (net.IsHost address) :=
  inferInstanceAs (Decidable (_ ∧ _))

/-- A single address. -/
def host (address : Ipv4Address) : Ipv4Net :=
  let octet (value : Nat) : Fin 256 := ⟨value % 256, Nat.mod_lt value (by decide)⟩
  { octets := (octet (address.toNat >>> 24), octet (address.toNat >>> 16),
      octet (address.toNat >>> 8), octet address.toNat)
    length := none }

theorem isHost_host (address : Ipv4Address) : (host address).IsHost address := by
  have small : address.toNat < 2 ^ 32 := address.isLt
  refine ⟨rfl, ?_⟩
  show address.toNat >>> 0 = (host address).number >>> 0
  simp only [Nat.shiftRight_zero, number, host]
  omega

theorem not_isHost_everything (address : Ipv4Address) : ¬ everything.IsHost address :=
  fun isHost => absurd isHost.1 (by decide)

/-! ## Networks are told apart by their texts -/

theorem text_injective {first second : Ipv4Net} (same : first.text = second.text) :
    first = second := by
  obtain ⟨⟨a, b, c, d⟩, length⟩ := first
  obtain ⟨⟨a', b', c', d'⟩, length'⟩ := second
  have dot (tail : List Char) : ∀ c ∈ ('.' :: tail).head?, c.isDigit = false := by
    intro c isHead
    obtain rfl := Option.some.inj isHead
    rfl
  have slash (length : Option (Fin 33)) : ∀ c ∈ ((length.map fun length =>
      '/' :: decimal length).getD []).head?, c.isDigit = false := by
    intro c isHead
    cases length with
    | none => cases isHead
    | some length =>
        obtain rfl := Option.some.inj isHead
        rfl
  simp only [text, List.append_assoc, List.cons_append] at same
  obtain ⟨firstOctet, same⟩ := decimal_append_inj (dot _) (dot _) same
  obtain ⟨secondOctet, same⟩ := decimal_append_inj (dot _) (dot _) (List.cons.inj same).2
  obtain ⟨thirdOctet, same⟩ := decimal_append_inj (dot _) (dot _) (List.cons.inj same).2
  obtain ⟨lastOctet, sameEnd⟩ := decimal_append_inj (slash _) (slash _) (List.cons.inj same).2
  obtain rfl := Fin.ext firstOctet
  obtain rfl := Fin.ext secondOctet
  obtain rfl := Fin.ext thirdOctet
  obtain rfl := Fin.ext lastOctet
  have sameLength : length = length' := by
    cases length with
    | none =>
        cases length' with
        | none => rfl
        | some other => cases sameEnd
    | some length =>
        cases length' with
        | none => cases sameEnd
        | some other =>
            have digits : decimal length ++ [] = decimal other ++ [] := by
              simpa using sameEnd
            rw [Fin.ext (decimal_append_inj (by simp) (by simp) digits).1]
  rw [sameLength]

theorem slash_mem_text (net : Ipv4Net) : '/' ∈ net.text ↔ net.length.isSome = true := by
  obtain ⟨octets, length⟩ := net
  have noSlash : ∀ n : Nat, '/' ∉ decimal n := not_mem_decimal rfl
  cases length with
  | none => simp [text, noSlash]
  | some length => simp [text]

end Ipv4Net

structure Route (Hop : Type) where
  net : Ipv4Net
  hop : Hop
  deriving DecidableEq

abbrev RoutingTable (Hop : Type) := List (Route Hop)

namespace RoutingTable

variable {Hop : Type} {address : Ipv4Address} {route own : Route Hop} {table later : RoutingTable Hop}

/-- The route that a packet to the address takes. -/
def taken (address : Ipv4Address) : RoutingTable Hop → Option (Route Hop)
  | [] => none
  | route :: older =>
      match taken address older with
      | none => if address ∈ route.net.addresses then some route else none
      | some other =>
          if address ∈ route.net.addresses ∧ route.net.freeBits ≤ other.net.freeBits then
            some route
          else some other

def hostRoutes (address : Ipv4Address) (table : RoutingTable Hop) : RoutingTable Hop :=
  table.filter fun route => route.net.IsHost address

theorem hostRoutes_append (address : Ipv4Address) (newer older : RoutingTable Hop) :
    hostRoutes address (newer ++ older) = hostRoutes address newer ++ hostRoutes address older :=
  List.filter_append ..

/-- No route has a longer prefix than one to a single address. -/
theorem taken_hostRoute (newest : (hostRoutes address table).head? = some route) :
    taken address table = some route := by
  induction table with
  | nil => cases newest
  | cons first older inductionHypothesis =>
      by_cases isHost : first.net.IsHost address
      · obtain rfl : first = route := by
          have here : hostRoutes address (first :: older) = first :: hostRoutes address older :=
            List.filter_cons_of_pos (by simpa using isHost)
          rw [here] at newest
          exact Option.some.inj newest
        rw [taken]
        split
        · exact if_pos isHost.2
        · exact if_pos ⟨isHost.2, isHost.1.symm ▸ Nat.zero_le _⟩
      · have skipped : hostRoutes address (first :: older) = hostRoutes address older :=
          List.filter_cons_of_neg (by simpa using isHost)
        rw [skipped] at newest
        have single : route.net.IsHost address := by
          have member := List.mem_of_mem_head? newest
          simpa using (List.mem_filter.mp member).2
        rw [taken, inductionHypothesis newest]
        apply if_neg
        rintro ⟨covers, longer⟩
        exact isHost ⟨by rw [single.1] at longer; exact Nat.le_zero.mp longer, covers⟩

example : taken 0x0a010101 [⟨Ipv4Net.everything, "wg0"⟩, ⟨Ipv4Net.host 0x0a010101, "eth0"⟩] =
    some ⟨Ipv4Net.host 0x0a010101, "eth0"⟩ := by decide

/-- One event: a route is added, or something else happens that leaves the
routes to the address alone. -/
def Changes (address : Ipv4Address) (table : RoutingTable Hop) (added : Option (Route Hop))
    (later : RoutingTable Hop) : Prop :=
  match added with
  | some route => later = route :: table
  | none => hostRoutes address later = hostRoutes address table

/-- One event after the other. -/
inductive Evolves (address : Ipv4Address) :
    RoutingTable Hop → List (Option (Route Hop)) → RoutingTable Hop → Prop
  | nil (table : RoutingTable Hop) : Evolves address table [] table
  | cons {table next later : RoutingTable Hop} {added : Option (Route Hop)}
      {rest : List (Option (Route Hop))} (changes : Changes address table added next)
      (evolves : Evolves address next rest later) : Evolves address table (added :: rest) later

variable {front behind : List (Option (Route Hop))}

theorem Evolves.hostRoutes_eq {added : List (Option (Route Hop))}
    (evolves : Evolves address table added later) :
    hostRoutes address later =
      hostRoutes address added.reduceOption.reverse ++ hostRoutes address table := by
  induction evolves with
  | nil table => rfl
  | @cons table next later added rest changes evolves inductionHypothesis =>
      rw [inductionHypothesis]
      cases added with
      | none => rw [show hostRoutes address next = hostRoutes address table from changes]; rfl
      | some route =>
          rw [show next = route :: table from changes, ← List.singleton_append, hostRoutes_append,
            ← List.append_assoc, ← hostRoutes_append, List.reduceOption_cons_of_some,
            List.reverse_cons]

/-- A route to a single address is taken until another one is added. -/
theorem Evolves.taken_iff (evolves : Evolves address table (front ++ some own :: behind) later)
    (isHost : own.net.IsHost address)
    (differs : ∀ route, some route ∈ behind → route.hop ≠ own.hop) :
    (taken address later).map Route.hop = some own.hop ↔
      ∀ route, some route ∈ behind → ¬ route.net.IsHost address := by
  have ownFirst : hostRoutes address [own] = [own] := List.filter_cons_of_pos (by simpa using isHost)
  have split := evolves.hostRoutes_eq
  rw [List.reduceOption_append, List.reduceOption_cons_of_some, List.reverse_append, List.reverse_cons,
    List.append_assoc, hostRoutes_append, List.append_assoc, List.singleton_append,
    ← List.singleton_append, hostRoutes_append, ownFirst] at split
  rcases others : hostRoutes address behind.reduceOption.reverse with _ | ⟨newest, more⟩
  · have takes : taken address later = some own := taken_hostRoute (by rw [split, others]; rfl)
    rw [takes]
    refine iff_of_true rfl fun route member isHostToo => ?_
    have listed : route ∈ hostRoutes address behind.reduceOption.reverse :=
      List.mem_filter.mpr ⟨by simpa [List.reduceOption_mem_iff] using member, by simpa using isHostToo⟩
    rw [others] at listed
    cases listed
  · have takes : taken address later = some newest := taken_hostRoute (by rw [split, others]; rfl)
    have listed : newest ∈ hostRoutes address behind.reduceOption.reverse := by
      rw [others]
      exact List.mem_cons_self
    obtain ⟨inBehind, newestHost⟩ := List.mem_filter.mp listed
    have member : some newest ∈ behind := by
      simpa [List.reduceOption_mem_iff] using inBehind
    rw [takes]
    refine iff_of_false (fun same => differs newest member (Option.some.inj same)) fun none => ?_
    exact none newest member (by simpa using newestHost)

end RoutingTable

end VpnMgr.Machine
