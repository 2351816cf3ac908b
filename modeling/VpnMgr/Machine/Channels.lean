import Mathlib.Tactic.Common

/-!
# Coupled channels

Channels that a program opens, links in pairs and relays between.  A handle
stands for one channel for good, so the use of a handle after its channel was
closed shows, as a fault.
-/

namespace VpnMgr.Machine

universe u

abbrev Handle := Nat

/-- A channel, with everything read from it and written to it so far. -/
structure Channel (Byte : Type u) where
  isOpen : Bool := true
  peer : Option Handle := none
  received : List Byte := []
  sent : List Byte := []
  deriving DecidableEq

structure Channels (Byte : Type u) where
  entries : List (Channel Byte) := []
  fault : Bool := false
  deriving DecidableEq

namespace Channels

variable {Byte : Type u}

def get (channels : Channels Byte) (handle : Handle) : Option (Channel Byte) :=
  channels.entries[handle]?

def isOpen (channels : Channels Byte) (handle : Handle) : Bool :=
  (channels.get handle).any Channel.isOpen

def fresh (channels : Channels Byte) : Handle := channels.entries.length

def allocate (channels : Channels Byte) : Channels Byte :=
  { channels with entries := channels.entries ++ [{}] }

/-- Change an open channel. -/
def edit (channels : Channels Byte) (handle : Handle) (change : Channel Byte → Channel Byte) :
    Channels Byte :=
  match channels.get handle with
  | some channel =>
      if channel.isOpen then
        { channels with entries := channels.entries.set handle (change channel) }
      else { channels with fault := true }
  | none => { channels with fault := true }

def link (channels : Channels Byte) (handle : Handle) (peer : Option Handle) : Channels Byte :=
  channels.edit handle fun channel => { channel with peer }

def receive (channels : Channels Byte) (handle : Handle) (bytes : List Byte) : Channels Byte :=
  channels.edit handle fun channel => { channel with received := channel.received ++ bytes }

def send (channels : Channels Byte) (handle : Handle) (bytes : List Byte) : Channels Byte :=
  channels.edit handle fun channel => { channel with sent := channel.sent ++ bytes }

def close (channels : Channels Byte) (handle : Handle) : Channels Byte :=
  channels.edit handle fun channel => { channel with isOpen := false }

variable {channels after : Channels Byte} {handle other : Handle} {channel : Channel Byte}
  {change : Channel Byte → Channel Byte}

theorem isOpen_iff : channels.isOpen handle = true ↔
    ∃ channel, channels.get handle = some channel ∧ channel.isOpen = true := by
  simp [isOpen, Option.any_eq_true]

theorem isOpen_of_get (found : channels.get handle = some channel) :
    channels.isOpen handle = channel.isOpen := by
  simp [isOpen, found]

theorem edit_of_open (found : channels.get handle = some channel)
    (opened : channel.isOpen = true) :
    channels.edit handle change =
      { channels with entries := channels.entries.set handle (change channel) } := by
  simp [edit, found, opened]

theorem fault_edit (found : channels.get handle = some channel)
    (opened : channel.isOpen = true) :
    (channels.edit handle change).fault = channels.fault := by
  rw [edit_of_open found opened]

theorem get_edit (found : channels.get handle = some channel) (opened : channel.isOpen = true)
    (other : Handle) :
    (channels.edit handle change).get other =
      if other = handle then some (change channel) else channels.get other := by
  have bound : handle < channels.entries.length := by
    obtain ⟨bound, -⟩ := List.getElem?_eq_some_iff.mp found
    exact bound
  rw [edit_of_open found opened, get, List.getElem?_set]
  by_cases same : other = handle
  · subst same
    simp [bound]
  · simp [same, Ne.symm same, get]

theorem get_fresh (channels : Channels Byte) : channels.get channels.fresh = none := by
  simp [get, fresh]

theorem get_allocate (channels : Channels Byte) (other : Handle) :
    channels.allocate.get other =
      if other = channels.fresh then some {} else channels.get other := by
  by_cases same : other = channels.fresh
  · subst same
    simp [get, allocate, fresh]
  · rw [if_neg same]
    simp only [get, allocate, List.getElem?_append]
    by_cases bound : other < channels.entries.length
    · rw [if_pos bound]
    · have beyond : channels.entries.length < other :=
        Nat.lt_of_le_of_ne (Nat.le_of_not_lt bound) (Ne.symm same)
      rw [if_neg bound, List.getElem?_eq_none (Nat.sub_pos_of_lt beyond),
        List.getElem?_eq_none (Nat.le_of_not_lt bound)]

theorem get_edit_of_none (absent : channels.get other = none) :
    (channels.edit handle change).get other = none := by
  have sameLength : (channels.edit handle change).entries.length = channels.entries.length := by
    unfold edit
    split
    · split
      · exact List.length_set
      · rfl
    · rfl
  rw [get, List.getElem?_eq_none_iff] at absent ⊢
  rwa [sameLength]

theorem receive_nil (found : channels.get handle = some channel)
    (opened : channel.isOpen = true) : channels.receive handle [] = channels := by
  have same : channels.entries.set handle channel = channels.entries := by
    obtain ⟨bound, value⟩ := List.getElem?_eq_some_iff.mp found
    rw [← value, List.set_getElem_self]
  rw [receive, edit_of_open found opened]
  simp [same]

/-! ## Coupling -/

/-- What is read from one channel of a linked pair is written to the other,
nothing else is written anywhere, and no closed channel was used. -/
structure Coupled (channels : Channels Byte) : Prop where
  noFault : channels.fault = false
  pair : ∀ handle channel, channels.get handle = some channel → ∀ peer, channel.peer = some peer →
    ∃ opposite, channels.get peer = some opposite ∧ opposite.peer = some handle ∧
      peer ≠ handle ∧ opposite.isOpen = channel.isOpen ∧ channel.sent = opposite.received
  single : ∀ handle channel, channels.get handle = some channel → channel.peer = none →
    channel.sent = []

theorem coupled_empty : Coupled ({} : Channels Byte) :=
  ⟨rfl, by simp [get], by simp [get]⟩

/-- Changing a channel without a peer, or adding one. -/
theorem Coupled.of_single (coupled : channels.Coupled) (handle : Handle)
    (channel : Channel Byte) (noFault : after.fault = false)
    (unlinked : ∀ before, channels.get handle = some before → before.peer = none)
    (found : after.get handle = some channel) (noPeer : channel.peer = none)
    (silent : channel.sent = [])
    (rest : ∀ other, other ≠ handle → after.get other = channels.get other) : after.Coupled := by
  refine ⟨noFault, fun one first present peer linked => ?_, fun one first present alone => ?_⟩
  · have different : one ≠ handle := by
      rintro rfl
      simp_all
    rw [rest one different] at present
    obtain ⟨opposite, found', back, apart, same, written⟩ :=
      coupled.pair one first present peer linked
    have notHandle : peer ≠ handle := by
      rintro rfl
      simp [unlinked opposite found'] at back
    exact ⟨opposite, by rw [rest peer notHandle, found'], back, apart, same, written⟩
  · by_cases same : one = handle
    · subst same
      obtain rfl := Option.some.inj (found.symm.trans present)
      exact silent
    · rw [rest one same] at present
      exact coupled.single one first present alone

/-- Changing a pair, or making one, leaves all other channels coupled. -/
theorem Coupled.of_pair {opposite : Channel Byte} (coupled : channels.Coupled)
    (noFault : after.fault = false) (apart : other ≠ handle)
    (ownPeer : ∀ before, channels.get handle = some before →
      before.peer = none ∨ before.peer = some other)
    (otherPeer : ∀ before, channels.get other = some before →
      before.peer = none ∨ before.peer = some handle)
    (found : after.get handle = some channel) (foundOther : after.get other = some opposite)
    (linked : channel.peer = some other) (linkedBack : opposite.peer = some handle)
    (same : opposite.isOpen = channel.isOpen) (written : channel.sent = opposite.received)
    (writtenBack : opposite.sent = channel.received)
    (rest : ∀ third, third ≠ handle → third ≠ other → after.get third = channels.get third) :
    after.Coupled := by
  refine ⟨noFault, fun one first present peer toPeer => ?_, fun one first present alone => ?_⟩
  · by_cases isHandle : one = handle
    · subst isHandle
      obtain rfl := Option.some.inj (found.symm.trans present)
      obtain rfl := Option.some.inj (linked.symm.trans toPeer)
      exact ⟨opposite, foundOther, linkedBack, apart, same, written⟩
    by_cases isOther : one = other
    · subst isOther
      obtain rfl := Option.some.inj (foundOther.symm.trans present)
      obtain rfl := Option.some.inj (linkedBack.symm.trans toPeer)
      exact ⟨channel, found, linked, apart.symm, same.symm, writtenBack⟩
    rw [rest one isHandle isOther] at present
    obtain ⟨third, foundThird, back, distinct, sameOpen, writtenThird⟩ :=
      coupled.pair one first present peer toPeer
    have notHandle : peer ≠ handle := by
      rintro rfl
      rcases ownPeer third foundThird with alone | linkedTo
      · simp [alone] at back
      · exact isOther (Option.some.inj (back.symm.trans linkedTo))
    have notOther : peer ≠ other := by
      rintro rfl
      rcases otherPeer third foundThird with alone | linkedTo
      · simp [alone] at back
      · exact isHandle (Option.some.inj (back.symm.trans linkedTo))
    exact ⟨third, by rw [rest peer notHandle notOther, foundThird], back, distinct, sameOpen,
      writtenThird⟩
  · by_cases isHandle : one = handle
    · subst isHandle
      obtain rfl := Option.some.inj (found.symm.trans present)
      exact absurd alone (by simp [linked])
    by_cases isOther : one = other
    · subst isOther
      obtain rfl := Option.some.inj (foundOther.symm.trans present)
      exact absurd alone (by simp [linkedBack])
    rw [rest one isHandle isOther] at present
    exact coupled.single one first present alone

theorem Coupled.allocate (coupled : channels.Coupled) : channels.allocate.Coupled := by
  refine coupled.of_single channels.fresh {} coupled.noFault ?_ ?_ rfl rfl ?_
  · simp [get_fresh]
  · simp [get_allocate]
  · intro other different
    simp [get_allocate, different]

theorem Coupled.edit_single (coupled : channels.Coupled)
    (found : channels.get handle = some channel) (opened : channel.isOpen = true)
    (alone : channel.peer = none) (keepsPeer : (change channel).peer = none)
    (keepsSent : (change channel).sent = channel.sent) : (channels.edit handle change).Coupled := by
  refine coupled.of_single handle (change channel) ?_ ?_ ?_ keepsPeer ?_ ?_
  · rw [fault_edit found opened, coupled.noFault]
  · intro before present
    obtain rfl := Option.some.inj (found.symm.trans present)
    exact alone
  · rw [get_edit found opened, if_pos rfl]
  · rw [keepsSent, coupled.single handle channel found alone]
  · intro other different
    rw [get_edit found opened, if_neg different]

theorem get_edit_edit {opposite : Channel Byte} {changeOther : Channel Byte → Channel Byte}
    (found : channels.get handle = some channel) (opened : channel.isOpen = true)
    (foundOther : channels.get other = some opposite) (openedOther : opposite.isOpen = true)
    (apart : other ≠ handle) (third : Handle) :
    ((channels.edit handle change).edit other changeOther).get third =
      if third = other then some (changeOther opposite)
      else if third = handle then some (change channel) else channels.get third := by
  have between : (channels.edit handle change).get other = some opposite := by
    rw [get_edit found opened, if_neg apart, foundOther]
  rw [get_edit between openedOther, get_edit found opened]

theorem fault_edit_edit {opposite : Channel Byte} {changeOther : Channel Byte → Channel Byte}
    (found : channels.get handle = some channel) (opened : channel.isOpen = true)
    (foundOther : channels.get other = some opposite) (openedOther : opposite.isOpen = true)
    (apart : other ≠ handle) :
    ((channels.edit handle change).edit other changeOther).fault = channels.fault := by
  have between : (channels.edit handle change).get other = some opposite := by
    rw [get_edit found opened, if_neg apart, foundOther]
  rw [fault_edit between openedOther, fault_edit found opened]

/-- Edits of both sides that end in a linked and balanced pair. -/
theorem Coupled.edit_pair {opposite : Channel Byte} {changeOther : Channel Byte → Channel Byte}
    (coupled : channels.Coupled) (found : channels.get handle = some channel)
    (opened : channel.isOpen = true) (foundOther : channels.get other = some opposite)
    (openedOther : opposite.isOpen = true) (apart : other ≠ handle)
    (ownPeer : channel.peer = none ∨ channel.peer = some other)
    (otherPeer : opposite.peer = none ∨ opposite.peer = some handle)
    (linked : (change channel).peer = some other)
    (linkedBack : (changeOther opposite).peer = some handle)
    (same : (changeOther opposite).isOpen = (change channel).isOpen)
    (written : (change channel).sent = (changeOther opposite).received)
    (writtenBack : (changeOther opposite).sent = (change channel).received) :
    ((channels.edit handle change).edit other changeOther).Coupled := by
  have shape (third : Handle) := @get_edit_edit _ _ _ _ _ change _ changeOther found opened
    foundOther openedOther apart third
  have noFault := (@fault_edit_edit _ _ _ _ _ change _ changeOther found opened foundOther
    openedOther apart).trans coupled.noFault
  refine coupled.of_pair noFault apart ?_ ?_ ?_ ?_ linked linkedBack same written writtenBack ?_
  · intro before present
    obtain rfl := Option.some.inj (found.symm.trans present)
    exact ownPeer
  · intro before present
    obtain rfl := Option.some.inj (foundOther.symm.trans present)
    exact otherPeer
  · rw [shape, if_neg apart.symm, if_pos rfl]
  · rw [shape, if_pos rfl]
  · intro third notHandle notOther
    rw [shape, if_neg notOther, if_neg notHandle]

/-- No channel disappears or changes its peer, and a closed one is never
touched again. -/
def Extends (channels after : Channels Byte) : Prop :=
  ∀ handle channel, channels.get handle = some channel →
    ∃ later, after.get handle = some later ∧ later.peer = channel.peer ∧
      (channel.isOpen = false → later = channel)

theorem Extends.refl (channels : Channels Byte) : channels.Extends channels :=
  fun _ channel found => ⟨channel, found, rfl, fun _ => rfl⟩

theorem Extends.trans {last : Channels Byte} (first : channels.Extends after)
    (second : after.Extends last) : channels.Extends last := by
  intro handle channel found
  obtain ⟨middle, foundMiddle, samePeer, untouched⟩ := first handle channel found
  obtain ⟨final, foundFinal, samePeer', untouched'⟩ := second handle middle foundMiddle
  refine ⟨final, foundFinal, samePeer'.trans samePeer, fun closed => ?_⟩
  obtain rfl := untouched closed
  exact untouched' closed

theorem Extends.of_get (same : ∀ handle channel, channels.get handle = some channel →
    after.get handle = some channel) : channels.Extends after :=
  fun handle channel found => ⟨channel, same handle channel found, rfl, fun _ => rfl⟩

theorem extends_allocate (channels : Channels Byte) : channels.Extends channels.allocate := by
  refine .of_get fun handle channel found => ?_
  have old : handle ≠ channels.fresh := by
    rintro rfl
    simp [get_fresh] at found
  rw [get_allocate, if_neg old, found]

theorem extends_edit (found : channels.get handle = some channel) (opened : channel.isOpen = true)
    (samePeer : (change channel).peer = channel.peer) :
    channels.Extends (channels.edit handle change) := by
  intro other before present
  rw [get_edit found opened]
  by_cases same : other = handle
  · subst same
    obtain rfl := Option.some.inj (found.symm.trans present)
    exact ⟨change channel, if_pos rfl, samePeer, fun closed => by simp [opened] at closed⟩
  · exact ⟨before, by rw [if_neg same, present], rfl, fun _ => rfl⟩

theorem isOpen_edit (found : channels.get handle = some channel) (opened : channel.isOpen = true)
    (other : Handle) : (channels.edit handle change).isOpen other =
      if other = handle then (change channel).isOpen else channels.isOpen other := by
  rw [isOpen, get_edit found opened]
  by_cases same : other = handle
  · simp [same]
  · simp [same, isOpen]

end Channels

end VpnMgr.Machine
