import VpnMgr.Machine.Process

/-!
# Interleaved processes

The calls of several processes on one machine, in the order they are made.
Each process has only its own calls for a history.
-/

namespace VpnMgr.Machine

variable {Party Call : Type} [DecidableEq Party] {Answer : Call → Type}

abbrev Trace (Party : Type) (Answer : Call → Type) := List (Party × Sigma Answer)

namespace Trace

variable {calls : Trace Party Answer} {party other : Party} {entry later : Sigma Answer} {m n : Nat}

def of (party : Party) (calls : Trace Party Answer) : History Answer :=
  (calls.filter fun step => step.1 = party).map Prod.snd

theorem of_take_succ (made : calls[n]? = some (party, entry)) :
    of party (calls.take (n + 1)) = of party (calls.take n) ++ [entry] := by
  rw [List.take_add_one, made, of, of, List.filter_append, List.map_append]
  simp

/-- What an earlier answer says of a later one, whoever is told. -/
def Ordered (relation : Sigma Answer → Sigma Answer → Prop) (calls : Trace Party Answer) : Prop :=
  calls.Pairwise fun step next => relation step.2 next.2

variable {relation : Sigma Answer → Sigma Answer → Prop}

omit [DecidableEq Party] in
theorem Ordered.apart (ordered : Ordered relation calls) (first : calls[m]? = some (party, entry))
    (second : calls[n]? = some (other, later)) (earlier : m < n) : relation entry later := by
  obtain ⟨inFirst, isFirst⟩ := List.getElem?_eq_some_iff.mp first
  obtain ⟨inSecond, isSecond⟩ := List.getElem?_eq_some_iff.mp second
  have apart := List.pairwise_iff_getElem.mp ordered m n inFirst inSecond earlier
  rwa [isFirst, isSecond] at apart

theorem Ordered.of (ordered : Ordered relation calls) (party : Party) (n : Nat) :
    (Trace.of party (calls.take n)).Pairwise relation := by
  have own := (List.Pairwise.sublist (List.take_sublist n calls) ordered).filter
    fun step => step.1 = party
  exact List.pairwise_map.mpr own

end Trace

end VpnMgr.Machine
