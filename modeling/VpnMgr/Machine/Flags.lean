import Mathlib.Tactic.Common

/-!
# Flag words

A machine word used as a set of flags: testing `word & mask`, raising with
`|=` and dropping with `&= ~mask`.
-/

namespace VpnMgr.Machine

abbrev FlagWord := BitVec 32

namespace FlagWord

/-- `word & mask`, read as a truth value. -/
def has (word mask : FlagWord) : Bool := word &&& mask != 0

/-- `word |= mask`. -/
def raise (word mask : FlagWord) : FlagWord := word ||| mask

/-- `word &= ~mask`. -/
def drop (word mask : FlagWord) : FlagWord := word &&& ~~~mask

@[simp]
theorem zero_or (word : FlagWord) : (0 : FlagWord) ||| word = word := BitVec.zero_or

theorem has_iff (word mask : FlagWord) :
    word.has mask = true ↔ ∃ i : Nat, word.getLsbD i = true ∧ mask.getLsbD i = true := by
  simp only [has, bne_iff_ne, ne_eq]
  constructor
  · intro nonzero
    by_contra noBit
    push Not at noBit
    refine nonzero (BitVec.eq_of_getLsbD_eq fun i _ => ?_)
    have bit := noBit i
    cases value : word.getLsbD i <;> simp_all
  · rintro ⟨i, inWord, inMask⟩ zero
    have bit := congrArg (fun w => BitVec.getLsbD w i) zero
    simp [inWord, inMask] at bit

@[simp]
theorem has_raise (word raised mask : FlagWord) :
    (word.raise raised).has mask = (word.has mask || raised.has mask) := by
  rw [Bool.eq_iff_iff]
  simp only [Bool.or_eq_true, has_iff, raise, BitVec.getLsbD_or]
  constructor
  · rintro ⟨i, inWord | inRaised, inMask⟩
    · exact Or.inl ⟨i, inWord, inMask⟩
    · exact Or.inr ⟨i, inRaised, inMask⟩
  · rintro (⟨i, inWord, inMask⟩ | ⟨i, inRaised, inMask⟩)
    · exact ⟨i, Or.inl inWord, inMask⟩
    · exact ⟨i, Or.inr inRaised, inMask⟩

theorem has_or_mask (word first second : FlagWord) :
    word.has (first ||| second) = (word.has first || word.has second) := by
  rw [Bool.eq_iff_iff]
  simp only [Bool.or_eq_true, has_iff, BitVec.getLsbD_or]
  constructor
  · rintro ⟨i, inWord, inFirst | inSecond⟩
    · exact Or.inl ⟨i, inWord, inFirst⟩
    · exact Or.inr ⟨i, inWord, inSecond⟩
  · rintro (⟨i, inWord, inFirst⟩ | ⟨i, inWord, inSecond⟩)
    · exact ⟨i, inWord, Or.inl inFirst⟩
    · exact ⟨i, inWord, Or.inr inSecond⟩

@[simp]
theorem has_drop_self (word mask : FlagWord) : (word.drop mask).has mask = false := by
  rw [Bool.eq_false_iff]
  intro present
  obtain ⟨i, inWord, inMask⟩ := (has_iff _ _).mp present
  simp only [drop, BitVec.getLsbD_and, BitVec.getLsbD_not, inMask] at inWord
  simp at inWord

theorem has_drop_of_disjoint {dropped mask : FlagWord} (word : FlagWord)
    (disjoint : dropped.has mask = false) : (word.drop dropped).has mask = word.has mask := by
  rw [Bool.eq_iff_iff, has_iff, has_iff]
  constructor
  · rintro ⟨i, inWord, inMask⟩
    simp only [drop, BitVec.getLsbD_and, Bool.and_eq_true] at inWord
    exact ⟨i, inWord.1, inMask⟩
  · rintro ⟨i, inWord, inMask⟩
    have bounded := BitVec.lt_of_getLsbD inMask
    have notDropped : dropped.getLsbD i = false := by
      by_contra present
      exact Bool.eq_false_iff.mp disjoint
        ((has_iff _ _).mpr ⟨i, by simpa using present, inMask⟩)
    refine ⟨i, ?_, inMask⟩
    simp only [drop, BitVec.getLsbD_and, BitVec.getLsbD_not, inWord, notDropped, bounded]
    decide

theorem drop_of_not_has {word mask : FlagWord} (absent : word.has mask = false) :
    word.drop mask = word := by
  have nothing : word &&& mask = 0 := by simpa [has] using absent
  have split : word = (word &&& mask) ||| (word &&& ~~~mask) := by
    rw [← BitVec.and_or_distrib_left, BitVec.or_not_self, BitVec.and_allOnes]
  rw [nothing, zero_or] at split
  exact split.symm

theorem has_drop {dropped mask : FlagWord} (word : FlagWord)
    (atomic : mask &&& ~~~dropped = 0 ∨ dropped.has mask = false) :
    (word.drop dropped).has mask = (word.has mask && !dropped.has mask) := by
  rcases atomic with contained | disjoint
  · have left : (word.drop dropped).has mask = false := by
      have zero : word &&& ~~~dropped &&& mask = 0 := by
        rw [BitVec.and_assoc, BitVec.and_comm _ mask, contained]
        exact BitVec.and_zero
      simp [has, drop, zero]
    cases present : dropped.has mask with
    | true => simp [left]
    | false => rw [has_drop_of_disjoint word present]; simp
  · simp [has_drop_of_disjoint word disjoint, disjoint]

@[simp]
theorem drop_zero (word : FlagWord) : word.drop 0 = word := by
  show word &&& ~~~0#32 = word
  rw [BitVec.not_zero, BitVec.and_allOnes]

theorem ne_of_has {first second : FlagWord} (mask : FlagWord)
    (differ : first.has mask ≠ second.has mask) :
    first ≠ second := by
  rintro rfl
  exact differ rfl

@[simp]
theorem has_zero_left (mask : FlagWord) : FlagWord.has 0#32 mask = false := by
  simp [has]

def IsBit (mask : FlagWord) : Prop := ∃ i : Fin 32, mask = BitVec.twoPow 32 i

theorem and_bit {mask : FlagWord} (word : FlagWord) (bit : IsBit mask) :
    word &&& mask = if word.has mask then mask else 0 := by
  obtain ⟨i, rfl⟩ := bit
  rw [has, BitVec.and_twoPow]
  cases word.getLsbD i <;> simp

theorem has_twoPow (word : FlagWord) (i : Fin 32) :
    word.has (BitVec.twoPow 32 i) = word.getLsbD i := by
  rw [Bool.eq_iff_iff, has_iff]
  simp only [BitVec.getLsbD_twoPow, i.isLt, decide_true, Bool.true_and, decide_eq_true_eq]
  exact ⟨fun ⟨j, inWord, same⟩ => same ▸ inWord, fun inWord => ⟨i, inWord, rfl⟩⟩

theorem has_drop_bit {mask : FlagWord} (word dropped : FlagWord) (bit : IsBit mask) :
    (word.drop dropped).has mask = (word.has mask && !dropped.has mask) := by
  obtain ⟨i, rfl⟩ := bit
  simp [has_twoPow, drop]

end FlagWord

end VpnMgr.Machine
