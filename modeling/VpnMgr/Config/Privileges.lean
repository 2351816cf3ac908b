import VpnMgr.Config.Write

/-!
# The privilege settings of a configuration

`LocalSU` and `RemoteSU` each stand for two bits.  The word written for a pair
of bits sets the pair again when it is read; both bits together have no word.
-/

namespace VpnMgr.Config

open Machine Text CString LibUseful

/-- Two different bits, as `chooseMethod` and `methodText` take them. -/
structure MethodPair (su viaSudo : FlagWord) : Prop where
  suBit : FlagWord.IsBit su
  sudoBit : FlagWord.IsBit viaSudo
  suOnly : su.has su = true ∧ su.has viaSudo = false
  sudoOnly : viaSudo.has su = false ∧ viaSudo.has viaSudo = true
  contains : su &&& ~~~(su ||| viaSudo) = 0 ∧ viaSudo &&& ~~~(su ||| viaSudo) = 0

theorem localMethodPair : MethodPair flagLocalSu flagLocalSudo :=
  ⟨⟨1, by decide⟩, ⟨2, by decide⟩, by decide, by decide, by decide⟩

theorem remoteMethodPair : MethodPair flagRemoteSu flagRemoteSudo :=
  ⟨⟨3, by decide⟩, ⟨4, by decide⟩, by decide, by decide, by decide⟩

def methodBits (su viaSudo flags : FlagWord) : Bool × Bool := (flags.has su, flags.has viaSudo)

variable {su viaSudo : FlagWord}

theorem MethodPair.masked (pair : MethodPair su viaSudo) (flags : FlagWord) :
    flags &&& (su ||| viaSudo) =
      (if flags.has su then su else 0) ||| (if flags.has viaSudo then viaSudo else 0) := by
  rw [BitVec.and_or_distrib_left, FlagWord.and_bit flags pair.suBit,
    FlagWord.and_bit flags pair.sudoBit]

/-- The word for each pair of bits. -/
theorem MethodPair.methodText_eq (pair : MethodPair su viaSudo) (flags : FlagWord) :
    methodText su viaSudo flags =
      match methodBits su viaSudo flags with
      | (false, false) => some "none".toList
      | (true, false) => some "su".toList
      | (false, true) => some "sudo".toList
      | (true, true) => none := by
  obtain ⟨suSu, suSudo⟩ := pair.suOnly
  obtain ⟨sudoSu, sudoSudo⟩ := pair.sudoOnly
  have suNonzero : su ≠ 0#32 := FlagWord.ne_of_has su (by simp [suSu])
  have sudoNonzero : viaSudo ≠ 0#32 := FlagWord.ne_of_has viaSudo (by simp [sudoSudo])
  have different : viaSudo ≠ su := FlagWord.ne_of_has su (by simp [suSu, sudoSu])
  have bothHas : ∀ mask, (su ||| viaSudo).has mask = (su.has mask || viaSudo.has mask) :=
    fun mask => FlagWord.has_raise su viaSudo mask
  have bothNonzero : su ||| viaSudo ≠ 0#32 :=
    FlagWord.ne_of_has su (by rw [bothHas, suSu]; simp)
  have bothNotSu : su ||| viaSudo ≠ su :=
    FlagWord.ne_of_has viaSudo (by rw [bothHas, suSudo, sudoSudo]; decide)
  have bothNotSudo : su ||| viaSudo ≠ viaSudo :=
    FlagWord.ne_of_has su (by rw [bothHas, suSu, sudoSu]; decide)
  simp only [methodText, pair.masked flags, methodBits]
  cases flags.has su <;> cases flags.has viaSudo <;>
    simp [*]

theorem MethodPair.methodText_eq_none_iff (pair : MethodPair su viaSudo) (flags : FlagWord) :
    methodText su viaSudo flags = none ↔ methodBits su viaSudo flags = (true, true) := by
  rw [pair.methodText_eq]
  rcases methodBits su viaSudo flags with ⟨_ | _, _ | _⟩ <;> simp

/-- Reading a word sets the bits that it was written for. -/
theorem MethodPair.chooseMethod_methodText (pair : MethodPair su viaSudo)
    {written : FlagWord} {word : CString} (text : methodText su viaSudo written = some word)
    (flags : FlagWord) :
    methodBits su viaSudo (chooseMethod su viaSudo word flags) =
      methodBits su viaSudo written := by
  obtain ⟨suSu, suSudo⟩ := pair.suOnly
  obtain ⟨sudoSu, sudoSudo⟩ := pair.sudoOnly
  have bothHas : ∀ mask, (su ||| viaSudo).has mask = (su.has mask || viaSudo.has mask) :=
    fun mask => FlagWord.has_raise su viaSudo mask
  have noSu : ∀ word : FlagWord, (word.drop (su ||| viaSudo)).has su = false := fun word => by
    rw [FlagWord.has_drop word (Or.inl pair.contains.1), bothHas, suSu]
    simp
  have noSudo : ∀ word : FlagWord, (word.drop (su ||| viaSudo)).has viaSudo = false :=
    fun word => by
      rw [FlagWord.has_drop word (Or.inl pair.contains.2), bothHas, sudoSudo]
      simp
  rw [pair.methodText_eq] at text
  rcases bits : methodBits su viaSudo written with ⟨_ | _, _ | _⟩ <;> rw [bits] at text
  · obtain rfl : "none".toList = word := by simpa using text
    simp [chooseMethod, methodBits, noSu, noSudo]
  · obtain rfl : "sudo".toList = word := by simpa using text
    simp [chooseMethod, methodBits, noSu, noSudo, sudoSu, sudoSudo]
  · obtain rfl : "su".toList = word := by simpa using text
    simp [chooseMethod, methodBits, noSu, noSudo, suSu, suSudo]
  · exact absurd text (by simp)

/-- A choice of a method sets both bits of its pair. -/
theorem MethodPair.chooseMethod_has (pair : MethodPair su viaSudo)
    (value : CString) (flags : FlagWord) :
    (chooseMethod su viaSudo value flags).has su = decide (value = "su".toList) ∧
      (chooseMethod su viaSudo value flags).has viaSudo = decide (value = "sudo".toList) := by
  have cleared : ∀ flags : FlagWord, (flags.drop (su ||| viaSudo)).has su = false ∧
      (flags.drop (su ||| viaSudo)).has viaSudo = false := fun flags => by
    rw [FlagWord.has_drop_bit _ _ pair.suBit, FlagWord.has_drop_bit _ _ pair.sudoBit,
      show su ||| viaSudo = su.raise viaSudo from rfl, FlagWord.has_raise, FlagWord.has_raise,
      pair.suOnly.1, pair.sudoOnly.2]
    simp
  unfold chooseMethod
  simp only
  split
  next none =>
    rw [(cleared _).1, (cleared _).2, none]
    decide
  split
  next su =>
    rw [FlagWord.has_raise, FlagWord.has_raise, (cleared _).1, (cleared _).2, pair.suOnly.1,
      pair.suOnly.2, su]
    decide
  split
  next notSu viaSudo =>
    rw [FlagWord.has_raise, FlagWord.has_raise, (cleared _).1, (cleared _).2, pair.sudoOnly.1,
      pair.sudoOnly.2, viaSudo]
    decide
  next notSu notSudo =>
    rw [(cleared _).1, (cleared _).2]
    exact ⟨(decide_eq_false notSu).symm, (decide_eq_false notSudo).symm⟩

theorem chooseMethod_has_of_apart {mask : FlagWord} (word : CString) (flags : FlagWord)
    (suApart : su.has mask = false) (sudoApart : viaSudo.has mask = false) :
    (chooseMethod su viaSudo word flags).has mask = flags.has mask := by
  have apart : (su ||| viaSudo).has mask = false := by
    rw [show su ||| viaSudo = su.raise viaSudo from rfl, FlagWord.has_raise, suApart, sudoApart]
    rfl
  have dropped : ∀ word : FlagWord, (word.drop (su ||| viaSudo)).has mask = word.has mask :=
    fun word => FlagWord.has_drop_of_disjoint word apart
  unfold chooseMethod
  simp only
  split_ifs <;> simp [dropped, suApart, sudoApart]

end VpnMgr.Config
