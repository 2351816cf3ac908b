import VpnMgr.Text.CString

/-!
# Numbers in decimal

What is known of the digits of a number, whatever text they stand in.
-/

namespace VpnMgr.Text

/-- Decimal rendering, as `%d` and `%ld` print a non-negative value. -/
def decimal (n : Nat) : CString := Nat.toDigits 10 n

theorem decimal_ne_nil (n : Nat) : decimal n ≠ [] := Nat.toDigits_ne_nil

theorem isDigit_of_mem_decimal {n : Nat} {c : Char} (member : c ∈ decimal n) : c.isDigit = true :=
  Nat.isDigit_of_mem_toDigits (by decide) (by decide) member

theorem not_mem_decimal {c : Char} (noDigit : c.isDigit = false) (n : Nat) : c ∉ decimal n :=
  fun member => absurd (isDigit_of_mem_decimal member) (by simp [noDigit])

theorem ofDigitChars_decimal (n : Nat) : Nat.ofDigitChars 10 (decimal n) 0 = n :=
  Nat.ofDigitChars_toDigits (by decide) (by decide)

theorem decimal_injective {m n : Nat} (same : decimal m = decimal n) : m = n := by
  rw [← ofDigitChars_decimal m, same, ofDigitChars_decimal n]

theorem takeWhile_decimal_append (n : Nat) {rest : CString}
    (ends : ∀ c ∈ rest.head?, c.isDigit = false) :
    (decimal n ++ rest).takeWhile Char.isDigit = decimal n := by
  rw [List.takeWhile_append_of_pos fun c => isDigit_of_mem_decimal]
  cases rest with
  | nil => exact List.append_nil _
  | cons c rest => rw [List.takeWhile_cons_of_neg (by simp [ends c rfl]), List.append_nil]

theorem decimal_append_inj {m n : Nat} {rest other : CString}
    (restEnds : ∀ c ∈ rest.head?, c.isDigit = false)
    (otherEnds : ∀ c ∈ other.head?, c.isDigit = false)
    (same : decimal m ++ rest = decimal n ++ other) : m = n ∧ rest = other := by
  have digits : decimal m = decimal n := by
    rw [← takeWhile_decimal_append m restEnds, same, takeWhile_decimal_append n otherEnds]
  rw [digits] at same
  exact ⟨decimal_injective digits, List.append_cancel_left same⟩

end VpnMgr.Text
