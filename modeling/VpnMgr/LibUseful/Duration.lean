import VpnMgr.Text.Decimal

/-!
# Durations

`strtoul` in base ten and `ParseDuration` of `Time.c`, on 64-bit words.
-/

namespace VpnMgr.LibUseful

open VpnMgr.Text CString

/-- `ULONG_MAX`. -/
def ulongMax : Nat := 18446744073709551615

def strtoulMagnitude (digits : CString) : BitVec 64 :=
  BitVec.ofNat 64 (min (Nat.ofDigitChars 10 digits 0) ulongMax)

/-- `strtoul(s, &next, 10)`; without a digit `next` is `s` itself. -/
def strtoul (s : CString) : BitVec 64 × CString :=
  let trimmed := skipSpace s
  let (negative, body) :=
    match trimmed with
    | '-' :: rest => (true, rest)
    | '+' :: rest => (false, rest)
    | rest => (false, rest)
  let digits := body.takeWhile Char.isDigit
  if digits = [] then (0, s)
  else
    let value := strtoulMagnitude digits
    (if negative then -value else value, body.dropWhile Char.isDigit)

/-- The factor of a unit letter; any other character counts seconds. -/
def durationUnit (c : Char) : BitVec 64 :=
  if c = 'm' then 60
  else if c = 'h' then 3600
  else if c = 'd' then 86400
  else if c = 'w' then 86400 * 7
  else if c = 'y' || c = 'Y' then 86400 * 365
  else 1

/-- The loop of `ParseDuration`; a round that does not end it steps over one
character, so a round more than there are characters is enough. -/
def parseDurationLoop : Nat → CString → BitVec 64 → BitVec 64
  | 0, _, result => result
  | fuel + 1, s, result =>
      let (value, next) := strtoul s
      match next with
      | [] => result + value
      | c :: rest => parseDurationLoop fuel (skipSpace rest) (result + value * durationUnit c)

/-- Text that cannot continue a number in front of it: no digit anywhere, and
no unit letter at its start. -/
def endsNumber (tail : CString) : Bool :=
  tail.all (fun c => !c.isDigit) && (tail.head?.map durationUnit).getD 1 == 1

/-- `ParseDuration`. -/
def parseDuration (s : CString) : BitVec 64 := parseDurationLoop (s.length + 1) s 0

theorem not_isDigit_of_isSpace {c : Char} (space : isSpace c = true) : c.isDigit = false := by
  simp only [isSpace, Bool.or_eq_true, decide_eq_true_eq] at space
  rcases space with ((((rfl | rfl) | rfl) | rfl) | rfl) | rfl <;> decide

theorem strtoul_of_no_digit {s : CString} (noDigit : ∀ c ∈ s, c.isDigit = false) :
    strtoul s = (0, s) := by
  have noDigits : ∀ body : CString, (∀ c ∈ body, c ∈ s) → body.takeWhile Char.isDigit = [] := by
    intro body subset
    cases body with
    | nil => rfl
    | cons c rest => simp [noDigit c (subset c (by simp))]
  have trimmed : ∀ c ∈ skipSpace s, c ∈ s := fun c membership =>
    (List.dropWhile_sublist _).subset membership
  simp only [strtoul]
  split <;> simp_all

theorem parseDurationLoop_of_no_digit (fuel : Nat) (s : CString) (result : BitVec 64)
    (noDigit : ∀ c ∈ s, c.isDigit = false) : parseDurationLoop fuel s result = result := by
  induction fuel generalizing s with
  | zero => rfl
  | succ fuel inductionHypothesis =>
      simp only [parseDurationLoop, strtoul_of_no_digit noDigit]
      cases s with
      | nil => simp
      | cons c rest =>
          have restNoDigit : ∀ d ∈ skipSpace rest, d.isDigit = false := fun d membership =>
            noDigit d (List.mem_cons_of_mem _ ((List.dropWhile_sublist _).subset membership))
          simpa using inductionHypothesis (skipSpace rest) restNoDigit

theorem strtoul_decimal_append {n : Nat} (bound : n ≤ ulongMax) (tail : CString)
    (noDigit : ∀ c ∈ tail, c.isDigit = false) :
    strtoul (decimal n ++ tail) = (BitVec.ofNat 64 n, tail) := by
  have digits : ∀ c ∈ decimal n, c.isDigit = true := fun c => isDigit_of_mem_decimal
  have tailTake : tail.takeWhile Char.isDigit = [] := by
    cases tail with
    | nil => rfl
    | cons c rest => simp [noDigit c (by simp)]
  have tailDrop : tail.dropWhile Char.isDigit = tail := by
    cases tail with
    | nil => rfl
    | cons c rest => simp [noDigit c (by simp)]
  obtain ⟨first, more, shape⟩ := List.exists_cons_of_ne_nil (decimal_ne_nil n)
  have firstDigit : first.isDigit = true := digits first (by simp [shape])
  have notSpace : isSpace first = false := by
    by_contra space
    simp [not_isDigit_of_isSpace (by simpa using space)] at firstDigit
  have trimmed : skipSpace (decimal n ++ tail) = decimal n ++ tail := by
    simp [skipSpace, shape, notSpace]
  have notSign : first ≠ '-' ∧ first ≠ '+' := by
    constructor <;> (rintro rfl; exact absurd firstDigit (by decide))
  have body : (decimal n ++ tail).takeWhile Char.isDigit = decimal n := by
    rw [List.takeWhile_append_of_pos digits, tailTake, List.append_nil]
  have remaining : (decimal n ++ tail).dropWhile Char.isDigit = tail := by
    rw [List.dropWhile_append_of_pos digits, tailDrop]
  have magnitude : strtoulMagnitude (decimal n) = BitVec.ofNat 64 n := by
    rw [strtoulMagnitude, ofDigitChars_decimal, Nat.min_eq_left bound]
  have unsigned :
      (match decimal n ++ tail with
        | '-' :: rest => (true, rest)
        | '+' :: rest => (false, rest)
        | rest => (false, rest)) = (false, decimal n ++ tail) := by
    rw [shape, List.cons_append]
    split <;> simp_all
  simp only [strtoul, trimmed, unsigned, body, remaining, magnitude, decimal_ne_nil]
  simp

theorem parseDuration_decimal_append {n : Nat} (bound : n ≤ ulongMax) {tail : CString}
    (ends : endsNumber tail = true) :
    parseDuration (decimal n ++ tail) = BitVec.ofNat 64 n := by
  simp only [endsNumber, Bool.and_eq_true, List.all_eq_true, Bool.not_eq_true', beq_iff_eq]
    at ends
  obtain ⟨noDigit, unitless⟩ := ends
  simp only [parseDuration, parseDurationLoop, strtoul_decimal_append bound tail noDigit]
  cases tail with
  | nil => simp
  | cons c rest =>
      have restNoDigit : ∀ d ∈ skipSpace rest, d.isDigit = false := fun d membership =>
        noDigit d (List.mem_cons_of_mem _ ((List.dropWhile_sublist _).subset membership))
      have unit : durationUnit c = 1 := by simpa using unitless
      simp [parseDurationLoop_of_no_digit _ _ _ restNoDigit, unit]

end VpnMgr.LibUseful
