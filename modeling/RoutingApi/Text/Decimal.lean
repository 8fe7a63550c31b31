import Mathlib.Tactic

/-! Integers in decimal notation, as they are printed and as they are read. -/
namespace RoutingApi.Text

/-- `strconv.FormatInt(x, 10)`. -/
def decimal : ℤ → List Char
  | .ofNat n => Nat.toDigits 10 n
  | .negSucc n => '-' :: Nat.toDigits 10 (n + 1)

/-- The number that digits stand for; there is at least one. -/
def parseDigits (s : List Char) : Option ℕ :=
  if s ≠ [] ∧ s.all Char.isDigit then some (Nat.ofDigitChars 10 s 0) else none

/-- Digits behind a sign or none. -/
def parseSigned : List Char → Option ℤ
  | '-' :: digits => (parseDigits digits).map fun n => -Int.ofNat n
  | '+' :: digits => (parseDigits digits).map Int.ofNat
  | digits => (parseDigits digits).map Int.ofNat

/-- `strconv.ParseInt(s, 10, bits)`: no more than fits. -/
def parseInt (bits : ℕ) (s : List Char) : Option ℤ :=
  match parseSigned s with
  | some x => if -2 ^ (bits - 1) ≤ x ∧ x < 2 ^ (bits - 1) then some x else none
  | none => none

/-- `strconv.ParseUint(s, 10, bits)`: a sign is not a digit. -/
def parseUnsigned (bits : ℕ) (s : List Char) : Option ℕ :=
  match parseDigits s with
  | some n => if n < 2 ^ bits then some n else none
  | none => none

/-- A sign or a digit. -/
theorem of_mem_decimal {x : ℤ} {c : Char} (h : c ∈ decimal x) : c = '-' ∨ c.isDigit = true := by
  cases x with
  | ofNat n => exact .inr (Nat.isDigit_of_mem_toDigits (by decide) (by decide) h)
  | negSucc n =>
    rcases List.mem_cons.mp h with rfl | h
    · exact .inl rfl
    · exact .inr (Nat.isDigit_of_mem_toDigits (by decide) (by decide) h)

theorem parseDigits_toDigits (n : ℕ) : parseDigits (Nat.toDigits 10 n) = some n := by
  have hdigits : (Nat.toDigits 10 n).all Char.isDigit = true :=
    List.all_eq_true.mpr fun c hc => Nat.isDigit_of_mem_toDigits (by decide) (by decide) hc
  rw [parseDigits, if_pos ⟨Nat.toDigits_ne_nil, hdigits⟩,
    Nat.ofDigitChars_toDigits (by decide) (by decide)]

/-- No zero stands before the digits of a number. -/
theorem head_toDigits_ne {n : ℕ} (h : 0 < n) : (Nat.toDigits 10 n).head? ≠ some '0' := by
  induction n using Nat.strongRecOn with
  | ind n ih =>
    by_cases hlt : n < 10
    · rw [Nat.toDigits_of_lt_base hlt]
      interval_cases n <;> decide
    · have hle : 10 ≤ n := Nat.le_of_not_lt hlt
      rw [Nat.toDigits_of_base_le (by decide) hle,
        List.head?_append_of_ne_nil _ Nat.toDigits_ne_nil]
      exact ih (n / 10) (by omega) (by omega)

/-- A text of digits does not begin with a sign. -/
theorem parseSigned_of_digits {s : List Char} {n : ℕ} (h : parseDigits s = some n) :
    parseSigned s = some (n : ℤ) := by
  have hsign (c : Char) (rest : List Char) (hc : c.isDigit = false) : s ≠ c :: rest := by
    rintro rfl
    simp [parseDigits, hc] at h
  unfold parseSigned
  split
  next rest => exact absurd rfl (hsign '-' rest (by decide))
  next rest => exact absurd rfl (hsign '+' rest (by decide))
  next =>
    rw [h]
    rfl

theorem parseSigned_decimal (x : ℤ) : parseSigned (decimal x) = some x := by
  cases x with
  | ofNat n => exact parseSigned_of_digits (parseDigits_toDigits n)
  | negSucc n =>
    rw [decimal, parseSigned, parseDigits_toDigits]
    rfl

/-- What is printed is read back, if it fits. -/
theorem parseInt_decimal (bits : ℕ) {x : ℤ}
    (h : -2 ^ (bits - 1) ≤ x ∧ x < 2 ^ (bits - 1)) : parseInt bits (decimal x) = some x := by
  rw [parseInt, parseSigned_decimal]
  exact if_pos h

theorem parseUnsigned_toDigits {bits n : ℕ} (h : n < 2 ^ bits) :
    parseUnsigned bits (Nat.toDigits 10 n) = some n := by
  rw [parseUnsigned, parseDigits_toDigits]
  exact if_pos h

end RoutingApi.Text
