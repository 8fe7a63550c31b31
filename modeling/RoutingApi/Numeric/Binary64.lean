import Mathlib.Data.Int.Log
import Mathlib.Data.Rat.Floor
import Mathlib.Tactic

/-! Binary64 arithmetic on rationals: an operation is exact and then rounded to 53 significant
bits, half to even. Exponents are not limited, which agrees with the format for every number
between its smallest normal and its largest finite one. -/
namespace RoutingApi.Numeric

/-- The nearest integer, and the even one of two that are equally near. -/
def roundHalfEven (q : ℚ) : ℤ :=
  if q - ⌊q⌋ < 1 / 2 then ⌊q⌋
  else if 1 / 2 < q - ⌊q⌋ then ⌊q⌋ + 1
  else if ⌊q⌋ % 2 = 0 then ⌊q⌋
  else ⌊q⌋ + 1

/-- The exponent of the last of the 53 bits of a number. -/
def lastBit (q : ℚ) : ℤ := Int.log 2 |q| - 52

/-- The float64 that a number is rounded to. -/
def float64 (q : ℚ) : ℚ := roundHalfEven (q / 2 ^ lastBit q) * 2 ^ lastBit q

/-- The conversion of a float64 to an integer type that holds it drops the fraction. -/
def truncate (f : ℚ) : ℤ := if 0 ≤ f then ⌊f⌋ else ⌈f⌉

section Rounding
variable {q : ℚ} {m : ℤ} {k : ℕ}

theorem le_roundHalfEven (h : (m : ℚ) ≤ q) : m ≤ roundHalfEven q := by
  have hfloor : m ≤ ⌊q⌋ := Int.le_floor.mpr h
  unfold roundHalfEven
  split_ifs <;> omega

theorem roundHalfEven_le (h : q ≤ m) : roundHalfEven q ≤ m := by
  have hfloor : ⌊q⌋ ≤ m := Int.floor_le_iff.mpr (h.trans_lt (by norm_num))
  -- rounding up needs a fraction, so the integer above is still within the bound
  have hup : q - ⌊q⌋ ≠ 0 → ⌊q⌋ + 1 ≤ m := by
    intro hfrac
    by_contra hlt
    have heq : m = ⌊q⌋ := by omega
    have hle : (⌊q⌋ : ℚ) ≤ q := Int.floor_le q
    rw [heq] at h
    exact hfrac (sub_eq_zero.mpr (le_antisymm h hle))
  unfold roundHalfEven
  split_ifs with hlow hhigh
  · exact hfloor
  · exact hup (by linarith)
  · exact hfloor
  · exact hup (by linarith)

@[simp] theorem float64_zero : float64 0 = 0 := by simp [float64, roundHalfEven]

theorem float64_nonpos (h : q ≤ 0) : float64 q ≤ 0 := by
  have hunit : (0 : ℚ) < 2 ^ lastBit q := zpow_pos (by norm_num) _
  have hround : roundHalfEven (q / 2 ^ lastBit q) ≤ 0 :=
    roundHalfEven_le (by simpa using div_nonpos_of_nonpos_of_nonneg h hunit.le)
  exact mul_nonpos_of_nonpos_of_nonneg (by exact_mod_cast hround) hunit.le

/-- Below `2 ^ (j + 53)` the last bit counts at most `2 ^ j`. -/
theorem lastBit_le {j : ℤ} (hq : q ≠ 0) (h : |q| < 2 ^ (j + 53)) : lastBit q ≤ j := by
  have hpos : 0 < |q| := abs_pos.mpr hq
  have hlog := (Int.lt_zpow_iff_log_lt (b := 2) (by norm_num) hpos).mp h
  unfold lastBit
  omega

section Grid
variable {j : ℤ} (h : |q| < 2 ^ (j + 53))
include h

/-- A multiple of the last bit is a multiple of any bit below it. -/
theorem grid_refines (hq : q ≠ 0) (m : ℤ) : ∃ n : ℤ, (m : ℚ) * 2 ^ j = n * 2 ^ lastBit q := by
  obtain ⟨d, hd⟩ := Int.le.dest (lastBit_le hq h)
  refine ⟨m * 2 ^ d, ?_⟩
  rw [← hd, zpow_add₀ (by norm_num), zpow_natCast]
  push_cast
  ring

/-- Rounding does not cross a multiple of a bit that the format still has. -/
theorem le_float64 (hm : (m : ℚ) * 2 ^ j ≤ q) : (m : ℚ) * 2 ^ j ≤ float64 q := by
  rcases eq_or_ne q 0 with rfl | hq
  · rwa [float64_zero]
  · have hunit : (0 : ℚ) < 2 ^ lastBit q := zpow_pos (by norm_num) _
    obtain ⟨n, hn⟩ := grid_refines h hq m
    rw [hn] at hm ⊢
    have hround : n ≤ roundHalfEven (q / 2 ^ lastBit q) :=
      le_roundHalfEven ((le_div_iff₀ hunit).mpr hm)
    exact mul_le_mul_of_nonneg_right (by exact_mod_cast hround) hunit.le

theorem float64_le (hm : q ≤ (m : ℚ) * 2 ^ j) : float64 q ≤ (m : ℚ) * 2 ^ j := by
  rcases eq_or_ne q 0 with rfl | hq
  · rwa [float64_zero]
  · have hunit : (0 : ℚ) < 2 ^ lastBit q := zpow_pos (by norm_num) _
    obtain ⟨n, hn⟩ := grid_refines h hq m
    rw [hn] at hm ⊢
    have hround : roundHalfEven (q / 2 ^ lastBit q) ≤ n :=
      roundHalfEven_le ((div_le_iff₀ hunit).mpr hm)
    exact mul_le_mul_of_nonneg_right (by exact_mod_cast hround) hunit.le

end Grid

/-- Integers of up to 53 bits are floats. -/
theorem float64_intCast {n : ℤ} (h : |n| < 2 ^ 53) : float64 n = n := by
  have hsmall : |(n : ℚ)| < 2 ^ ((0 : ℤ) + 53) := by exact_mod_cast h
  apply le_antisymm
  · simpa using float64_le hsmall (m := n) (by simp)
  · simpa using le_float64 hsmall (m := n) (by simp)

end Rounding

section Truncation
variable {f : ℚ} {n : ℤ}

theorem truncate_eq (h : (n : ℚ) ≤ f) (h' : f < n + 1) (hf : 0 ≤ f) : truncate f = n := by
  rw [truncate, if_pos hf]
  exact Int.floor_eq_iff.mpr ⟨h, h'⟩

theorem le_truncate_of_le (h : (n : ℚ) ≤ f) : n ≤ truncate f := by
  unfold truncate
  split
  next => exact Int.le_floor.mpr h
  next => exact_mod_cast h.trans (Int.le_ceil f)

theorem le_truncate (hn : 0 < n) : n ≤ truncate f ↔ (n : ℚ) ≤ f := by
  refine ⟨?_, le_truncate_of_le⟩
  have hpos : (0 : ℚ) < n := by exact_mod_cast hn
  unfold truncate
  split
  next => exact Int.le_floor.mp
  next hneg =>
    have hceil : ⌈f⌉ ≤ 0 := Int.ceil_le.mpr (by exact_mod_cast (not_le.mp hneg).le)
    omega

theorem truncate_nonpos (h : f ≤ 0) : truncate f ≤ 0 := by
  by_contra hpos
  have hle : ((1 : ℤ) : ℚ) ≤ f := (le_truncate one_pos).mp (by omega)
  norm_num at hle
  linarith

end Truncation
end RoutingApi.Numeric
