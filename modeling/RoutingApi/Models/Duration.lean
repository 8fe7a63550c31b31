import RoutingApi.Numeric.Binary64
import RoutingApi.Models.Route

/-! `time.Duration`: nanoseconds in an int64, read as seconds through a float64, and parsed from
a text such as `1h15m30.918s`. -/
namespace RoutingApi.Models
open Numeric

namespace Duration

/-- `Duration.Seconds`: the whole seconds and the rest are added as floats. -/
def seconds (d : Int64) : ℚ :=
  let sec := d.toInt.tdiv second
  let nsec := d.toInt.tmod second
  float64 (float64 sec + float64 (float64 nsec / second))

/-- `int(d.Seconds())`. -/
def wholeSeconds (d : Int64) : ℤ := truncate (seconds d)

/-- The product is exact as long as it fits in an int64. -/
theorem ttlDuration_exact {t : ℤ} (hlow : -9223372036 ≤ t) (h : t ≤ 9223372036) :
    ttlDuration t = t * second := by
  unfold ttlDuration second
  apply Int.bmod_eq_of_le <;> omega

section Seconds
variable {d : Int64} {s n : ℕ}

/-- The fraction of a second, as a float, is not rounded up to the whole. -/
theorem fraction_le (hn : n < 1000000000) :
    0 ≤ float64 ((n : ℚ) / second) ∧ float64 ((n : ℚ) / second) ≤ 1 - 2 ^ (-30 : ℤ) := by
  have hnonneg : (0 : ℚ) ≤ (n : ℚ) / second := by
    unfold second
    positivity
  have hle : (n : ℚ) / second ≤ ((2 ^ 30 - 1 : ℤ) : ℚ) * 2 ^ (-30 : ℤ) := by
    have hcast : (n : ℚ) ≤ 999999999 := by exact_mod_cast Nat.le_pred_of_lt hn
    unfold second
    norm_num
    linarith
  have hsmall : |(n : ℚ) / second| < 2 ^ ((-30 : ℤ) + 53) := by
    rw [abs_of_nonneg hnonneg]
    refine hle.trans_lt ?_
    norm_num
  constructor
  · simpa using le_float64 hsmall (m := 0) (by simpa using hnonneg)
  · have h := float64_le hsmall hle
    refine h.trans (le_of_eq ?_)
    norm_num

/-- A duration of `s` seconds and `n` nanoseconds. -/
theorem seconds_eq (hd : d.toInt = s * second + n) (hn : n < 1000000000) :
    seconds d = float64 (s + float64 ((n : ℚ) / second)) := by
  have hlt : d.toInt < 2 ^ 63 := d.toInt_lt
  unfold second at hd
  have hsec : d.toInt.tdiv second = s := by
    rw [hd, Int.tdiv_eq_ediv_of_nonneg (by omega), second]
    omega
  have hnsec : d.toInt.tmod second = n := by
    rw [hd, Int.tmod_eq_emod_of_nonneg (by omega), second]
    omega
  have hs : float64 ((s : ℤ) : ℚ) = (s : ℤ) := float64_intCast (by
    rw [abs_of_nonneg (by positivity)]
    omega)
  have hn : float64 ((n : ℤ) : ℚ) = (n : ℤ) := float64_intCast (by
    rw [abs_of_nonneg (by positivity)]
    omega)
  simp only [seconds, hsec, hnsec, hs, hn]
  norm_cast

theorem nonneg_split (h : 0 ≤ d.toInt) :
    ∃ s n : ℕ, d.toInt = s * second + n ∧ n < 1000000000 := by
  refine ⟨(d.toInt / second).toNat, (d.toInt % second).toNat, ?_, ?_⟩ <;> unfold second <;> omega

theorem seconds_near (hd : d.toInt = s * second + n) (hn : n < 1000000000) :
    (s : ℚ) ≤ seconds d ∧ seconds d ≤ s + 1 := by
  have hlt : d.toInt < 2 ^ 63 := d.toInt_lt
  have hs : (s : ℚ) ≤ 9223372036 := by
    unfold second at hd
    exact_mod_cast (show s ≤ 9223372036 by omega)
  obtain ⟨hlow, hhigh⟩ := fraction_le hn
  have hpow : (0 : ℚ) < 2 ^ (-30 : ℤ) := by positivity
  have hsmall : |(s : ℚ) + float64 ((n : ℚ) / second)| < 2 ^ ((0 : ℤ) + 53) := by
    rw [abs_of_nonneg (by positivity)]
    norm_num
    linarith
  rw [seconds_eq hd hn]
  constructor
  · simpa using le_float64 hsmall (m := s) (by simpa using hlow)
  · simpa using float64_le hsmall (m := s + 1) (by push_cast; linarith)

/-- Whole seconds are not lost, and at most one is gained by rounding. -/
theorem wholeSeconds_near (hd : d.toInt = s * second + n) (hn : n < 1000000000) :
    s ≤ wholeSeconds d ∧ wholeSeconds d ≤ s + 1 := by
  obtain ⟨hge, hle⟩ := seconds_near hd hn
  have hnonneg : (0 : ℚ) ≤ s := by positivity
  rw [wholeSeconds, truncate, if_pos (hnonneg.trans hge)]
  constructor
  · exact Int.le_floor.mpr (by exact_mod_cast hge)
  · exact_mod_cast Int.floor_le_iff.mpr (by push_cast; linarith)

example : wholeSeconds (Int64.ofInt 16777216999999999) = 16777216 + 1 := by decide +kernel

/-- A fraction that stays below the whole by a bit which floats of this size still have is
dropped. -/
theorem wholeSeconds_eq (k : ℕ) (hd : d.toInt = s * second + n) (hn : n < 1000000000)
    (hs : (s : ℚ) + 1 ≤ 2 ^ (-k + 53 : ℤ)) (hfrac : (n : ℚ) / second ≤ 1 - 2 ^ (-k : ℤ)) :
    wholeSeconds d = s := by
  have hunit : (0 : ℚ) < 2 ^ (-k : ℤ) := zpow_pos (by norm_num) _
  have hscale : (2 : ℚ) ^ k * 2 ^ (-k : ℤ) = 1 := by
    rw [zpow_neg, zpow_natCast]
    exact mul_inv_cancel₀ (by positivity)
  obtain ⟨hlow, -⟩ := fraction_le hn
  have hnonneg : (0 : ℚ) ≤ (n : ℚ) / second := by
    unfold second
    positivity
  have hcast : (0 : ℚ) ≤ s := by positivity
  have hr : float64 ((n : ℚ) / second) ≤ ((2 ^ k - 1 : ℤ) : ℚ) * 2 ^ (-k : ℤ) := by
    apply float64_le
    · rw [abs_of_nonneg hnonneg]
      linarith
    · push_cast
      linarith
  push_cast at hr
  have hq : seconds d ≤ (((s + 1) * 2 ^ k - 1 : ℤ) : ℚ) * 2 ^ (-k : ℤ) := by
    rw [seconds_eq hd hn]
    apply float64_le
    · rw [abs_of_nonneg (by linarith)]
      linarith
    · push_cast
      linear_combination hr - (s : ℚ) * hscale
  push_cast at hq
  obtain ⟨hge, -⟩ := seconds_near hd hn
  refine truncate_eq (by exact_mod_cast hge) ?_ (hcast.trans hge)
  calc seconds d ≤ ((s + 1) * 2 ^ k - 1) * 2 ^ (-k : ℤ) := hq
    _ = s + 1 - 2 ^ (-k : ℤ) := by linear_combination ((s : ℚ) + 1) * hscale
    _ < s + 1 := by linarith
    _ = ((s : ℤ) : ℚ) + 1 := by norm_cast

/-- Up to 2^23 seconds, some 97 days, the whole seconds are those of the duration. -/
theorem wholeSeconds_of_lt (hd : d.toInt = s * second + n) (hn : n < 1000000000)
    (hs : s < 2 ^ 23) : wholeSeconds d = s := by
  have hcast : (n : ℚ) ≤ 999999999 := by exact_mod_cast Nat.le_pred_of_lt hn
  refine wholeSeconds_eq 30 hd hn ?_ ?_
  · norm_num
    exact_mod_cast hs
  · unfold second
    norm_num
    linarith

theorem tdiv_second_nonpos {n : ℤ} (h : n ≤ 0) : n.tdiv second ≤ 0 := by
  have hquot := Int.tdiv_nonneg (neg_nonneg.mpr h) (show (0 : ℤ) ≤ second by norm_num [second])
  rw [Int.neg_tdiv] at hquot
  exact neg_nonneg.mp hquot

theorem wholeSeconds_nonpos (h : d.toInt ≤ 0) : wholeSeconds d ≤ 0 := by
  have hsecond : (0 : ℚ) ≤ second := by norm_num [second]
  have hsec : ((d.toInt.tdiv second : ℤ) : ℚ) ≤ 0 := by exact_mod_cast tdiv_second_nonpos h
  have hnsec : ((d.toInt.tmod second : ℤ) : ℚ) ≤ 0 := by
    have hrest := Int.tmod_nonneg second (neg_nonneg.mpr h)
    rw [Int.neg_tmod] at hrest
    exact_mod_cast neg_nonneg.mp hrest
  have hfrac : float64 (d.toInt.tmod second : ℤ) / (second : ℚ) ≤ 0 :=
    div_nonpos_of_nonpos_of_nonneg (float64_nonpos hnsec) hsecond
  exact truncate_nonpos (float64_nonpos (add_nonpos (float64_nonpos hsec) (float64_nonpos hfrac)))

theorem le_wholeSeconds (d : Int64) : -9223372038 ≤ wholeSeconds d := by
  have hle : -2 ^ 63 ≤ d.toInt := d.le_toInt
  have hlt : d.toInt < 2 ^ 63 := d.toInt_lt
  have hpos : (0 : ℤ) < second := by norm_num [second]
  have hsplit := Int.mul_tdiv_add_tmod d.toInt second
  have hnsec := Int.lt_tmod_of_pos d.toInt hpos
  have hnsec' := Int.tmod_lt_of_pos d.toInt hpos
  generalize hs : d.toInt.tdiv second = s at hsplit
  generalize hn : d.toInt.tmod second = n at hsplit hnsec hnsec'
  unfold second at hsplit hnsec hnsec'
  have hsmall : |s| < 2 ^ 53 ∧ |n| < 2 ^ 53 := by
    constructor <;> rw [abs_lt] <;> constructor <;> omega
  have hfrac : |(n : ℚ) / second| ≤ 1 := by
    have hcast : (-1000000000 : ℚ) ≤ n ∧ (n : ℚ) ≤ 1000000000 := by
      constructor <;> exact_mod_cast (by omega)
    unfold second
    rw [abs_le]
    constructor <;> norm_num <;> linarith [hcast.1, hcast.2]
  have hround : |float64 ((n : ℚ) / second)| ≤ 1 := by
    have hbelow : |(n : ℚ) / second| < 2 ^ ((0 : ℤ) + 53) := hfrac.trans_lt (by norm_num)
    obtain ⟨hge, hle⟩ := abs_le.mp hfrac
    rw [abs_le]
    constructor
    · simpa using le_float64 hbelow (m := -1) (by simpa using hge)
    · simpa using float64_le hbelow (m := 1) (by simpa using hle)
  obtain ⟨hge, hle⟩ := abs_le.mp hround
  have hcast : (-9223372037 : ℚ) ≤ s ∧ (s : ℚ) ≤ 9223372037 := by
    constructor <;> exact_mod_cast (by omega)
  have hsum : |(s : ℚ) + float64 ((n : ℚ) / second)| < 2 ^ ((0 : ℤ) + 53) := by
    rw [abs_lt]
    constructor <;> norm_num <;> linarith [hcast.1, hcast.2]
  refine le_truncate_of_le ?_
  rw [seconds, hs, hn, float64_intCast hsmall.1, float64_intCast hsmall.2]
  have hbound := le_float64 hsum (m := -9223372038) (by
    norm_num
    linarith [hcast.1])
  simpa using hbound

/-- There are two whole seconds exactly in a duration of two seconds or more. -/
theorem two_le_wholeSeconds : 2 ≤ wholeSeconds d ↔ 2 * second ≤ d.toInt := by
  by_cases hneg : d.toInt < 0
  · have hle := wholeSeconds_nonpos hneg.le
    unfold second
    omega
  · obtain ⟨s, n, hd, hn⟩ := nonneg_split (not_lt.mp hneg)
    obtain ⟨hge, -⟩ := wholeSeconds_near hd hn
    by_cases hs : s < 2 ^ 23
    · rw [wholeSeconds_of_lt hd hn hs]
      unfold second at hd ⊢
      omega
    · unfold second at hd ⊢
      omega

/-- No int64 duration has so many whole seconds that their nanoseconds would not fit again. -/
theorem wholeSeconds_le (d : Int64) : wholeSeconds d ≤ 9223372036 := by
  by_cases hneg : d.toInt < 0
  · have hle := wholeSeconds_nonpos hneg.le
    omega
  · obtain ⟨s, n, hd, hn⟩ := nonneg_split (not_lt.mp hneg)
    have hlt : d.toInt < 2 ^ 63 := d.toInt_lt
    obtain ⟨-, hle⟩ := wholeSeconds_near hd hn
    by_cases hs : s ≤ 9223372035
    · omega
    · have hmax : s = 9223372036 ∧ n ≤ 854775807 := by
        unfold second at hd
        omega
      obtain ⟨rfl, hn'⟩ := hmax
      have hcast : (n : ℚ) ≤ 854775807 := by exact_mod_cast hn'
      refine (wholeSeconds_eq 19 hd hn ?_ ?_).le
      · norm_num
      · unfold second
        norm_num
        linarith

end Seconds

section Parsing

def digitValue (c : Char) : ℕ := c.toNat - '0'.toNat

/-- The number that `s` starts with and the rest; nil when it does not fit. -/
def leadingInt (x : ℕ) : List Char → Option (ℕ × List Char)
  | [] => some (x, [])
  | c :: s =>
    if c.isDigit then
      if x > 2 ^ 63 / 10 then none
      else if x * 10 + digitValue c > 2 ^ 63 then none
      else leadingInt (x * 10 + digitValue c) s
    else some (x, c :: s)

/-- The digits after the point as a number over a scale; digits that do not fit are dropped. -/
def leadingFraction (x : ℕ) (scale : ℚ) (overflow : Bool) : List Char → ℕ × ℚ × List Char
  | [] => (x, scale, [])
  | c :: s =>
    if c.isDigit then
      if overflow || x > (2 ^ 63 - 1) / 10 || x * 10 + digitValue c > 2 ^ 63 then
        leadingFraction x scale true s
      else leadingFraction (x * 10 + digitValue c) (float64 (scale * 10)) overflow s
    else (x, scale, c :: s)

def unitMap (u : List Char) : Option ℕ :=
  if u = ['n', 's'] then some 1
  else if u = ['u', 's'] ∨ u = ['µ', 's'] ∨ u = ['μ', 's'] then some 1000
  else if u = ['m', 's'] then some 1000000
  else if u = ['s'] then some 1000000000
  else if u = ['m'] then some 60000000000
  else if u = ['h'] then some 3600000000000
  else none

def lowerhex (n : ℕ) : Char := "0123456789abcdef".toList.getD n '0'

/-- A text in quotes; bytes that are not printable ASCII in hexadecimal. -/
def quote (s : List Char) : String :=
  let shown (c : Char) : List Char :=
    if c.toNat ≥ 128 ∨ c < ' ' then
      (String.utf8EncodeChar c).flatMap fun b =>
        ['\\', 'x', lowerhex (b.toNat / 16), lowerhex (b.toNat % 16)]
    else if c = '"' ∨ c = '\\' then ['\\', c]
    else [c]
  String.ofList ('"' :: s.flatMap shown ++ ['"'])

variable (orig : List Char)

def invalidDuration : String := "time: invalid duration " ++ quote orig

def isNumberChar (c : Char) : Bool := c = '.' || c.isDigit

/-- The number in front: its integer part, its fraction over a scale, and the rest. Nil when there
is no digit or the integer part does not fit. -/
def number (s : List Char) : Option (ℕ × ℕ × ℚ × List Char) :=
  match leadingInt 0 s with
  | none => none
  | some (v, rest) =>
    let pre := decide (rest.length ≠ s.length)
    match rest with
    | '.' :: frac =>
      let (f, scale, rest) := leadingFraction 0 1 false frac
      let post := decide (rest.length ≠ frac.length)
      if !pre && !post then none else some (v, f, scale, rest)
    | _ => if !pre then none else some (v, 0, 1, rest)

/-- One number with its unit: the nanoseconds, and what follows. -/
def component (s : List Char) : Except String (ℕ × List Char) :=
  if !isNumberChar (s.headD ' ') then .error (invalidDuration orig)
  else match number s with
    | none => .error (invalidDuration orig)
    | some (v, f, scale, s) =>
      let u := s.takeWhile fun c => !isNumberChar c
      if u.length = 0 then .error ("time: missing unit in duration " ++ quote orig)
      else match unitMap u with
        | none => .error ("time: unknown unit " ++ quote u ++ " in duration " ++ quote orig)
        | some unit =>
          let w := v * unit + (truncate (float64 (float64 f * float64 (unit / scale)))).toNat
          if v > 2 ^ 63 / unit ∨ w > 2 ^ 63 then .error (invalidDuration orig)
          else .ok (w, s.drop u.length)

/-- The loop over the components; their sum is a uint64. -/
def components : ℕ → ℕ → List Char → Except String ℕ
  | _, d, [] => .ok d
  | 0, _, _ :: _ => .error (invalidDuration orig)
  | fuel + 1, d, c :: s =>
    match component orig (c :: s) with
    | .error err => .error err
    | .ok (v, rest) =>
      if (d + v) % 2 ^ 64 > 2 ^ 63 then .error (invalidDuration orig)
      else components fuel ((d + v) % 2 ^ 64) rest

def parseDuration (text : String) : Except String Int64 := do
  let orig := text.toList
  let (neg, s) := match orig with
    | '-' :: s => (true, s)
    | '+' :: s => (false, s)
    | s => (false, s)
  if s = ['0'] then pure 0
  else if s = [] then throw (invalidDuration orig)
  else
    let d ← components orig s.length 0 s
    if neg then pure (-Int64.ofNat d)
    else if d > 2 ^ 63 - 1 then throw (invalidDuration orig)
    else pure (Int64.ofNat d)

theorem leadingInt_length {x v : ℕ} {s rest : List Char} (h : leadingInt x s = some (v, rest)) :
    rest.length ≤ s.length := by
  induction s generalizing x with
  | nil =>
    cases h
    exact le_rfl
  | cons c s ih =>
    unfold leadingInt at h
    split_ifs at h
    · exact (ih h).trans (Nat.le_succ _)
    · cases h
      exact le_rfl

theorem leadingFraction_length (x : ℕ) (scale : ℚ) (overflow : Bool) (s : List Char) :
    (leadingFraction x scale overflow s).2.2.length ≤ s.length := by
  induction s generalizing x scale overflow with
  | nil => exact le_rfl
  | cons c s ih =>
    unfold leadingFraction
    split_ifs
    · exact (ih _ _ _).trans (Nat.le_succ _)
    · exact (ih _ _ _).trans (Nat.le_succ _)
    · exact le_rfl

theorem number_length {v f : ℕ} {scale : ℚ} {s rest : List Char}
    (h : number s = some (v, f, scale, rest)) : rest.length ≤ s.length := by
  unfold number at h
  split at h
  next => cases h
  next v' s' hint =>
    have hle := leadingInt_length hint
    split at h
    next frac =>
      have hfrac := leadingFraction_length 0 1 false frac
      dsimp only at h
      split_ifs at h
      cases h
      exact (hfrac.trans (Nat.le_succ _)).trans hle
    next =>
      dsimp only at h
      split_ifs at h
      cases h
      exact hle

variable {orig}

/-- A component takes its unit, so the text gets shorter. -/
theorem component_length {v : ℕ} {s rest : List Char} (h : component orig s = .ok (v, rest)) :
    rest.length < s.length := by
  unfold component at h
  split_ifs at h
  split at h
  next => cases h
  next v' f scale s' hnumber =>
    have hle := number_length hnumber
    have htake : (s'.takeWhile fun c => !isNumberChar c).length ≤ s'.length :=
      (List.takeWhile_sublist _).length_le
    dsimp only at h
    split_ifs at h
    split at h
    next => cases h
    next unit =>
      split_ifs at h
      cases h
      rw [List.length_drop]
      omega

/-- The length of the text is fuel enough. -/
theorem components_fuel {fuel d : ℕ} {s : List Char} (h : s.length ≤ fuel) :
    components orig (fuel + 1) d s = components orig fuel d s := by
  induction fuel generalizing d s with
  | zero =>
    cases List.eq_nil_of_length_eq_zero (Nat.le_zero.mp h)
    rfl
  | succ fuel ih =>
    cases s with
    | nil => rfl
    | cons c s =>
      rw [components, components]
      cases hcomp : component orig (c :: s) with
      | error err => rfl
      | ok r =>
        have hlt : r.2.length < s.length + 1 := component_length hcomp
        have hle : s.length + 1 ≤ fuel + 1 := h
        dsimp only
        rw [ih (by omega)]

end Parsing
end Duration
end RoutingApi.Models
