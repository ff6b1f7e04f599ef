import Mathlib.Algebra.Order.Floor.Semifield
import Statechart.Proofs.Decimal.Binary64

set_option autoImplicit false

namespace Statechart.Binary64

theorem decimalFraction_pos (digits : ℕ) (power : ℤ) : 0 < (decimalFraction digits power).2 := by
  unfold decimalFraction
  split
  · exact Nat.one_pos
  · exact Nat.pow_pos (by decide)

theorem decimalFraction_div (digits : ℕ) (power : ℤ) :
    ((decimalFraction digits power).1 : ℚ) / (decimalFraction digits power).2 =
      digits * 10 ^ power := by
  unfold decimalFraction
  split
  case isTrue nonneg =>
    rw [zpow_of_nonneg 10 nonneg]
    push_cast [Nat.pow_eq]
    rw [div_one]
  case isFalse negative =>
    rw [zpow_of_nonpos 10 (not_le.mp negative).le]
    push_cast [Nat.pow_eq]
    rw [div_eq_mul_inv]

theorem Covers.of_between {x : Binary64} {low middle high : ℚ} (first : x.Covers low)
    (second : x.Covers high) (above : low ≤ middle) (below : middle ≤ high) : x.Covers middle := by
  unfold Covers at first second ⊢
  split at first
  case isTrue even =>
    rw [if_pos even] at second ⊢
    exact ⟨first.1.trans above, below.trans second.2⟩
  case isFalse odd =>
    rw [if_neg odd] at second ⊢
    exact ⟨first.1.trans_le above, below.trans_lt second.2⟩

theorem le_low_of_not_covers {x : Binary64} {value : ℚ} (not : ¬x.Covers value)
    (below : value ≤ x.size) : 4 * (value * 2 ^ (-x.exponent)) ≤ x.interval.low := by
  have scaled := mul_le_mul_of_nonneg_right below (by positivity : (0 : ℚ) ≤ 2 ^ (-x.exponent))
  have high := x.cast_interval_high
  rw [scaled_size] at scaled
  rw [covers_iff] at not
  by_contra inside
  split at not
  case isTrue => exact not ⟨by linarith, by linarith⟩
  case isFalse => exact not ⟨by linarith, by linarith⟩

theorem high_le_of_not_covers {x : Binary64} (nonzero : x.mantissa ≠ 0) {value : ℚ}
    (not : ¬x.Covers value) (above : x.size ≤ value) :
    x.interval.high ≤ 4 * (value * 2 ^ (-x.exponent)) := by
  have scaled := mul_le_mul_of_nonneg_right above (by positivity : (0 : ℚ) ≤ 2 ^ (-x.exponent))
  have low : x.interval.low < 4 * x.mantissa := by
    rw [interval_low]
    grind
  have low : (x.interval.low : ℚ) < 4 * x.mantissa := by exact_mod_cast low
  rw [scaled_size] at scaled
  rw [covers_iff] at not
  by_contra inside
  split at not
  case isTrue => exact not ⟨by linarith, by linarith⟩
  case isFalse => exact not ⟨by linarith, by linarith⟩

theorem interval_den_pos (x : Binary64) : 0 < x.interval.den :=
  shifted_pos 1 Nat.one_pos (x.exponent - 2)

theorem interval_unit (x : Binary64) :
    (x.interval.num : ℚ) / x.interval.den = 2 ^ (x.exponent - 2) := by
  have unit := shifted_div 1 1 (x.exponent - 2)
  rwa [Nat.cast_one, div_one, one_mul] at unit

/-- The check on a decimal decides whether it rounds to the number. -/
theorem contains_iff (x : Binary64) (digits : ℕ) (power : ℤ) :
    x.interval.contains digits power = true ↔ x.Covers (digits * 10 ^ power) := by
  have den_pos : (0 : ℚ) < (decimalFraction digits power).2 := by
    exact_mod_cast decimalFraction_pos digits power
  have unit_pos : (0 : ℚ) < x.interval.den := by exact_mod_cast x.interval_den_pos
  have le (n : ℕ) : n * x.interval.num * (decimalFraction digits power).2 ≤
      (decimalFraction digits power).1 * x.interval.den ↔
        n * 2 ^ (x.exponent - 2) ≤ (digits * 10 ^ power : ℚ) := by
    rw [← interval_unit, ← decimalFraction_div, ← mul_div_assoc, div_le_div_iff₀ unit_pos den_pos]
    exact_mod_cast Iff.rfl
  have ge (n : ℕ) : (decimalFraction digits power).1 * x.interval.den ≤
      n * x.interval.num * (decimalFraction digits power).2 ↔
        (digits * 10 ^ power : ℚ) ≤ n * 2 ^ (x.exponent - 2) := by
    rw [← interval_unit, ← decimalFraction_div, ← mul_div_assoc, div_le_div_iff₀ den_pos unit_pos]
    exact_mod_cast Iff.rfl
  have closed : x.interval.closed = decide (x.mantissa % 2 = 0) := rfl
  simp only [Interval.contains, closed, Covers, decide_eq_true_eq]
  split
  · rw [Bool.and_eq_true, decide_eq_true_eq, decide_eq_true_eq, le, ge]
  · rw [Bool.and_eq_true, decide_eq_true_eq, decide_eq_true_eq, ← not_le, ← not_le, le, ge,
      not_le, not_le]

theorem toDigits_mem {n : ℕ} (positive : 0 < n) :
    ((10 : ℕ) : ℚ) ^ (((Nat.toDigits 10 n).length : ℤ) - 1) ≤ n ∧
      (n : ℚ) < ((10 : ℕ) : ℚ) ^ (((Nat.toDigits 10 n).length : ℤ) - 1 + 1) := by
  obtain ⟨count, count_eq⟩ : ∃ count, (Nat.toDigits 10 n).length = count + 1 :=
    ⟨_, (Nat.succ_pred_eq_of_pos Nat.length_toDigits_pos).symm⟩
  have le_iff (k : ℕ) (some' : 0 < k) : count + 1 ≤ k ↔ n < 10 ^ k := by
    rw [← count_eq, Nat.length_toDigits_le_iff (by decide) some']
  have place : ((count + 1 : ℕ) : ℤ) - 1 = count := by omega
  rw [count_eq, place, zpow_natCast, ← Nat.cast_succ count, zpow_natCast]
  constructor
  · obtain rfl | some' := Nat.eq_zero_or_pos count
    · rw [pow_zero]
      exact_mod_cast positive
    · exact_mod_cast not_lt.mp ((le_iff count some').not.mp (by omega))
  · exact_mod_cast (le_iff (count + 1) (by omega)).mp le_rfl

/-- The magnitude follows the decimal logarithm. -/
theorem decimalMagnitude_eq {num den : ℕ} (num_pos : 0 < num) (den_pos : 0 < den) :
    decimalMagnitude num den = Int.log 10 ((num : ℚ) / den) + 1 := by
  have ⟨num_ge, num_lt⟩ := toDigits_mem num_pos
  have ⟨den_ge, den_lt⟩ := toDigits_mem den_pos
  have log_eq := log_div (by decide) num_ge num_lt den_ge den_lt
  obtain ⟨guess, guess_eq⟩ : ∃ guess : ℤ,
      guess = ((Nat.toDigits 10 num).length : ℤ) - (Nat.toDigits 10 den).length := ⟨_, rfl⟩
  rw [sub_sub_sub_cancel_right, ← guess_eq, Nat.cast_ofNat] at log_eq
  have den_pos' : (0 : ℚ) < den := by exact_mod_cast den_pos
  rw [decimalMagnitude, ← guess_eq, log_eq, apply_ite (· + 1), sub_add_cancel]
  by_cases nonneg : 0 ≤ guess
  · have power : (10 : ℚ) ^ guess = (10 ^ guess.toNat : ℕ) := by
      push_cast
      rw [← zpow_natCast, Int.toNat_of_nonneg nonneg]
    have less : num < den * Nat.pow 10 guess.toNat ↔ (num : ℚ) / den < 10 ^ guess := by
      rw [power, div_lt_iff₀ den_pos', mul_comm]
      exact_mod_cast Iff.rfl
    simp only [nonneg, if_true, less]
  · have power : (10 : ℚ) ^ guess = ((10 ^ (-guess).toNat : ℕ) : ℚ)⁻¹ := by
      push_cast
      rw [← zpow_natCast, Int.toNat_of_nonneg (by omega), zpow_neg, inv_inv]
    have less : num * Nat.pow 10 (-guess).toNat < den ↔ (num : ℚ) / den < 10 ^ guess := by
      rw [power, div_lt_iff₀ den_pos', ← div_eq_inv_mul, lt_div_iff₀ (by positivity)]
      exact_mod_cast Iff.rfl
    simp only [nonneg, if_false, less]

section

variable {x : Binary64} (nonzero : x.mantissa ≠ 0)

include nonzero

theorem size_pos : 0 < x.size := by
  have := Nat.pos_of_ne_zero nonzero
  unfold size
  positivity

theorem interval_centre_pos : 0 < x.interval.centre * x.interval.num := by
  have unit := x.interval_unit
  have : x.interval.num ≠ 0 := by
    intro zero
    rw [zero, Nat.cast_zero, zero_div] at unit
    exact absurd unit (by positivity)
  have centre : x.interval.centre = 4 * x.mantissa := rfl
  rw [centre]
  exact Nat.mul_pos (by omega) (Nat.pos_of_ne_zero this)

end

theorem interval_centre (x : Binary64) :
    ((x.interval.centre * x.interval.num : ℕ) : ℚ) / x.interval.den = x.size := by
  have centre : x.interval.centre = 4 * x.mantissa := rfl
  rw [centre, Nat.cast_mul, mul_div_assoc, interval_unit, zpow_sub₀ two_ne_zero, size]
  push_cast
  ring

/-- The power of ten just above a number. -/
def top (x : Binary64) : ℤ :=
  Int.log 10 x.size + 1

/-- A number in units of a power of ten. -/
def inUnits (x : Binary64) (power : ℤ) : ℚ :=
  x.size / 10 ^ power

theorem roundDiv_eq_ite (num den : ℕ) : roundDiv num den =
    if den < 2 * (num % den) ∨ den = 2 * (num % den) ∧ num / den % 2 = 1 then num / den + 1
      else num / den := by
  unfold roundDiv
  grind

/-- A number in units of a power of ten, as a fraction. -/
def gridFraction (x : Binary64) (power : ℤ) : ℕ × ℕ :=
  (x.interval.centre * x.interval.num * (decimalFraction 1 power).2,
    x.interval.den * (decimalFraction 1 power).1)

theorem gridFraction_div (x : Binary64) (power : ℤ) :
    ((x.gridFraction power).1 : ℚ) / (x.gridFraction power).2 = x.inUnits power := by
  have grid := decimalFraction_div 1 power
  rw [Nat.cast_one, one_mul] at grid
  rw [inUnits, ← interval_centre, ← grid, div_div_div_eq, gridFraction]
  push_cast
  rfl

theorem gridFraction_pos (x : Binary64) (power : ℤ) : 0 < (x.gridFraction power).2 := by
  have grid := decimalFraction_div 1 power
  refine Nat.mul_pos x.interval_den_pos (Nat.pos_of_ne_zero (fun zero => ?_))
  rw [zero, Nat.cast_zero, zero_div, Nat.cast_one, one_mul] at grid
  exact absurd grid.symm (by positivity)

section

variable {x : Binary64} (nonzero : x.mantissa ≠ 0) {count : ℕ} {power : ℤ}
  (power_eq : power = x.top - count) {floor : ℕ} (floor_eq : floor = ⌊x.inUnits power⌋₊)

include nonzero power_eq floor_eq

theorem decimalWith?_eq : x.decimalWith? count =
    bif x.interval.contains floor power then
      bif x.interval.contains (floor + 1) power then
        some ⟨roundDiv (x.gridFraction power).1 (x.gridFraction power).2, power⟩
      else some ⟨floor, power⟩
    else bif x.interval.contains (floor + 1) power then some ⟨floor + 1, power⟩ else none := by
  have top_eq : decimalMagnitude (x.interval.centre * x.interval.num) x.interval.den = x.top := by
    rw [decimalMagnitude_eq (interval_centre_pos nonzero) x.interval_den_pos, interval_centre, top]
  rw [← gridFraction_div, Nat.floor_div_eq_div] at floor_eq
  rw [roundDiv_eq_ite, apply_ite (Decimal.mk · power), floor_eq, power_eq, ← top_eq]
  unfold decimalWith?
  dsimp only
  split <;> rename_i isLower isUpper <;> rw [gridFraction, isLower, isUpper] <;> rfl

/-- With a number of digits there is a decimal if a neighbour of the number on their grid rounds
to it, and it is the nearer neighbour if both do. -/
theorem decimalWith?_cases :
    (x.decimalWith? count = none ∧ ¬x.Covers (floor * 10 ^ power) ∧
      ¬x.Covers ((floor + 1 : ℕ) * 10 ^ power)) ∨
    ∃ digits, x.decimalWith? count = some ⟨digits, power⟩ ∧ x.Covers (digits * 10 ^ power) ∧
      (digits = floor ∨ digits = floor + 1) ∧
      ∀ other, other = floor ∨ other = floor + 1 → x.Covers (other * 10 ^ power) →
        |x.inUnits power - digits| ≤ |x.inUnits power - other| := by
  have lower := contains_iff x floor power
  have upper := contains_iff x (floor + 1) power
  rw [decimalWith?_eq nonzero power_eq floor_eq]
  cases isLower : x.interval.contains floor power <;>
    cases isUpper : x.interval.contains (floor + 1) power
  case false.false =>
    rw [isLower] at lower
    rw [isUpper] at upper
    refine .inl ⟨rfl, fun covers => ?_, fun covers => ?_⟩
    · cases lower.mpr covers
    · cases upper.mpr covers
  case false.true =>
    rw [isLower] at lower
    refine .inr ⟨floor + 1, rfl, upper.mp isUpper, .inr rfl, ?_⟩
    rintro other (rfl | rfl) covers
    · cases lower.mpr covers
    · exact le_rfl
  case true.false =>
    rw [isUpper] at upper
    refine .inr ⟨floor, rfl, lower.mp isLower, .inl rfl, ?_⟩
    rintro other (rfl | rfl) covers
    · exact le_rfl
    · cases upper.mpr covers
  case true.true =>
    have nearest := isNearest_roundDiv (x.gridFraction power).1 (x.gridFraction_pos power)
    have either : roundDiv (x.gridFraction power).1 (x.gridFraction power).2 = floor ∨
        roundDiv (x.gridFraction power).1 (x.gridFraction power).2 = floor + 1 := by
      rw [← gridFraction_div, Nat.floor_div_eq_div] at floor_eq
      rw [roundDiv_eq_ite, ← floor_eq]
      split
      · exact .inr rfl
      · exact .inl rfl
    rw [gridFraction_div] at nearest
    refine .inr ⟨roundDiv (x.gridFraction power).1 (x.gridFraction power).2, rfl, ?_, either, ?_⟩
    · obtain same | same := either
      · rw [same]
        exact lower.mp isLower
      · rw [same]
        exact upper.mp isUpper
    · exact fun other _ _ => nearest.le other

end

def Decimal.value (d : Decimal) : ℚ :=
  d.digits * 10 ^ d.exponent

/-- No decimal with so many digits lies between neighbours on the grid of as many. -/
theorem Decimal.value_le_or_ge {d : Decimal} {count : ℕ} (positive : 0 < count)
    (few : d.digits < 10 ^ count) (power : ℤ) {floor : ℕ} (floor_ge : 10 ^ (count - 1) ≤ floor) :
    d.value ≤ floor * 10 ^ power ∨ ((floor + 1 : ℕ) : ℚ) * 10 ^ power ≤ d.value := by
  by_cases onGrid : power ≤ d.exponent
  · have whole : d.value = (d.digits * 10 ^ (d.exponent - power).toNat : ℕ) * 10 ^ power := by
      push_cast
      rw [← zpow_natCast, Int.toNat_of_nonneg (by omega), mul_assoc, ← zpow_add₀ (by norm_num),
        sub_add_cancel, Decimal.value]
    rw [whole]
    obtain le | lt := le_or_gt (d.digits * 10 ^ (d.exponent - power).toNat) floor
    · exact .inl (by gcongr)
    · exact .inr (by gcongr; omega)
  · left
    calc d.value ≤ 10 ^ count * 10 ^ (power - 1) := by
          unfold Decimal.value
          gcongr
          · exact_mod_cast few.le
          · norm_num
          · omega
      _ = (10 ^ (count - 1) : ℕ) * 10 ^ power := by
          push_cast
          rw [← zpow_natCast, ← zpow_natCast, ← zpow_add₀ (by norm_num), ← zpow_add₀ (by norm_num)]
          congr 1
          omega
      _ ≤ floor * 10 ^ power := by gcongr

section

variable {x : Binary64} (nonzero : x.mantissa ≠ 0)

include nonzero

theorem top_mem : 10 ^ (x.top - 1) ≤ x.size ∧ x.size < 10 ^ x.top := by
  have le := Int.zpow_log_le_self (b := 10) (by decide) (size_pos nonzero)
  have lt := Int.lt_zpow_succ_log_self (b := 10) (by decide) x.size
  rw [top, add_sub_cancel_right]
  exact ⟨by exact_mod_cast le, by exact_mod_cast lt⟩

theorem floor_mem (power : ℤ) : (⌊x.inUnits power⌋₊ : ℚ) * 10 ^ power ≤ x.size ∧
    x.size < ((⌊x.inUnits power⌋₊ + 1 : ℕ) : ℚ) * 10 ^ power := by
  have unit_pos : (0 : ℚ) < 10 ^ power := by positivity
  have nonneg : 0 ≤ x.inUnits power := div_nonneg (size_pos nonzero).le unit_pos.le
  constructor
  · exact (le_div_iff₀ unit_pos).mp (Nat.floor_le nonneg)
  · have lt := Nat.lt_floor_add_one (x.inUnits power)
    rw [inUnits, div_lt_iff₀ unit_pos] at lt
    exact_mod_cast lt

/-- With a number of digits at most the power of ten just above the number is written, and from
one digit on at least the one below it. -/
theorem floor_digits {count : ℕ} (positive : 0 < count) :
    10 ^ (count - 1) ≤ ⌊x.inUnits (x.top - count)⌋₊ ∧
      ⌊x.inUnits (x.top - count)⌋₊ < 10 ^ count := by
  have ⟨ge, lt⟩ := top_mem nonzero
  have unit_pos : (0 : ℚ) < 10 ^ (x.top - count) := by positivity
  constructor
  · apply Nat.le_floor
    rw [inUnits, le_div_iff₀ unit_pos]
    push_cast
    rw [← zpow_natCast, ← zpow_add₀ (by norm_num)]
    rwa [show ((count - 1 : ℕ) : ℤ) + (x.top - count) = x.top - 1 by omega]
  · rw [Nat.floor_lt' (by positivity), inUnits, div_lt_iff₀ unit_pos]
    push_cast
    rw [← zpow_natCast, ← zpow_add₀ (by norm_num)]
    rwa [show (count : ℤ) + (x.top - count) = x.top by omega]

/-- Where a decimal with so many digits rounds to the number, one of those tried does, on the
same side of the number and no further from it. -/
theorem exists_tried {d : Decimal} (covers : x.Covers d.value) {count : ℕ} (positive : 0 < count)
    (few : d.digits < 10 ^ count) {power : ℤ} (power_eq : power = x.top - count) {floor : ℕ}
    (floor_eq : floor = ⌊x.inUnits power⌋₊) :
    ∃ other, (other = floor ∨ other = floor + 1) ∧ x.Covers (other * 10 ^ power) ∧
      |x.size - other * 10 ^ power| ≤ |x.size - d.value| := by
  have ⟨below, above⟩ := floor_mem nonzero power
  have ⟨floor_ge, _⟩ := floor_digits nonzero positive
  rw [← floor_eq] at below above
  rw [← power_eq, ← floor_eq] at floor_ge
  obtain left | right := Decimal.value_le_or_ge positive few power floor_ge
  · refine ⟨floor, .inl rfl, covers.of_between x.covers_size left below, ?_⟩
    rw [abs_of_nonneg (by linarith), abs_of_nonneg (by linarith)]
    linarith
  · refine ⟨floor + 1, .inr rfl, x.covers_size.of_between covers above.le right, ?_⟩
    rw [abs_of_nonpos (by linarith), abs_of_nonpos (by linarith)]
    linarith

/-- Seventeen digits are enough: the grid is finer than the distance of neighbouring numbers. -/
theorem decimalWith?_seventeen (normal : x.Normal) : x.decimalWith? 17 ≠ none := by
  intro failed
  obtain ⟨power, power_eq⟩ : ∃ power, power = x.top - (17 : ℕ) := ⟨_, rfl⟩
  obtain ⟨floor, floor_eq⟩ : ∃ floor, floor = ⌊x.inUnits power⌋₊ := ⟨_, rfl⟩
  obtain ⟨-, notLower, notUpper⟩ | ⟨_, found, _⟩ := decimalWith?_cases nonzero power_eq floor_eq
  case inr => rw [failed] at found; cases found
  have ⟨below, above⟩ := floor_mem nonzero power
  rw [← floor_eq] at below above
  have lower := le_low_of_not_covers notLower below
  have upper := high_le_of_not_covers nonzero notUpper above.le
  -- The neighbours on the grid are at most the sixteenth decimal place of the mantissa apart.
  have fine : (10 : ℚ) ^ power * 2 ^ (-x.exponent) ≤ x.mantissa / 10 ^ 16 := by
    have ge := mul_le_mul_of_nonneg_right (top_mem nonzero).1
      (by positivity : (0 : ℚ) ≤ 2 ^ (-x.exponent))
    rw [scaled_size, show x.top - 1 = power + (16 : ℕ) by omega, zpow_add₀ (by norm_num),
      zpow_natCast] at ge
    rw [le_div_iff₀ (by norm_num)]
    linarith
  have step : ((floor + 1 : ℕ) : ℚ) * 10 ^ power * 2 ^ (-x.exponent) =
      floor * 10 ^ power * 2 ^ (-x.exponent) + 10 ^ power * 2 ^ (-x.exponent) := by
    push_cast
    ring
  have mantissa_lt : (x.mantissa : ℚ) < 2 ^ 53 := by exact_mod_cast normal.mantissa_lt
  have high_eq := x.cast_interval_high
  by_cases edge : x.mantissa = 2 ^ 52 ∧ -1074 < x.exponent
  · have low_eq : (x.interval.low : ℚ) = 4 * 2 ^ 52 - 1 := by
      rw [interval_low, if_pos edge, edge.1]
      norm_num
    rw [edge.1] at fine high_eq
    push_cast at fine high_eq
    linarith
  · have low_eq : (x.interval.low : ℚ) = 4 * x.mantissa - 2 := by
      rw [interval_low, if_neg edge, Nat.cast_sub (by omega)]
      push_cast
      rfl
    linarith

end

theorem Decimal.value_trim (fuel : ℕ) (d : Decimal) : (d.trim fuel).value = d.value := by
  fun_induction Decimal.trim fuel d with
  | case1 d => rfl
  | case2 d fuel zeros ih =>
    have whole : (d.digits : ℚ) = (d.digits / 10 : ℕ) * 10 := by
      exact_mod_cast (Nat.div_mul_cancel (Nat.dvd_of_mod_eq_zero zeros.2)).symm
    rw [ih, value, value, whole, zpow_add_one₀ (by norm_num)]
    ring
  | case3 d fuel done => rfl

theorem Decimal.trim_digits_le (fuel : ℕ) (d : Decimal) : (d.trim fuel).digits ≤ d.digits := by
  fun_induction Decimal.trim fuel d with
  | case1 d => exact le_rfl
  | case2 d fuel zeros ih => exact ih.trans (Nat.div_le_self _ _)
  | case3 d fuel done => exact le_rfl

theorem Decimal.trim_digits_lt {count fuel : ℕ} (positive : 0 < count) {d : Decimal}
    (le : d.digits ≤ 10 ^ count) : (d.trim (fuel + 1)).digits < 10 ^ count := by
  obtain lt | eq := Nat.lt_or_eq_of_le le
  · exact (d.trim_digits_le _).trans_lt lt
  · obtain ⟨count, rfl⟩ := Nat.exists_eq_succ_of_ne_zero positive.ne'
    have zeros : d.digits ≠ 0 ∧ d.digits % 10 = 0 := by
      rw [eq, Nat.pow_succ]
      exact ⟨by positivity, Nat.mul_mod_left _ _⟩
    rw [trim, if_pos zeros]
    refine (trim_digits_le _ _).trans_lt ?_
    dsimp only
    omega

/-- The number of digits tried first that is enough, for which all fewer failed. -/
theorem exists_count {x : Binary64} (normal : x.Normal) (nonzero : x.mantissa ≠ 0) :
    ∃ count d, 0 < count ∧ (∀ fewer, 0 < fewer → fewer < count → x.decimalWith? fewer = none) ∧
      x.decimalWith? count = some d ∧ x.shortest = d.trim 18 := by
  cases found : (List.range' 1 17).findSome? x.decimalWith? with
  | none =>
    have failed := List.findSome?_eq_none_iff.mp found 17 (by decide)
    exact absurd failed (decimalWith?_seventeen nonzero normal)
  | some d =>
    obtain ⟨before, count, after, split, tried, failed⟩ := List.findSome?_eq_some_iff.mp found
    obtain ⟨k, -, rfl, rest⟩ := List.range'_eq_append_iff.mp split
    obtain ⟨rfl, -⟩ := List.range'_eq_cons_iff.mp rest.symm
    refine ⟨_, d, by omega, fun fewer positive less => failed fewer ?_, tried, ?_⟩
    · rw [List.mem_range'_1]
      omega
    · have notZero : x.isZero = false := by simpa [isZero] using nonzero
      rw [shortest, notZero, found]
      rfl

/-- What is written of a number rounds to it, no decimal that does has fewer digits, and none with
as many is nearer to it. -/
theorem shortest_spec {x : Binary64} (normal : x.Normal) (nonzero : x.mantissa ≠ 0) :
    x.Covers x.shortest.value ∧ ∀ d : Decimal, x.Covers d.value →
      (Nat.toDigits 10 x.shortest.digits).length ≤ (Nat.toDigits 10 d.digits).length ∧
      ((Nat.toDigits 10 d.digits).length = (Nat.toDigits 10 x.shortest.digits).length →
        |x.size - x.shortest.value| ≤ |x.size - d.value|) := by
  obtain ⟨count, found, positive, failed, tried, shortest_eq⟩ := exists_count normal nonzero
  have ⟨_, floor_lt⟩ := floor_digits nonzero positive
  obtain ⟨none_found, -⟩ | ⟨digits, same, covers, either, nearest⟩ :=
    decimalWith?_cases nonzero (Eq.refl (x.top - count)) rfl
  case inl => rw [tried] at none_found; cases none_found
  obtain rfl : found = ⟨digits, x.top - count⟩ := Option.some.inj (tried.symm.trans same)
  have digits_le : digits ≤ 10 ^ count := by omega
  have length_le : (Nat.toDigits 10 x.shortest.digits).length ≤ count := by
    rw [shortest_eq, Nat.length_toDigits_le_iff (by decide) positive]
    exact Decimal.trim_digits_lt positive digits_le
  have value_eq : x.shortest.value = digits * 10 ^ (x.top - count) := by
    rw [shortest_eq, Decimal.value_trim, Decimal.value]
  refine ⟨value_eq ▸ covers, fun d covers' => ?_⟩
  have few : d.digits < 10 ^ (Nat.toDigits 10 d.digits).length :=
    (Nat.length_toDigits_le_iff (by decide) Nat.length_toDigits_pos).mp le_rfl
  have count_le : count ≤ (Nat.toDigits 10 d.digits).length := by
    by_contra less
    have none_found := failed _ Nat.length_toDigits_pos (not_le.mp less)
    obtain ⟨other, side, covered, _⟩ :=
      exists_tried nonzero covers' Nat.length_toDigits_pos few rfl rfl
    obtain ⟨-, notLower, notUpper⟩ | ⟨_, some_found, _⟩ :=
      decimalWith?_cases nonzero (Eq.refl (x.top - (Nat.toDigits 10 d.digits).length)) rfl
    · obtain rfl | rfl := side
      · exact notLower covered
      · exact notUpper covered
    · rw [none_found] at some_found
      cases some_found
  refine ⟨length_le.trans count_le, fun same_length => ?_⟩
  have count_eq : (Nat.toDigits 10 d.digits).length = count := by omega
  rw [count_eq] at few
  obtain ⟨other, side, covered, nearer⟩ := exists_tried nonzero covers' positive few rfl rfl
  have unit_pos : (0 : ℚ) < 10 ^ (x.top - count) := by positivity
  have inPlace (n : ℕ) : |x.size - n * 10 ^ (x.top - count)| =
      |x.inUnits (x.top - count) - n| * 10 ^ (x.top - count) := by
    rw [← abs_of_pos unit_pos, ← abs_mul, abs_of_pos unit_pos, sub_mul, inUnits,
      div_mul_cancel₀ _ unit_pos.ne']
  calc |x.size - x.shortest.value|
      = |x.inUnits (x.top - count) - digits| * 10 ^ (x.top - count) := by rw [value_eq, inPlace]
    _ ≤ |x.inUnits (x.top - count) - other| * 10 ^ (x.top - count) :=
        mul_le_mul_of_nonneg_right (nearest other side covered) unit_pos.le
    _ = |x.size - other * 10 ^ (x.top - count)| := (inPlace other).symm
    _ ≤ |x.size - d.value| := nearer

/-- A number is read back from what is written of it, if decimals are rounded to the nearest. -/
theorem round?_shortest {x : Binary64} (normal : x.Normal) :
    round? x.negative (decimalFraction x.shortest.digits x.shortest.exponent).1
      (decimalFraction x.shortest.digits x.shortest.exponent).2 = some x := by
  rw [round?_eq_some_iff (decimalFraction_pos _ _), decimalFraction_div]
  refine ⟨rfl, normal, ?_⟩
  by_cases zero : x.mantissa = 0
  · have size_eq : x.size = 0 := by rw [size, zero, Nat.cast_zero, zero_mul]
    have isZero : x.isZero = true := decide_eq_true zero
    rw [shortest, if_pos isZero, Nat.cast_zero, zero_mul, ← size_eq]
    exact x.covers_size
  · exact (shortest_spec normal zero).1

end Statechart.Binary64
