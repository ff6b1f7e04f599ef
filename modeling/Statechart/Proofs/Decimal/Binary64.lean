import Mathlib.Data.Int.Log
import Mathlib.Data.Rat.Floor
import Mathlib.Algebra.Order.Field.Power
import Mathlib.Tactic.FieldSimp
import Mathlib.Tactic.Linarith
import Mathlib.Tactic.Positivity
import Mathlib.Tactic.Ring
import Statechart.Decimal.Shortest

set_option autoImplicit false

namespace Statechart.Binary64

/-- Nearest to a value, and even where another number is as near. -/
def IsNearest (value : ℚ) (n : ℕ) : Prop :=
  |value - n| ≤ 1 / 2 ∧ (|value - n| = 1 / 2 → n % 2 = 0)

theorem IsNearest.unique {value : ℚ} {m n : ℕ} (first : IsNearest value m)
    (second : IsNearest value n) : m = n := by
  have ⟨low, high⟩ := abs_le.mp first.1
  have ⟨low', high'⟩ := abs_le.mp second.1
  have below : m ≤ n + 1 := by exact_mod_cast (by linarith : (m : ℚ) ≤ n + 1)
  have above : n ≤ m + 1 := by exact_mod_cast (by linarith : (n : ℚ) ≤ m + 1)
  -- Neighbours that are as near as each other are not both even.
  by_contra differ
  obtain rfl | rfl : m = n + 1 ∨ n = m + 1 := by omega
  · push_cast at low
    have middle : value - n = 1 / 2 := by linarith
    have even := second.2 (by rw [middle]; norm_num)
    have even' :=
      first.2 (by push_cast; rw [show value - (n + 1) = -(1 / 2) by linarith]; norm_num)
    omega
  · push_cast at low'
    have middle : value - m = 1 / 2 := by linarith
    have even := first.2 (by rw [middle]; norm_num)
    have even' :=
      second.2 (by push_cast; rw [show value - (m + 1) = -(1 / 2) by linarith]; norm_num)
    omega

theorem IsNearest.le {value : ℚ} {n : ℕ} (nearest : IsNearest value n) (m : ℕ) :
    |value - n| ≤ |value - m| := by
  obtain rfl | differ := eq_or_ne n m
  · exact le_rfl
  · have apart : (1 : ℚ) ≤ |(n : ℚ) - m| := by
      exact_mod_cast Int.one_le_abs (show (n : ℤ) - m ≠ 0 by omega)
    have triangle : |(n : ℚ) - m| ≤ |value - n| + |value - m| := by
      rw [abs_sub_comm value n]
      exact abs_sub_le _ _ _
    linarith [nearest.1]

theorem isNearest_roundDiv (num : ℕ) {den : ℕ} (positive : 0 < den) :
    IsNearest (num / den) (roundDiv num den) := by
  obtain ⟨floor, rest, rest_lt, rfl⟩ : ∃ floor rest, rest < den ∧ num = den * floor + rest :=
    ⟨num / den, num % den, Nat.mod_lt _ positive, (Nat.div_add_mod num den).symm⟩
  have floor_eq : (den * floor + rest) / den = floor := by
    rw [Nat.mul_add_div positive, Nat.div_eq_of_lt rest_lt, Nat.add_zero]
  have rest_eq : (den * floor + rest) % den = rest := by
    rw [Nat.mul_add_mod, Nat.mod_eq_of_lt rest_lt]
  have den_pos : (0 : ℚ) < den := by exact_mod_cast positive
  have value : ((den * floor + rest : ℕ) : ℚ) / den = floor + rest / den := by
    push_cast
    field_simp
  have fraction_nonneg : (0 : ℚ) ≤ rest / den := by positivity
  have fraction_lt : (rest : ℚ) / den < 1 := by
    rw [div_lt_one den_pos]
    exact_mod_cast rest_lt
  have below : 2 * rest < den ↔ (rest : ℚ) / den < 1 / 2 := by
    rw [div_lt_div_iff₀ den_pos two_pos, ← @Nat.cast_lt ℚ]
    push_cast
    constructor <;> intro _ <;> linarith
  have above : den < 2 * rest ↔ 1 / 2 < (rest : ℚ) / den := by
    rw [div_lt_div_iff₀ two_pos den_pos, ← @Nat.cast_lt ℚ]
    push_cast
    constructor <;> intro _ <;> linarith
  rw [value, IsNearest, roundDiv, floor_eq, rest_eq]
  split
  case isTrue less =>
    have less := below.mp less
    rw [add_sub_cancel_left, abs_of_nonneg fraction_nonneg]
    exact ⟨less.le, fun tie => absurd tie less.ne⟩
  case isFalse notLess =>
    have atLeast : 1 / 2 ≤ (rest : ℚ) / den := not_lt.mp (below.not.mp notLess)
    have up : (floor : ℚ) + rest / den - (floor + 1 : ℕ) = rest / den - 1 := by
      push_cast
      ring
    split
    case isTrue more =>
      have more := above.mp more
      rw [up, abs_of_neg (by linarith)]
      exact ⟨by linarith, fun tie => absurd tie (by linarith)⟩
    case isFalse notMore =>
      have half : (rest : ℚ) / den = 1 / 2 := le_antisymm (not_lt.mp (above.not.mp notMore)) atLeast
      split
      case isTrue even =>
        rw [half]
        norm_num [even]
      case isFalse odd =>
        rw [up, half]
        norm_num
        omega

theorem roundDiv_eq_iff (num : ℕ) {den : ℕ} (positive : 0 < den) (n : ℕ) :
    roundDiv num den = n ↔ IsNearest (num / den) n :=
  ⟨fun same => same ▸ isNearest_roundDiv num positive, (isNearest_roundDiv num positive).unique⟩

theorem zpow_of_nonneg (b : ℚ) {n : ℤ} (nonneg : 0 ≤ n) : b ^ n = b ^ n.toNat := by
  rw [← zpow_natCast, Int.toNat_of_nonneg nonneg]

theorem zpow_of_nonpos (b : ℚ) {n : ℤ} (nonpos : n ≤ 0) : b ^ n = (b ^ (-n).toNat)⁻¹ := by
  rw [← zpow_natCast, Int.toNat_of_nonneg (by omega), zpow_neg, inv_inv]

theorem shifted_pos (num : ℕ) {den : ℕ} (positive : 0 < den) (shift : ℤ) :
    0 < (shifted num den shift).2 := by
  unfold shifted
  split
  · exact positive
  · exact Nat.mul_pos positive (Nat.pow_pos (by decide))

theorem shifted_div (num den : ℕ) (shift : ℤ) :
    ((shifted num den shift).1 : ℚ) / (shifted num den shift).2 = num / den * 2 ^ shift := by
  unfold shifted
  split
  case isTrue nonneg =>
    rw [zpow_of_nonneg 2 nonneg]
    push_cast [Nat.pow_eq]
    ring
  case isFalse negative =>
    rw [zpow_of_nonpos 2 (not_le.mp negative).le]
    push_cast [Nat.pow_eq]
    rw [div_mul_eq_div_div]
    ring

/-- The logarithm of a quotient is the difference of the logarithms or one less. -/
theorem log_div {b : ℕ} (one_lt : 1 < b) {num den : ℚ} {i j : ℤ}
    (num_ge : (b : ℚ) ^ i ≤ num) (num_lt : num < (b : ℚ) ^ (i + 1))
    (den_ge : (b : ℚ) ^ j ≤ den) (den_lt : den < (b : ℚ) ^ (j + 1)) :
    Int.log b (num / den) = if num / den < (b : ℚ) ^ (i - j) then i - j - 1 else i - j := by
  have base_pos : (0 : ℚ) < b := by exact_mod_cast (Nat.zero_lt_one.trans one_lt)
  have num_pos : 0 < num := (zpow_pos base_pos i).trans_le num_ge
  have den_pos : 0 < den := (zpow_pos base_pos j).trans_le den_ge
  have below : (b : ℚ) ^ (i - j - 1) ≤ num / den := by
    rw [le_div_iff₀ den_pos]
    calc (b : ℚ) ^ (i - j - 1) * den ≤ (b : ℚ) ^ (i - j - 1) * (b : ℚ) ^ (j + 1) := by gcongr
      _ = (b : ℚ) ^ i := by rw [← zpow_add₀ base_pos.ne']; congr 1; omega
      _ ≤ num := num_ge
  have above : num / den < (b : ℚ) ^ (i - j + 1) := by
    rw [div_lt_iff₀ den_pos]
    calc num < (b : ℚ) ^ (i + 1) := num_lt
      _ = (b : ℚ) ^ (i - j + 1) * (b : ℚ) ^ j := by
          rw [← zpow_add₀ base_pos.ne']; congr 1; omega
      _ ≤ (b : ℚ) ^ (i - j + 1) * den := by gcongr
  have log_lt (k : ℤ) := Int.lt_zpow_iff_log_lt one_lt (x := k) (div_pos num_pos den_pos)
  have le_log (k : ℤ) := Int.zpow_le_iff_le_log one_lt (x := k) (div_pos num_pos den_pos)
  split
  case isTrue small =>
    have := (log_lt (i - j)).mp small
    have := (le_log (i - j - 1)).mp below
    omega
  case isFalse large =>
    have := (log_lt (i - j + 1)).mp above
    have := (le_log (i - j)).mp (not_lt.mp large)
    omega

theorem log2_mem {n : ℕ} (positive : 0 < n) :
    ((2 : ℕ) : ℚ) ^ (n.log2 : ℤ) ≤ n ∧ (n : ℚ) < ((2 : ℕ) : ℚ) ^ ((n.log2 : ℤ) + 1) := by
  constructor
  · rw [zpow_natCast]
    exact_mod_cast Nat.log2_self_le positive.ne'
  · rw [← Nat.cast_succ, zpow_natCast]
    exact_mod_cast Nat.lt_log2_self

/-- The exponent follows the binary logarithm down to the least exponent. -/
theorem exponentOf_eq {num den : ℕ} (num_pos : 0 < num) (den_pos : 0 < den) :
    exponentOf num den = max (-1074) (Int.log 2 ((num : ℚ) / den) - 52) := by
  have ⟨num_ge, num_lt⟩ := log2_mem num_pos
  have ⟨den_ge, den_lt⟩ := log2_mem den_pos
  have log_eq := log_div (by decide) num_ge num_lt den_ge den_lt
  obtain ⟨guess, guess_eq⟩ : ∃ guess : ℤ, guess = (num.log2 : ℤ) - den.log2 := ⟨_, rfl⟩
  rw [← guess_eq, Nat.cast_two] at log_eq
  have unit_pos : (0 : ℚ) < (shifted num den (-guess)).2 := by
    exact_mod_cast shifted_pos num den_pos (-guess)
  have less : (shifted num den (-guess)).1 < (shifted num den (-guess)).2 ↔
      (num : ℚ) / den < 2 ^ guess := by
    rw [← @Nat.cast_lt ℚ, ← div_lt_one unit_pos, shifted_div, zpow_neg,
      ← div_eq_mul_inv, div_lt_one (by positivity)]
  rw [exponentOf, ← guess_eq, log_eq]
  simp only [less]

/-- What a number denotes, its sign apart. -/
def size (x : Binary64) : ℚ :=
  x.mantissa * 2 ^ x.exponent

/-- The form in which a number that is not too large is kept. -/
structure Normal (x : Binary64) : Prop where
  mantissa_lt : x.mantissa < 2 ^ 53
  exponent_ge : -1074 ≤ x.exponent
  exponent_le : x.exponent ≤ 971
  full : 2 ^ 52 ≤ x.mantissa ∨ x.exponent = -1074

theorem Normal.mantissa_le {x : Binary64} (normal : x.Normal) : (x.mantissa : ℚ) ≤ 2 ^ 53 - 1 := by
  have : x.mantissa + 1 ≤ 2 ^ 53 := normal.mantissa_lt
  have : (x.mantissa + 1 : ℚ) ≤ 2 ^ 53 := by exact_mod_cast this
  linarith

/-- The values that round to a number. Those in the middle between two numbers belong to the one
with an even mantissa. -/
def Covers (x : Binary64) (value : ℚ) : Prop :=
  if x.mantissa % 2 = 0 then
    x.interval.low * 2 ^ (x.exponent - 2) ≤ value ∧ value ≤ x.interval.high * 2 ^ (x.exponent - 2)
  else
    x.interval.low * 2 ^ (x.exponent - 2) < value ∧ value < x.interval.high * 2 ^ (x.exponent - 2)

theorem interval_low (x : Binary64) : x.interval.low =
    4 * x.mantissa - if x.mantissa = 2 ^ 52 ∧ -1074 < x.exponent then 1 else 2 := rfl

theorem interval_high (x : Binary64) : x.interval.high = 4 * x.mantissa + 2 := rfl

theorem le_interval_low (x : Binary64) : (4 * x.mantissa - 2 : ℚ) ≤ x.interval.low := by
  have : 4 * x.mantissa ≤ x.interval.low + 2 := by
    rw [interval_low]
    grind
  have : (4 * x.mantissa : ℚ) ≤ x.interval.low + 2 := by exact_mod_cast this
  linarith

theorem cast_interval_high (x : Binary64) : (x.interval.high : ℚ) = 4 * x.mantissa + 2 := by
  rw [interval_high]
  push_cast
  rfl

section

variable {x : Binary64} {value : ℚ}

/-- The values that round to a number in units of its last place. -/
theorem covers_iff : x.Covers value ↔
    if x.mantissa % 2 = 0 then x.interval.low ≤ 4 * (value * 2 ^ (-x.exponent)) ∧
      4 * (value * 2 ^ (-x.exponent)) ≤ x.interval.high
    else x.interval.low < 4 * (value * 2 ^ (-x.exponent)) ∧
      4 * (value * 2 ^ (-x.exponent)) < x.interval.high := by
  have unit_pos : (0 : ℚ) < 2 ^ (x.exponent - 2) := by positivity
  have quarters : 4 * (value * 2 ^ (-x.exponent)) = value / 2 ^ (x.exponent - 2) := by
    rw [zpow_sub₀ two_ne_zero, zpow_neg]
    field_simp
    ring
  rw [quarters, le_div_iff₀ unit_pos, div_le_iff₀ unit_pos, lt_div_iff₀ unit_pos,
    div_lt_iff₀ unit_pos, Covers]

/-- The mantissa of a number is the nearest one to the values that round to it. -/
theorem Covers.isNearest (covers : x.Covers value) :
    IsNearest (value * 2 ^ (-x.exponent)) x.mantissa := by
  have low := x.le_interval_low
  rw [covers_iff, cast_interval_high] at covers
  split at covers
  case isTrue even =>
    exact ⟨abs_le.mpr ⟨by linarith, by linarith⟩, fun _ => even⟩
  case isFalse =>
    have inside := abs_lt.mpr (⟨by linarith, by linarith⟩ :
      -(1 / 2) < value * 2 ^ (-x.exponent) - x.mantissa ∧
        value * 2 ^ (-x.exponent) - x.mantissa < 1 / 2)
    exact ⟨inside.le, fun tie => absurd tie inside.ne⟩

theorem covers_of_isNearest (nonneg : 0 ≤ value)
    (nearest : IsNearest (value * 2 ^ (-x.exponent)) x.mantissa)
    (atLeast : x.mantissa = 2 ^ 52 → x.exponent = -1074 ∨ 2 ^ 52 ≤ value * 2 ^ (-x.exponent)) :
    x.Covers value := by
  obtain ⟨scaled, scaled_eq⟩ : ∃ scaled, scaled = value * 2 ^ (-x.exponent) := ⟨_, rfl⟩
  have scaled_nonneg : 0 ≤ scaled := by rw [scaled_eq]; positivity
  rw [← scaled_eq] at nearest atLeast
  have ⟨close, tie⟩ := nearest
  have ⟨below, above⟩ := abs_le.mp close
  rw [covers_iff, cast_interval_high, ← scaled_eq]
  split
  case isTrue even =>
    refine ⟨?_, by linarith⟩
    rw [interval_low]
    split
    case isTrue edge =>
      have full := (atLeast edge.1).resolve_left (by omega)
      rw [edge.1]
      push_cast
      linarith
    case isFalse =>
      by_cases zero : x.mantissa = 0
      · rw [zero]
        simpa using scaled_nonneg
      · rw [Nat.cast_sub (by omega)]
        push_cast
        linarith
  case isFalse odd =>
    have ⟨below, above⟩ := abs_lt.mp (lt_of_le_of_ne close (fun half => odd (tie half)))
    have notEdge : ¬(x.mantissa = 2 ^ 52 ∧ -1074 < x.exponent) := by omega
    refine ⟨?_, by linarith⟩
    rw [interval_low, if_neg notEdge, Nat.cast_sub (by omega)]
    push_cast
    linarith

end

/-- Where the mantissa of a value fills its bits, if the exponent can be so small. -/
theorem scaled_mem {value : ℚ} (positive : 0 < value) {exponent : ℤ}
    (exponent_eq : exponent = max (-1074) (Int.log 2 value - 52)) :
    value * 2 ^ (-exponent) < 2 ^ 53 ∧
      (exponent = -1074 ∨ 2 ^ 52 ≤ value * 2 ^ (-exponent)) := by
  have log_lt := Int.lt_zpow_succ_log_self (b := 2) (by decide) value
  have le_log := Int.zpow_log_le_self (b := 2) (by decide) positive
  push_cast at log_lt le_log
  constructor
  · calc value * 2 ^ (-exponent) < 2 ^ (Int.log 2 value + 1) * 2 ^ (-exponent) := by gcongr
      _ = 2 ^ (Int.log 2 value + 1 - exponent) := by rw [← zpow_add₀ two_ne_zero]; congr 1
      _ ≤ 2 ^ (53 : ℤ) := zpow_le_zpow_right₀ one_le_two (by omega)
      _ = 2 ^ 53 := by norm_num
  · refine (em (exponent = -1074)).imp_right (fun notLeast => ?_)
    calc (2 : ℚ) ^ 52 = 2 ^ (52 : ℤ) := by norm_num
      _ ≤ 2 ^ (Int.log 2 value - exponent) := zpow_le_zpow_right₀ one_le_two (by omega)
      _ = 2 ^ Int.log 2 value * 2 ^ (-exponent) := by rw [← zpow_add₀ two_ne_zero]; congr 1
      _ ≤ value * 2 ^ (-exponent) := by gcongr

theorem exponent_eq_of_scaled {value : ℚ} (positive : 0 < value) {exponent : ℤ}
    (least : -1074 ≤ exponent) (lt : value * 2 ^ (-exponent) < 2 ^ 53)
    (full : exponent = -1074 ∨ 2 ^ 52 ≤ value * 2 ^ (-exponent)) :
    max (-1074) (Int.log 2 value - 52) = exponent := by
  have unit_pos : (0 : ℚ) < 2 ^ exponent := by positivity
  have scaled : value * 2 ^ (-exponent) = value / 2 ^ exponent := by
    rw [zpow_neg, div_eq_mul_inv]
  rw [scaled, div_lt_iff₀ unit_pos, ← zpow_natCast, ← zpow_add₀ two_ne_zero] at lt
  rw [scaled, le_div_iff₀ unit_pos, ← zpow_natCast, ← zpow_add₀ two_ne_zero] at full
  have log_lt := (Int.lt_zpow_iff_log_lt (b := 2) (by decide) positive).mp
    (by exact_mod_cast lt)
  obtain least | full := full
  · omega
  · have le_log := (Int.zpow_le_iff_le_log (b := 2) (by decide) positive).mp
      (by exact_mod_cast full)
    omega

/-- A mantissa that overflows by rounding is halved. -/
def carried (negative : Bool) (mantissa : ℕ) (exponent : ℤ) : Binary64 :=
  if mantissa = 2 ^ 53 then ⟨negative, 2 ^ 52, exponent + 1⟩ else ⟨negative, mantissa, exponent⟩

section

variable {value : ℚ} (positive : 0 < value) {mantissa : ℕ} {exponent : ℤ}
  (exponent_eq : exponent = max (-1074) (Int.log 2 value - 52))
  (nearest : IsNearest (value * 2 ^ (-exponent)) mantissa) (negative : Bool)

include positive exponent_eq nearest

theorem carried_normal (le : (carried negative mantissa exponent).exponent ≤ 971) :
    (carried negative mantissa exponent).Normal := by
  have ⟨lt, full⟩ := scaled_mem positive exponent_eq
  have ⟨below, above⟩ := abs_le.mp nearest.1
  have mantissa_le : mantissa ≤ 2 ^ 53 := by
    have : (mantissa : ℚ) < (2 ^ 53 + 1 : ℕ) := by push_cast; linarith
    have : mantissa < 2 ^ 53 + 1 := by exact_mod_cast this
    omega
  have mantissa_ge : exponent = -1074 ∨ 2 ^ 52 ≤ mantissa := full.imp_right (fun full => by
    have : ((2 ^ 52 : ℕ) : ℚ) < (mantissa + 1 : ℕ) := by push_cast; linarith
    have : 2 ^ 52 < mantissa + 1 := by exact_mod_cast this
    omega)
  unfold carried at le ⊢
  split at le
  case isTrue overflow =>
    rw [if_pos overflow]
    exact ⟨by norm_num, by dsimp only; omega, le, .inl le_rfl⟩
  case isFalse fits =>
    rw [if_neg fits]
    exact ⟨by dsimp only; omega, by dsimp only; omega, le, mantissa_ge.symm⟩

theorem carried_covers : (carried negative mantissa exponent).Covers value := by
  have ⟨lt, full⟩ := scaled_mem positive exponent_eq
  have ⟨below, above⟩ := abs_le.mp nearest.1
  unfold carried
  split
  case isTrue overflow =>
    rw [overflow] at below
    have halved : 4 * (value * 2 ^ (-(exponent + 1))) = 2 * (value * 2 ^ (-exponent)) := by
      rw [neg_add, zpow_add₀ two_ne_zero]
      ring
    have low : (⟨negative, 2 ^ 52, exponent + 1⟩ : Binary64).interval.low = 2 ^ 54 - 1 := by
      rw [interval_low, if_pos ⟨rfl, by dsimp only; omega⟩]
      norm_num
    have high : (⟨negative, 2 ^ 52, exponent + 1⟩ : Binary64).interval.high = 2 ^ 54 + 2 := by
      rw [interval_high]
      norm_num
    rw [covers_iff, if_pos (by norm_num), halved, low, high]
    push_cast at below ⊢
    constructor <;> linarith
  case isFalse fits =>
    exact covers_of_isNearest positive.le nearest (fun _ => full)

/-- The number is the only normal one that the value rounds to. -/
theorem eq_carried {x : Binary64} (normal : x.Normal) (covers : x.Covers value) :
    carried x.negative mantissa exponent = x := by
  have nearestOf := covers.isNearest
  have ⟨below, above⟩ := abs_le.mp nearestOf.1
  have mantissa_le := normal.mantissa_le
  by_cases full : x.exponent = -1074 ∨ 2 ^ 52 ≤ value * 2 ^ (-x.exponent)
  · have same : exponent = x.exponent :=
      exponent_eq.trans (exponent_eq_of_scaled positive normal.exponent_ge (by linarith) full)
    subst same
    obtain rfl := nearest.unique nearestOf
    exact if_neg (by have := normal.mantissa_lt; omega)
  · -- The value is just below a power of two, where the exponent is one less.
    obtain ⟨notLeast, notFull⟩ := not_or.mp full
    have full := normal.full.resolve_right notLeast
    have edge : x.mantissa = 2 ^ 52 := by
      have : (x.mantissa : ℚ) < (2 ^ 52 + 1 : ℕ) := by push_cast; linarith
      have : x.mantissa < 2 ^ 52 + 1 := by exact_mod_cast this
      omega
    have even : x.mantissa % 2 = 0 := by rw [edge]; norm_num
    rw [covers_iff, if_pos even, interval_low, if_pos ⟨edge, by have := normal.exponent_ge; omega⟩,
      edge] at covers
    have close : 2 ^ 54 - 1 ≤ 4 * (value * 2 ^ (-x.exponent)) := by
      refine le_trans ?_ covers.1
      norm_num
    have doubled : value * 2 ^ (-(x.exponent - 1)) = 2 * (value * 2 ^ (-x.exponent)) := by
      rw [show -(x.exponent - 1) = -x.exponent + 1 by ring, zpow_add_one₀ two_ne_zero]
      ring
    have same : exponent = x.exponent - 1 :=
      exponent_eq.trans (exponent_eq_of_scaled positive (by have := normal.exponent_ge; omega)
        (by linarith) (.inr (by linarith)))
    subst same
    have nearestOf : IsNearest (value * 2 ^ (-(x.exponent - 1))) (2 ^ 53) := by
      rw [doubled]
      refine ⟨abs_le.mpr ⟨?_, ?_⟩, fun _ => by norm_num⟩ <;> push_cast <;> linarith
    obtain rfl := nearest.unique nearestOf
    rw [carried, if_pos rfl, sub_add_cancel, ← edge]

end

section

variable {num den : ℕ} (den_pos : 0 < den) (negative : Bool)

include den_pos

theorem exists_round?_eq (num_pos : 0 < num) : ∃ mantissa exponent,
    exponent = max (-1074) (Int.log 2 ((num : ℚ) / den) - 52) ∧
    IsNearest (num / den * 2 ^ (-exponent)) mantissa ∧
    round? negative num den = if (carried negative mantissa exponent).exponent ≤ 971
      then some (carried negative mantissa exponent) else none := by
  refine ⟨roundDiv (shifted num den (-exponentOf num den)).1
    (shifted num den (-exponentOf num den)).2, _, exponentOf_eq num_pos den_pos, ?_, ?_⟩
  · rw [← shifted_div]
    exact isNearest_roundDiv _ (shifted_pos num den_pos _)
  · rw [round?, if_neg (by omega)]
    rfl

theorem round?_eq_some_iff (x : Binary64) : round? negative num den = some x ↔
    x.negative = negative ∧ x.Normal ∧ x.Covers (num / den) := by
  have nonneg : (0 : ℚ) ≤ num / den := by positivity
  obtain rfl | num_pos := Nat.eq_zero_or_pos num
  · rw [round?, if_pos rfl, Option.some_inj, Nat.cast_zero, zero_div]
    constructor
    · rintro rfl
      refine ⟨rfl, ⟨by norm_num, le_rfl, by norm_num, .inr rfl⟩, ?_⟩
      exact covers_of_isNearest le_rfl (by norm_num [IsNearest]) (fun edge => by norm_num at edge)
    · rintro ⟨rfl, normal, covers⟩
      have ⟨below, _⟩ := abs_le.mp covers.isNearest.1
      have mantissa_eq : x.mantissa = 0 := by
        have : (x.mantissa : ℚ) < (1 : ℕ) := by push_cast; linarith
        have : x.mantissa < 1 := by exact_mod_cast this
        omega
      have exponent_eq := normal.full.resolve_left (by rw [mantissa_eq]; norm_num)
      rw [← mantissa_eq, ← exponent_eq]
  have positive : (0 : ℚ) < num / den := by positivity
  obtain ⟨mantissa, exponent, exponent_eq, nearest, rounded⟩ :=
    exists_round?_eq den_pos negative num_pos
  rw [rounded]
  constructor
  · intro same
    split at same
    case isTrue le =>
      obtain rfl := Option.some.inj same
      exact ⟨by unfold carried; split <;> rfl,
        carried_normal positive exponent_eq nearest negative le,
        carried_covers positive exponent_eq nearest negative⟩
    case isFalse => cases same
  · rintro ⟨rfl, normal, covers⟩
    rw [eq_carried positive exponent_eq nearest normal covers, if_pos normal.exponent_le]

example : round? true (2 ^ 53 + 1) 1 = some ⟨true, 2 ^ 52, 1⟩ := by decide +kernel

end

theorem scaled_size (x : Binary64) : x.size * 2 ^ (-x.exponent) = x.mantissa := by
  rw [size, mul_assoc, ← zpow_add₀ two_ne_zero, add_neg_cancel, zpow_zero, mul_one]

theorem covers_size (x : Binary64) : x.Covers x.size := by
  have nonneg : 0 ≤ x.size := by
    unfold size
    positivity
  refine covers_of_isNearest nonneg ?_ (fun edge => .inr ?_)
  · rw [scaled_size, IsNearest, sub_self]
    norm_num
  · rw [scaled_size, edge]
    norm_num

theorem magnitude_div (x : Binary64) : (x.magnitude.1 : ℚ) / x.magnitude.2 = x.size := by
  rw [magnitude, shifted_div, Nat.cast_one, div_one, size]

theorem magnitude_pos (x : Binary64) : 0 < x.magnitude.2 :=
  shifted_pos x.mantissa Nat.one_pos x.exponent

/-- A number is rounded to itself. -/
theorem round?_magnitude {x : Binary64} (normal : x.Normal) :
    round? x.negative x.magnitude.1 x.magnitude.2 = some x := by
  rw [round?_eq_some_iff x.magnitude_pos, magnitude_div]
  exact ⟨rfl, normal, x.covers_size⟩

theorem Normal.eq_of_size_eq {x y : Binary64} (first : x.Normal) (second : y.Normal)
    (sign : x.negative = y.negative) (same : x.size = y.size) : x = y := by
  have other := (round?_eq_some_iff x.magnitude_pos x.negative y).mpr
    ⟨sign.symm, second, by rw [magnitude_div, same]; exact y.covers_size⟩
  exact Option.some.inj ((round?_magnitude first).symm.trans other)

section

variable {x y : Binary64} (first : x.Normal) (second : y.Normal)

theorem size_lt_iff (x y : Binary64) :
    x.size < y.size ↔ (x.mantissa : ℚ) < y.size * 2 ^ (-x.exponent) := by
  rw [← scaled_size, mul_lt_mul_iff_left₀ (by positivity)]

theorem lt_size_iff (x y : Binary64) :
    y.size < x.size ↔ y.size * 2 ^ (-x.exponent) < x.mantissa := by
  rw [← scaled_size, mul_lt_mul_iff_left₀ (by positivity)]

include first second

/-- In units of the last place of a number, others are whole or below all normal mantissas. -/
theorem Normal.scaled_whole_or_small : (∃ n : ℕ, y.size * 2 ^ (-x.exponent) = n) ∨
    2 ^ 52 ≤ x.mantissa ∧ -1074 < x.exponent ∧ y.size * 2 ^ (-x.exponent) ≤ 2 ^ 52 - 1 / 2 := by
  have scaled : y.size * 2 ^ (-x.exponent) = y.mantissa * 2 ^ (y.exponent - x.exponent) := by
    rw [size, mul_assoc, ← zpow_add₀ two_ne_zero, sub_eq_add_neg]
  rw [scaled]
  by_cases le : x.exponent ≤ y.exponent
  · left
    refine ⟨y.mantissa * 2 ^ (y.exponent - x.exponent).toNat, ?_⟩
    rw [zpow_of_nonneg 2 (sub_nonneg.mpr le)]
    push_cast
    rfl
  · right
    have notLeast : -1074 < x.exponent := by have := second.exponent_ge; omega
    have half : (2 : ℚ) ^ (y.exponent - x.exponent) ≤ 1 / 2 := by
      calc (2 : ℚ) ^ (y.exponent - x.exponent) ≤ 2 ^ (-1 : ℤ) :=
            zpow_le_zpow_right₀ one_le_two (by omega)
        _ = 1 / 2 := by norm_num
    have mantissa_le := second.mantissa_le
    refine ⟨first.full.resolve_right (by omega), notLeast, ?_⟩
    calc y.mantissa * (2 : ℚ) ^ (y.exponent - x.exponent) ≤ (2 ^ 53 - 1) * (1 / 2) := by gcongr
      _ = 2 ^ 52 - 1 / 2 := by norm_num

/-- The values that round to a number reach no further than halfway to the next one. -/
theorem Normal.high_le (less : x.size < y.size) :
    (2 * x.interval.high : ℚ) ≤ 4 * (x.mantissa + y.size * 2 ^ (-x.exponent)) := by
  have less := (size_lt_iff x y).mp less
  have high := x.cast_interval_high
  obtain ⟨n, whole⟩ | ⟨full, _, small⟩ := first.scaled_whole_or_small second
  · rw [whole] at less ⊢
    have : (x.mantissa + 1 : ℚ) ≤ n := by exact_mod_cast less
    linarith
  · have : (2 ^ 52 : ℚ) ≤ x.mantissa := by exact_mod_cast full
    linarith

theorem Normal.le_low (less : y.size < x.size) :
    4 * (x.mantissa + y.size * 2 ^ (-x.exponent)) ≤ (2 * x.interval.low : ℚ) := by
  have less := (lt_size_iff x y).mp less
  have low := x.le_interval_low
  obtain ⟨n, whole⟩ | ⟨full, notLeast, small⟩ := first.scaled_whole_or_small second
  · rw [whole] at less ⊢
    have : (n + 1 : ℚ) ≤ x.mantissa := by exact_mod_cast less
    linarith
  · obtain edge | above := Nat.eq_or_lt_of_le full
    · rw [interval_low, if_pos ⟨edge.symm, notLeast⟩, ← edge]
      push_cast
      linarith
    · have : (2 ^ 52 + 1 : ℚ) ≤ x.mantissa := by exact_mod_cast above
      linarith

end

theorem abs_sub_le_abs_sub_iff (s a b : ℚ) :
    |s - a| ≤ |s - b| ↔ 0 ≤ (b - a) * (a + b - 2 * s) := by
  rw [← sq_le_sq, ← sub_nonneg, show (s - b) ^ 2 - (s - a) ^ 2 = (b - a) * (a + b - 2 * s) by ring]

theorem abs_sub_eq_abs_sub_iff (s a b : ℚ) :
    |s - a| = |s - b| ↔ b = a ∨ 2 * s = a + b := by
  rw [← sq_eq_sq_iff_abs_eq_abs, ← sub_eq_zero,
    show (s - a) ^ 2 - (s - b) ^ 2 = (b - a) * (2 * s - (a + b)) by ring, mul_eq_zero, sub_eq_zero,
    sub_eq_zero]

/-- A value is rounded to a number that is as near as any, with an even mantissa where another
is as near. -/
theorem Covers.nearest {x y : Binary64} {value : ℚ} (covers : x.Covers value) (first : x.Normal)
    (second : y.Normal) : |value - x.size| ≤ |value - y.size| ∧
      (|value - x.size| = |value - y.size| → y.size = x.size ∨ x.mantissa % 2 = 0) := by
  have unit_pos : (0 : ℚ) < 2 ^ (-x.exponent) := by positivity
  have scaled (z : ℚ) : |value - z| * 2 ^ (-x.exponent) =
      |value * 2 ^ (-x.exponent) - z * 2 ^ (-x.exponent)| := by
    rw [← sub_mul, abs_mul, abs_of_pos unit_pos]
  rw [← mul_le_mul_iff_left₀ unit_pos, ← mul_left_inj' unit_pos.ne', scaled, scaled, scaled_size,
    abs_sub_le_abs_sub_iff, abs_sub_eq_abs_sub_iff]
  rw [covers_iff] at covers
  obtain less | same | more := lt_trichotomy x.size y.size
  · have high := first.high_le second less
    have less := (size_lt_iff x y).mp less
    split at covers
    case isTrue even =>
      exact ⟨mul_nonneg (by linarith) (by linarith), fun _ => .inr even⟩
    case isFalse =>
      refine ⟨mul_nonneg (by linarith) (by linarith), ?_⟩
      rintro (same | middle) <;> linarith
  · rw [← same, scaled_size]
    exact ⟨by rw [sub_self, zero_mul], fun _ => .inl rfl⟩
  · have low := first.le_low second more
    have more := (lt_size_iff x y).mp more
    split at covers
    case isTrue even =>
      exact ⟨mul_nonneg_of_nonpos_of_nonpos (by linarith) (by linarith), fun _ => .inr even⟩
    case isFalse =>
      refine ⟨mul_nonneg_of_nonpos_of_nonpos (by linarith) (by linarith), ?_⟩
      rintro (same | middle) <;> linarith

theorem Covers.scaled_lt {x : Binary64} {value : ℚ} (covers : x.Covers value) (normal : x.Normal) :
    value * 2 ^ (-x.exponent) < 2 ^ 53 - 1 / 2 := by
  rw [covers_iff, cast_interval_high] at covers
  split at covers
  case isTrue even =>
    have : x.mantissa + 2 ≤ 2 ^ 53 := by have := normal.mantissa_lt; omega
    have : (x.mantissa + 2 : ℚ) ≤ 2 ^ 53 := by exact_mod_cast this
    linarith
  case isFalse =>
    linarith [normal.mantissa_le]

section

variable {num den : ℕ} (den_pos : 0 < den) (negative : Bool)

include den_pos

/-- Values are too large from halfway between the largest number and the next power of two. -/
theorem round?_eq_none_iff :
    round? negative num den = none ↔ (2 ^ 53 - 1 / 2) * 2 ^ (971 : ℤ) ≤ (num / den : ℚ) := by
  have unscaled (exponent : ℤ) :
      (num / den : ℚ) = num / den * 2 ^ (-exponent) * 2 ^ exponent := by
    rw [mul_assoc, ← zpow_add₀ two_ne_zero, neg_add_cancel, zpow_zero, mul_one]
  constructor
  · intro rounded
    obtain rfl | num_pos := Nat.eq_zero_or_pos num
    · rw [round?, if_pos rfl] at rounded
      cases rounded
    have positive : (0 : ℚ) < num / den := by positivity
    obtain ⟨mantissa, exponent, exponent_eq, nearest, eq⟩ :=
      exists_round?_eq den_pos negative num_pos
    have ⟨below, _⟩ := abs_le.mp nearest.1
    have large : 971 < (carried negative mantissa exponent).exponent := by
      by_contra small
      rw [eq, if_pos (not_lt.mp small)] at rounded
      cases rounded
    rw [unscaled exponent]
    by_cases overflow : mantissa = 2 ^ 53
    · rw [overflow] at below
      push_cast at below
      rw [carried, if_pos overflow] at large
      have le : 971 ≤ exponent := Int.lt_add_one_iff.mp large
      have power : (2 : ℚ) ^ (971 : ℤ) ≤ 2 ^ exponent := zpow_le_zpow_right₀ one_le_two le
      exact mul_le_mul (by linarith) power (by positivity) (by positivity)
    · rw [carried, if_neg overflow] at large
      have le : 971 + 1 ≤ exponent := large
      have full := (scaled_mem positive exponent_eq).2.resolve_left (by omega)
      have power : (2 : ℚ) ^ (971 + 1 : ℤ) ≤ 2 ^ exponent := zpow_le_zpow_right₀ one_le_two le
      calc ((2 : ℚ) ^ 53 - 1 / 2) * 2 ^ (971 : ℤ) ≤ 2 ^ 52 * 2 * 2 ^ (971 : ℤ) :=
            mul_le_mul_of_nonneg_right (by norm_num) (by positivity)
        _ = 2 ^ 52 * 2 ^ (971 + 1 : ℤ) := by rw [zpow_add_one₀ two_ne_zero]; ring
        _ ≤ num / den * 2 ^ (-exponent) * 2 ^ exponent :=
            mul_le_mul full power (by positivity) (by positivity)
  · intro large
    by_contra some'
    obtain ⟨x, rounded⟩ := Option.ne_none_iff_exists'.mp some'
    obtain ⟨-, normal, covers⟩ := (round?_eq_some_iff den_pos negative x).mp rounded
    have power : (2 : ℚ) ^ x.exponent ≤ 2 ^ (971 : ℤ) :=
      zpow_le_zpow_right₀ one_le_two normal.exponent_le
    refine absurd large (not_le.mpr ?_)
    rw [unscaled x.exponent]
    exact mul_lt_mul (covers.scaled_lt normal) power (by positivity) (by norm_num)

end

end Statechart.Binary64
