import Statechart.Proofs.Decimal.Text

set_option autoImplicit false

namespace Statechart

namespace Binary64

/-- Rounding depends on the value only. -/
theorem round?_congr {num den num' den' : ℕ} (den_pos : 0 < den) (den_pos' : 0 < den')
    (same : (num : ℚ) / den = num' / den') (negative : Bool) :
    round? negative num den = round? negative num' den' := by
  ext x
  rw [round?_eq_some_iff den_pos, round?_eq_some_iff den_pos', same]

/-- Numbers of at most 53 bits are kept, zeros at the end apart. -/
theorem round?_exact (negative : Bool) {bits : ℕ} (short : bits < 2 ^ 53) {zeros : ℕ}
    (few : zeros ≤ 900) :
    ∃ x, round? negative (bits * 2 ^ zeros) 1 = some x ∧ x.size = bits * 2 ^ zeros := by
  obtain rfl | positive := Nat.eq_zero_or_pos bits
  · refine ⟨⟨negative, 0, -1074⟩, by rw [Nat.zero_mul]; rfl, ?_⟩
    rw [size, Nat.cast_zero, zero_mul, zero_mul]
  · have log_le : bits.log2 ≤ 52 := Nat.le_of_lt_succ ((Nat.log2_lt positive.ne').mpr short)
    obtain ⟨shift, shift_eq⟩ : ∃ shift, bits.log2 + shift = 52 := ⟨52 - bits.log2, by omega⟩
    obtain ⟨x, x_eq⟩ : ∃ x : Binary64, x = ⟨negative, bits * 2 ^ shift, zeros - shift⟩ := ⟨_, rfl⟩
    have size_eq : x.size = bits * 2 ^ zeros := by
      rw [x_eq, size]
      push_cast
      rw [mul_assoc, ← zpow_natCast, ← zpow_natCast, ← zpow_add₀ two_ne_zero, add_sub_cancel]
    have full : 2 ^ 52 ≤ bits * 2 ^ shift := by
      rw [← shift_eq, Nat.pow_add]
      exact Nat.mul_le_mul_right _ (Nat.log2_self_le positive.ne')
    have lt : bits * 2 ^ shift < 2 ^ 53 := by
      rw [show 53 = bits.log2 + 1 + shift by omega, Nat.pow_add]
      exact Nat.mul_lt_mul_of_pos_right Nat.lt_log2_self (Nat.pow_pos two_pos)
    have normal : x.Normal := by
      subst x_eq
      exact ⟨lt, by dsimp only; omega, by dsimp only; omega, .inl full⟩
    refine ⟨x, (round?_eq_some_iff Nat.one_pos negative x).mpr ⟨by rw [x_eq], normal, ?_⟩, size_eq⟩
    have same : ((bits * 2 ^ zeros : ℕ) : ℚ) / (1 : ℕ) = x.size := by
      rw [size_eq]
      push_cast
      rw [div_one]
    rw [same]
    exact x.covers_size

theorem round?_ten_pow {k : ℕ} (small : k ≤ 22) :
    ∃ x, round? false (10 ^ k) 1 = some x ∧ x.size = 10 ^ k := by
  have short : 5 ^ k < 2 ^ 53 := (Nat.pow_le_pow_right (by norm_num) small).trans_lt (by norm_num)
  obtain ⟨x, rounded, size_eq⟩ := round?_exact false short (show k ≤ 900 by omega)
  rw [← Nat.mul_pow] at rounded
  refine ⟨x, rounded, ?_⟩
  rw [size_eq]
  push_cast
  rw [← mul_pow]
  norm_num

section

variable {x factor : Binary64} {n : ℕ} (exact : round? false n 1 = some factor)
  (size_eq : factor.size = n) {num den : ℕ} (den_pos : 0 < den)

include exact size_eq den_pos

theorem mulNat?_eq_round? (value : (num : ℚ) / den = x.size * n) :
    x.mulNat? n = round? x.negative num den := by
  have same : ((x.magnitude.1 * factor.magnitude.1 : ℕ) : ℚ) /
      (x.magnitude.2 * factor.magnitude.2 : ℕ) = num / den := by
    rw [Nat.cast_mul, Nat.cast_mul, mul_div_mul_comm, magnitude_div, magnitude_div, size_eq, value]
  rw [mulNat?, exact]
  exact round?_congr (Nat.mul_pos x.magnitude_pos factor.magnitude_pos) den_pos same _

theorem divNat?_eq_round? (positive : 0 < n) (value : (num : ℚ) / den = x.size / n) :
    x.divNat? n = round? x.negative num den := by
  have some' : 0 < factor.magnitude.1 := by
    rw [Nat.pos_iff_ne_zero]
    intro zero
    have none_left := magnitude_div factor
    rw [zero, Nat.cast_zero, zero_div, size_eq] at none_left
    exact positive.ne (by exact_mod_cast none_left)
  have same : ((x.magnitude.1 * factor.magnitude.2 : ℕ) : ℚ) /
      (x.magnitude.2 * factor.magnitude.1 : ℕ) = num / den := by
    rw [Nat.cast_mul, Nat.cast_mul, ← div_div_div_eq, magnitude_div, magnitude_div, size_eq, value]
  rw [divNat?, exact]
  exact round?_congr (Nat.mul_pos x.magnitude_pos some') den_pos same _

end

end Binary64

namespace Numeral

open Binary64

theorem le_foldl (ds : List ℕ) (n : ℕ) : n ≤ ds.foldl (fun n d => 10 * n + d) n := by
  induction ds generalizing n with
  | nil => exact le_rfl
  | cons d ds ih => exact (by omega : n ≤ 10 * n + d).trans (ih _)

/-- While they fit a word, all digits are read. -/
theorem accumulate_eq (ds : List ℕ) (n : ℕ)
    (fits : ds.foldl (fun n d => 10 * n + d) n < UInt64.size) :
    accumulate n ds = (ds.foldl (fun n d => 10 * n + d) n, ds.length) := by
  induction ds generalizing n with
  | nil => rfl
  | cons d ds ih =>
    rw [accumulate, if_pos ((le_foldl ds _).trans_lt fits), ih _ fits]
    rfl

/-- The power of ten that a numeral is scaled by is divided or multiplied by at once. -/
theorem scaleDown_eq (x : Binary64) {power : ℕ} (small : power ≤ 308) :
    scaleDown x power = x.divNat? (Nat.pow 10 power) := by
  rw [scaleDown, dif_pos small]

theorem float?_eq {n : Numeral} (fits : n.significand < UInt64.size) {x : Binary64}
    (rounded : round? n.negative n.significand 1 = some x) :
    n.float? = if x.isZero then some x
      else if n.power < 0 then scaleDown x n.power.natAbs
      else if n.power ≤ 308 then x.mulNat? (Nat.pow 10 n.power.toNat) else none := by
  have joined : n.significand = (n.fraction.getD []).foldl (fun n d => 10 * n + d)
      (ofDigits n.whole) := List.foldl_append
  have whole_read : accumulate 0 n.whole = (ofDigits n.whole, n.whole.length) :=
    accumulate_eq n.whole 0 (((le_foldl _ _).trans_eq joined.symm).trans_lt fits)
  have fraction_read := accumulate_eq (n.fraction.getD []) (ofDigits n.whole) (joined ▸ fits)
  rw [← joined] at fraction_read
  have power_eq : ((n.whole.length - n.whole.length : ℕ) : ℤ) - ((n.fraction.getD []).length : ℤ) +
      n.exponent.getD 0 = n.power := by
    rw [power]
    omega
  rw [float?, whole_read]
  dsimp only
  rw [fraction_read]
  dsimp only
  rw [power_eq, rounded]
  rfl

/-- A numeral is read as the nearest number if its digits and the power of ten that scales them
are binary64 numbers themselves. Otherwise they are rounded before. -/
theorem float?_eq_round? {n : Numeral} (short : n.significand < 2 ^ 53) (near : |n.power| ≤ 22) :
    n.float? = round? n.negative (decimalFraction n.significand n.power).1
      (decimalFraction n.significand n.power).2 := by
  have ⟨power_ge, power_le⟩ := abs_le.mp near
  obtain ⟨x, rounded, size_eq⟩ := round?_exact n.negative short (Nat.zero_le 900)
  rw [Nat.pow_zero, Nat.mul_one] at rounded
  rw [pow_zero, mul_one] at size_eq
  have sign := ((round?_eq_some_iff Nat.one_pos _ _).mp rounded).1
  have value := decimalFraction_div n.significand n.power
  have den_pos := decimalFraction_pos n.significand n.power
  rw [float?_eq (short.trans (by norm_num)) rounded]
  split_ifs with zero negative large
  · have none_left : x.size = 0 := by
      rw [size, show x.mantissa = 0 by simpa [isZero] using zero, Nat.cast_zero, zero_mul]
    rw [← rounded]
    refine round?_congr Nat.one_pos den_pos ?_ _
    rw [value, ← size_eq, none_left, zero_div, zero_mul]
  · obtain ⟨factor, exact, factor_size⟩ := round?_ten_pow (show n.power.natAbs ≤ 22 by omega)
    have power_eq : (10 : ℚ) ^ n.power = (10 ^ n.power.natAbs)⁻¹ := by
      rw [← zpow_natCast, ← zpow_neg]
      congr 1
      omega
    rw [scaleDown_eq x (by omega), ← sign]
    refine divNat?_eq_round? exact (by push_cast; exact factor_size) den_pos (by positivity) ?_
    rw [value, size_eq, power_eq]
    push_cast
    rw [div_eq_mul_inv]
  · obtain ⟨factor, exact, factor_size⟩ := round?_ten_pow (show n.power.toNat ≤ 22 by omega)
    rw [← sign]
    refine mulNat?_eq_round? exact (by push_cast; exact factor_size) den_pos ?_
    rw [value, size_eq, zpow_of_nonneg 10 (not_lt.mp negative)]
    push_cast
    rfl
  · omega

/-- A number is read back from its text if that is short enough. -/
theorem float?_of_text {x : Binary64} (normal : x.Normal) {n : Numeral}
    (read : ofChars? x.text.toList = some n) (short : n.significand < 2 ^ 53)
    (near : |n.power| ≤ 22) : n.float? = some x := by
  obtain ⟨n', read', sign, value, -⟩ := text_writes normal
  obtain rfl : n = n' := Option.some.inj (read.symm.trans read')
  rw [float?_eq_round? short near, sign, ← round?_shortest normal]
  apply round?_congr (decimalFraction_pos _ _) (decimalFraction_pos _ _)
  rw [decimalFraction_div, decimalFraction_div]
  exact value

end Numeral

end Statechart
