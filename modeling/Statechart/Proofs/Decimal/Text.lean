import Statechart.Proofs.Decimal.Numeral
import Statechart.Proofs.Decimal.Shortest

set_option autoImplicit false

namespace Statechart

namespace Numeral

/-- All digits of a numeral as one number. -/
def significand (n : Numeral) : ℕ :=
  ofDigits (n.whole ++ n.fraction.getD [])

/-- The power of ten that the significand is scaled by. -/
def power (n : Numeral) : ℤ :=
  n.exponent.getD 0 - (n.fraction.getD []).length

/-- What a numeral denotes, its sign apart. -/
def magnitude (n : Numeral) : ℚ :=
  n.significand * 10 ^ n.power

/-- The characters of a numeral that is not read as an integer. -/
def Writes (cs : List Char) (negative : Bool) (value : ℚ) : Prop :=
  ∃ n, ofChars? cs = some n ∧ n.negative = negative ∧ n.magnitude = value ∧
    (n.fraction ≠ none ∨ n.exponent ≠ none)

theorem exponentPart?_exponentText (e : ℤ) :
    exponentPart? ('e' :: (Binary64.exponentText e).toList) = some (some e) := by
  obtain ⟨first, more, written⟩ := List.exists_cons_of_ne_nil (digitsOf_ne_nil e.natAbs)
  have value : ofDigits (first :: more) = e.natAbs := by rw [← written, ofDigits_digitsOf]
  have read := digits_toDigits e.natAbs
  rw [← Nat.toList_repr, written] at read
  by_cases negative : e < 0
  · have text : (Binary64.exponentText e).toList = '-' :: e.natAbs.repr.toList := by
      rw [Binary64.exponentText, if_pos negative, String.toList_append]
      rfl
    rw [text, exponentPart?, if_pos (.inl rfl)]
    simp only [read, value, if_true]
    congr 2
    omega
  · have text : (Binary64.exponentText e).toList = '+' :: e.natAbs.repr.toList := by
      rw [Binary64.exponentText, if_neg negative, String.toList_append]
      rfl
    rw [text, exponentPart?, if_pos (.inl rfl)]
    simp only [read, value, Bool.false_eq_true, if_false]
    congr 2
    omega

/-- The characters of a numeral with a sign in front if it has one. -/
def signed (negative : Bool) (cs : List Char) : List Char :=
  if negative then '-' :: cs else cs

section

variable (negative : Bool) {whole : List Char} (whole_digits : ∀ c ∈ whole, c.isDigit = true)
  (whole_ne : whole ≠ []) (front : whole.head? ≠ some '0' ∨ whole = ['0'])

include whole_digits front

theorem no_leading_zero (second : ℕ) (more : List ℕ) : valuesOf whole ≠ 0 :: second :: more := by
  obtain front | rfl := front
  · exact valuesOf_ne_zero_cons whole_digits front _
  · exact nofun

include whole_ne

theorem writes_fraction {fraction tail : List Char} {exponent : Option ℤ}
    (fraction_digits : ∀ c ∈ fraction, c.isDigit = true) (fraction_ne : fraction ≠ [])
    (stop : ∀ c ∈ tail.head?, c.isDigit = false) (last : exponentPart? tail = some exponent) :
    Writes (signed negative (whole ++ '.' :: (fraction ++ tail))) negative
      (Nat.ofDigitChars 10 (whole ++ fraction) 0 * 10 ^ (exponent.getD 0 - fraction.length)) := by
  have joined : valuesOf whole ++ valuesOf fraction = valuesOf (whole ++ fraction) :=
    List.map_append.symm
  refine ⟨⟨negative, valuesOf whole, some (valuesOf fraction), exponent⟩, ?_, rfl, ?_, .inl nofun⟩
  · rw [signed, ofChars?_fraction negative (digits_append whole_digits (by simp))
      (by simpa [valuesOf]) (no_leading_zero whole_digits front) rfl
      (digits_append fraction_digits stop) (by simpa [valuesOf]), last]
    rfl
  · rw [magnitude, significand, power, ← ofDigits_valuesOf, ← joined]
    simp [valuesOf]

theorem writes_exponent (exponent : ℤ) :
    Writes (signed negative (whole ++ 'e' :: (Binary64.exponentText exponent).toList)) negative
      (Nat.ofDigitChars 10 whole 0 * 10 ^ exponent) := by
  refine ⟨⟨negative, valuesOf whole, none, some exponent⟩, ?_, rfl, ?_, .inr nofun⟩
  · rw [signed, ofChars?_whole negative (digits_append whole_digits (by simp))
      (by simpa [valuesOf]) (no_leading_zero whole_digits front) (by simp),
      exponentPart?_exponentText]
    rfl
  · rw [magnitude, significand, power, ← ofDigits_valuesOf]
    simp

end

theorem isDigit_of_mem_zeros {count : ℕ} {c : Char} (mem : c ∈ List.replicate count '0') :
    c.isDigit = true := by
  rw [List.eq_of_mem_replicate mem]
  rfl

section

variable (negative : Bool) {cs : List Char} (all : ∀ c ∈ cs, c.isDigit = true) (ne_nil : cs ≠ [])

include all ne_nil

/-- Digits behind the point, after zeros. -/
theorem writes_small (zeros : ℕ) :
    Writes (signed negative (['0'] ++ '.' :: (List.replicate zeros '0' ++ cs))) negative
      (Nat.ofDigitChars 10 cs 0 * 10 ^ (-(cs.length + zeros) : ℤ)) := by
  have digits : ∀ c ∈ List.replicate zeros '0' ++ cs, c.isDigit = true :=
    fun c mem => (List.mem_append.mp mem).elim isDigit_of_mem_zeros (all c)
  have written := writes_fraction negative (show ∀ c ∈ ['0'], c.isDigit = true by simp)
    (by simp) (.inr rfl) digits (by simp [ne_nil])
    (show ∀ c ∈ ([] : List Char).head?, c.isDigit = false by simp) rfl
  have value : Nat.ofDigitChars 10 (['0'] ++ (List.replicate zeros '0' ++ cs)) 0 =
      Nat.ofDigitChars 10 cs 0 := by
    rw [Nat.ofDigitChars_append, show Nat.ofDigitChars 10 ['0'] 0 = 0 from rfl,
      Nat.ofDigitChars_append, Nat.ofDigitChars_replicate_zero, Nat.mul_zero]
  have place : (none : Option ℤ).getD 0 - (List.replicate zeros '0' ++ cs).length =
      -(cs.length + zeros : ℤ) := by
    simp only [Option.getD_none, List.length_append, List.length_replicate]
    omega
  rwa [List.append_nil, value, place] at written

variable (front : cs.head? ≠ some '0')

include front

/-- Digits before the point, with zeros after them. -/
theorem writes_large (zeros : ℕ) :
    Writes (signed negative (cs ++ List.replicate zeros '0' ++ '.' :: ['0'])) negative
      (Nat.ofDigitChars 10 cs 0 * 10 ^ (zeros : ℤ)) := by
  have digits : ∀ c ∈ cs ++ List.replicate zeros '0', c.isDigit = true :=
    fun c mem => (List.mem_append.mp mem).elim (all c) isDigit_of_mem_zeros
  have written := writes_fraction negative digits (by simp [ne_nil])
    (.inl (by rwa [List.head?_append_of_ne_nil _ ne_nil]))
    (show ∀ c ∈ ['0'], c.isDigit = true by simp) (by simp)
    (show ∀ c ∈ ([] : List Char).head?, c.isDigit = false by simp) rfl
  have value : Nat.ofDigitChars 10 (cs ++ List.replicate zeros '0' ++ ['0']) 0 =
      Nat.ofDigitChars 10 cs 0 * 10 ^ zeros * 10 := by
    rw [Nat.ofDigitChars_append, Nat.ofDigitChars_append, Nat.ofDigitChars_replicate_zero]
    simp only [Nat.ofDigitChars_cons, Nat.ofDigitChars_nil, Char.reduceToNat]
    ring
  have place : (none : Option ℤ).getD 0 - (['0'].length : ℤ) = -1 := rfl
  rw [List.append_nil, value, place, Nat.cast_mul, mul_assoc, Nat.cast_ofNat, zpow_neg_one,
    mul_inv_cancel₀ (by norm_num), mul_one, Nat.cast_mul, Nat.cast_pow, Nat.cast_ofNat,
    ← zpow_natCast] at written
  exact written

/-- Digits around the point, with an exponent or without one. -/
theorem writes_around {point : ℕ} (positive : 0 < point) (inside : point < cs.length)
    {tail : List Char} {exponent : Option ℤ} (stop : ∀ c ∈ tail.head?, c.isDigit = false)
    (last : exponentPart? tail = some exponent) :
    Writes (signed negative (cs.take point ++ '.' :: (cs.drop point ++ tail))) negative
      (Nat.ofDigitChars 10 cs 0 * 10 ^ (exponent.getD 0 - (cs.length - point : ℕ))) := by
  have front' : (cs.take point).head? ≠ some '0' := by
    rwa [List.head?_take, if_neg (by omega)]
  have some_before : cs.take point ≠ [] := by
    rw [Ne, List.take_eq_nil_iff]
    rintro (rfl | rfl)
    · omega
    · exact ne_nil rfl
  have some_after : cs.drop point ≠ [] := by
    rw [Ne, List.drop_eq_nil_iff]
    omega
  have written := writes_fraction negative (fun c mem => all c (List.mem_of_mem_take mem))
    some_before (.inl front') (fun c mem => all c (List.mem_of_mem_drop mem)) some_after stop last
  rwa [List.take_append_drop, List.length_drop] at written

end

end Numeral

namespace Binary64

theorem shortest_pos {x : Binary64} (normal : x.Normal) (nonzero : x.mantissa ≠ 0) :
    0 < x.shortest.digits := by
  by_contra none_left
  have covers := (shortest_spec normal nonzero).1
  rw [Decimal.value, show x.shortest.digits = 0 by omega, Nat.cast_zero, zero_mul] at covers
  have below := (abs_le.mp covers.isNearest.1).1
  have : (1 : ℚ) ≤ x.mantissa := by exact_mod_cast Nat.pos_of_ne_zero nonzero
  linarith

theorem toList_signed (negative : Bool) (body : String) :
    (if negative then "-" ++ body else body).toList = Numeral.signed negative body.toList := by
  cases negative
  · rfl
  · rw [if_pos rfl, String.toList_append]
    rfl

/-- What is written of a number is a numeral with a fraction or an exponent that denotes the
shortest decimal. -/
theorem text_writes {x : Binary64} (normal : x.Normal) :
    Numeral.Writes x.text.toList x.negative x.shortest.value := by
  obtain ⟨ds, ds_eq⟩ : ∃ ds, ds = Nat.toDigits 10 x.shortest.digits := ⟨_, rfl⟩
  have ds_ne : ds ≠ [] := ds_eq ▸ Nat.toDigits_ne_nil
  have all : ∀ c ∈ ds, c.isDigit = true := ds_eq ▸ fun _ => Numeral.isDigit_of_mem_toDigits
  have value : Nat.ofDigitChars 10 ds 0 = x.shortest.digits :=
    ds_eq ▸ Nat.ofDigitChars_ten_toDigits
  have length_pos := List.length_pos_iff.mpr ds_ne
  rw [text, Decimal.value, toList_signed]
  simp only [← ds_eq]
  by_cases zero : x.isZero = true
  · have written := Numeral.writes_small x.negative (show ∀ c ∈ ['0'], c.isDigit = true by simp)
      (by simp) 0
    have digits_zero : x.shortest.digits = 0 := by rw [shortest, if_pos zero]
    rw [show Nat.ofDigitChars 10 ['0'] 0 = 0 from rfl, Nat.cast_zero, zero_mul] at written
    rwa [if_pos zero, digits_zero, Nat.cast_zero, zero_mul]
  have front : ds.head? ≠ some '0' :=
    ds_eq ▸ Numeral.head?_toDigits_ne (shortest_pos normal (by simpa [isZero] using zero))
  rw [if_neg zero]
  split_ifs with large inside small single
  · have written := Numeral.writes_large x.negative all ds_ne front x.shortest.exponent.toNat
    rw [value, Int.toNat_of_nonneg large.1] at written
    simpa using written
  · have written := Numeral.writes_around x.negative all ds_ne front
      (show 0 < (ds.length + x.shortest.exponent).toNat by omega) (by omega)
      (show ∀ c ∈ ([] : List Char).head?, c.isDigit = false by simp) rfl
    rw [value] at written
    convert written using 3
    · simp
    · simp only [Option.getD_none]
      omega
  · have written := Numeral.writes_small x.negative all ds_ne
      (-(ds.length + x.shortest.exponent)).toNat
    rw [value] at written
    convert written using 3
    · simp
    · omega
  · have written := Numeral.writes_exponent x.negative all ds_ne (.inl front)
      (ds.length + x.shortest.exponent - 1)
    rw [value] at written
    convert written using 3
    · simp
    · omega
  · have written := Numeral.writes_around x.negative all ds_ne front Nat.one_pos (by omega)
      (by simp) (Numeral.exponentPart?_exponentText (ds.length + x.shortest.exponent - 1))
    rw [value] at written
    convert written using 3
    · simp
    · simp only [Option.getD_some]
      omega

example : text ⟨false, 1, -1074⟩ = "5e-324" := by decide +kernel

end Binary64

end Statechart
