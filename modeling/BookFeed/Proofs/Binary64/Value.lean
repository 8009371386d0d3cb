import BookFeed.Binary64.Basic
import Mathlib

/-!
# The numbers that doubles stand for

`Binary64.value` is the number that a finite bit pattern stands for. Every such number is a whole
multiple of the least positive one, `2 ^ -1074`. `units` counts how many times, and it grows with
the bits (`units_strictMono`), also where the exponent changes.

So the total order of bit patterns is the order of numbers (`totalKey_lt_of_value_lt`), and what it
tells apart beyond that are the two zeros (`value_eq_iff`).
-/

namespace BookFeed.Binary64

variable {x y : Binary64}

/-- The number that a finite bit pattern stands for. -/
def value (x : Binary64) : ℚ :=
  if x.isNegative then -(x.ratio.1 / x.ratio.2) else x.ratio.1 / x.ratio.2

/-! ## Multiples of the least number -/

/-- The magnitude of a number in units of `2 ^ -1074`, by its bits without the sign. -/
def units (m : Nat) : Nat :=
  if m < hiddenBit then m else (hiddenBit + m % hiddenBit) * 2 ^ (m / hiddenBit - 1)

theorem units_of_lt {m : Nat} (h : m < hiddenBit) : units m = m := if_pos h

theorem units_of_le {e f : Nat} (hf : f < hiddenBit) :
    units (hiddenBit * (e + 1) + f) = (hiddenBit + f) * 2 ^ e := by
  have hle : ¬ hiddenBit * (e + 1) + f < hiddenBit := by rw [Nat.mul_succ]; omega
  rw [units, if_neg hle, Nat.mul_add_mod, Nat.mod_eq_of_lt hf, Nat.mul_add_div (by decide),
    Nat.div_eq_of_lt hf, Nat.add_zero, Nat.add_sub_cancel]

/-- Bits with an exponent: the exponent and the significand without its leading bit. -/
theorem exists_exponent {m : Nat} (h : hiddenBit ≤ m) :
    ∃ e f, f < hiddenBit ∧ m = hiddenBit * (e + 1) + f := by
  have hpos : 1 ≤ m / hiddenBit := (Nat.le_div_iff_mul_le (by decide)).mpr (by omega)
  refine ⟨m / hiddenBit - 1, m % hiddenBit, Nat.mod_lt _ (by decide), ?_⟩
  rw [Nat.sub_add_cancel hpos, Nat.div_add_mod]

/-- **More bits are a greater number.** Behind the last significand of an exponent the next exponent
begins, with half that significand and twice the unit. -/
theorem units_strictMono : StrictMono units := by
  refine strictMono_nat_of_lt_succ fun m => ?_
  by_cases hm : m < hiddenBit
  · rw [units_of_lt hm]
    by_cases hnext : m + 1 < hiddenBit
    · rw [units_of_lt hnext]
      exact m.lt_succ_self
    · have hlast : m + 1 = hiddenBit * (0 + 1) + 0 := by omega
      rw [hlast, units_of_le (by decide)]
      omega
  · obtain ⟨e, f, hf, rfl⟩ := exists_exponent (Nat.le_of_not_lt hm)
    have hpow : 0 < 2 ^ e := Nat.two_pow_pos e
    rw [units_of_le hf, Nat.add_assoc]
    by_cases hnext : f + 1 < hiddenBit
    · rw [units_of_le hnext]
      exact Nat.mul_lt_mul_of_pos_right (by omega) hpow
    · have hlast : hiddenBit * (e + 1) + (f + 1) = hiddenBit * (e + 1 + 1) + 0 := by
        rw [Nat.mul_succ _ (e + 1)]
        omega
      rw [hlast, units_of_le (by decide)]
      calc (hiddenBit + f) * 2 ^ e < (hiddenBit * 2) * 2 ^ e :=
            Nat.mul_lt_mul_of_pos_right (by omega) hpow
        _ = (hiddenBit + 0) * 2 ^ (e + 1) := by rw [Nat.pow_succ]; ring

theorem shifted_div (n : Nat) (p : ℤ) :
    ((n <<< p.toNat : Nat) / (1 <<< (-p).toNat : Nat) : ℚ) = n * 2 ^ p := by
  rw [Nat.shiftLeft_eq, Nat.shiftLeft_eq, one_mul, Nat.cast_mul, Nat.cast_pow, Nat.cast_pow,
    Nat.cast_ofNat]
  rcases p.eq_nat_or_neg with ⟨k, rfl | rfl⟩
  · simp
  · simp [div_eq_mul_inv]

theorem ratio_eq_units (x : Binary64) :
    (x.ratio.1 / x.ratio.2 : ℚ) = units x.magnitude * 2 ^ (-1074 : ℤ) := by
  rw [ratio, shifted_div, significand, power]
  by_cases hm : x.magnitude < hiddenBit
  · rw [if_pos hm, if_pos hm, units_of_lt hm]
  · obtain ⟨e, f, hf, hx⟩ := exists_exponent (Nat.le_of_not_lt hm)
    have hmod : x.magnitude % hiddenBit = f := by
      rw [hx, Nat.mul_add_mod, Nat.mod_eq_of_lt hf]
    have hdiv : x.magnitude / hiddenBit = e + 1 := by
      rw [hx, Nat.mul_add_div (by decide), Nat.div_eq_of_lt hf, Nat.add_zero]
    have hpower : ((e + 1 : Nat) : ℤ) - 1075 = e + -1074 := by omega
    rw [if_neg hm, if_neg hm, hmod, hdiv, hx, units_of_le hf, hpower, zpow_add₀ two_ne_zero,
      zpow_natCast, ← mul_assoc, Nat.cast_mul, Nat.cast_pow, Nat.cast_ofNat]

theorem ratio_pos (x : Binary64) : 0 < x.ratio.2 := by
  show 0 < 1 <<< (-x.power).toNat
  rw [Nat.shiftLeft_eq, Nat.one_mul]
  exact Nat.two_pow_pos _

/-! ## The order of numbers -/

theorem value_eq_units (x : Binary64) : x.value =
    (if x.isNegative then -(units x.magnitude : ℚ) else units x.magnitude) * 2 ^ (-1074 : ℤ) := by
  rw [value, ratio_eq_units]
  split
  · rw [neg_mul]
  · rfl

/-- **The total order of bit patterns keeps the order of numbers.** -/
theorem totalKey_lt_of_value_lt (h : x.value < y.value) : x.totalKey < y.totalKey := by
  have hunit : (0 : ℚ) < 2 ^ (-1074 : ℤ) := zpow_pos two_pos _
  rw [value_eq_units, value_eq_units, mul_lt_mul_iff_left₀ hunit] at h
  have hx : (0 : ℚ) ≤ units x.magnitude := Nat.cast_nonneg _
  have hy : (0 : ℚ) ≤ units y.magnitude := Nat.cast_nonneg _
  unfold totalKey
  split at h <;> split at h
  · -- both are below zero: the greater magnitude comes first
    rename_i hxneg hyneg
    rw [neg_lt_neg_iff, Nat.cast_lt, units_strictMono.lt_iff_lt] at h
    rw [if_pos hxneg, if_pos hyneg]
    omega
  · rename_i hxneg hyneg
    rw [if_pos hxneg, if_neg hyneg]
    omega
  · linarith
  · rename_i hxneg hyneg
    rw [Nat.cast_lt, units_strictMono.lt_iff_lt] at h
    rw [if_neg hxneg, if_neg hyneg]
    omega

theorem value_pos_iff : 0 < x.value ↔ x.isNegative = false ∧ x.isZero = false := by
  have hunit : (0 : ℚ) < 2 ^ (-1074 : ℤ) := zpow_pos two_pos _
  have hx : (0 : ℚ) ≤ units x.magnitude := Nat.cast_nonneg _
  have hzero : units 0 = 0 := rfl
  rw [value_eq_units, mul_pos_iff_of_pos_right hunit]
  cases x.isNegative with
  | true =>
    rw [if_pos rfl]
    constructor
    · intro h
      linarith
    · rintro ⟨h, -⟩
      cases h
  | false =>
    rw [if_neg Bool.false_ne_true, Nat.cast_pos, ← hzero, units_strictMono.lt_iff_lt, isZero,
      beq_eq_false_iff_ne, Nat.pos_iff_ne_zero]
    exact ⟨fun h => ⟨rfl, h⟩, And.right⟩

/-- A bit pattern is its sign and the bits without it. -/
theorem eq_of_magnitude_eq (hsign : x.isNegative = y.isNegative)
    (hmagnitude : x.magnitude = y.magnitude) : x = y := by
  obtain ⟨a⟩ := x
  obtain ⟨b⟩ := y
  have ha := a.toNat_lt
  have hb := b.toNat_lt
  simp only [isNegative, magnitude, signBit, decide_eq_decide] at hsign hmagnitude
  rw [UInt64.toNat_inj.mp (show a.toNat = b.toNat by omega)]

/-- **Numbers have one bit pattern each**, but for zero, which has two. -/
theorem value_eq_iff : x.value = y.value ↔ x = y ∨ x.isZero = true ∧ y.isZero = true := by
  have hunit : (2 : ℚ) ^ (-1074 : ℤ) ≠ 0 := zpow_ne_zero _ two_ne_zero
  have hzero : units 0 = 0 := rfl
  have hx : (0 : ℚ) ≤ units x.magnitude := Nat.cast_nonneg _
  have hy : (0 : ℚ) ≤ units y.magnitude := Nat.cast_nonneg _
  rw [value_eq_units, value_eq_units, mul_left_inj' hunit, isZero, isZero, beq_iff_eq, beq_iff_eq]
  constructor
  · intro h
    have hsame : (units x.magnitude : ℚ) = units y.magnitude → x.magnitude = y.magnitude :=
      fun h => units_strictMono.injective (Nat.cast_injective h)
    have hnone : (units x.magnitude : ℚ) = 0 → (units y.magnitude : ℚ) = 0 →
        x.magnitude = 0 ∧ y.magnitude = 0 := fun h h' =>
      ⟨units_strictMono.injective (Nat.cast_eq_zero.mp h),
        units_strictMono.injective (Nat.cast_eq_zero.mp h')⟩
    split at h <;> split at h
    · rename_i hxneg hyneg
      exact .inl (eq_of_magnitude_eq (hxneg.trans hyneg.symm) (hsame (neg_injective h)))
    · exact .inr (hnone (by linarith) (by linarith))
    · exact .inr (hnone (by linarith) (by linarith))
    · rename_i hxneg hyneg
      have hsign : x.isNegative = y.isNegative := by
        rw [Bool.eq_false_iff.mpr hxneg, Bool.eq_false_iff.mpr hyneg]
      exact .inl (eq_of_magnitude_eq hsign (hsame h))
  · rintro (rfl | ⟨hxzero, hyzero⟩)
    · rfl
    · simp [hxzero, hyzero, hzero]

end BookFeed.Binary64
