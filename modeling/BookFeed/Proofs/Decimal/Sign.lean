import BookFeed.Proofs.Decimal.Exact

/-!
# What rounding does to a sign

A decimal is a whole number of units of the last place there may be. So sums and multiples of
decimals keep their sign when they are rounded (`rounded_units_nonneg_iff`). Of a quotient only
numbers that are no more than half a unit below zero lose it (`rounded_nonneg_iff`).
-/

namespace BookFeed.Decimal

variable {a b : Decimal} {q x : ℚ} {m : ℤ}

theorem isNonneg_iff : a.isNonneg = true ↔ 0 ≤ a.value := by
  rw [isNonneg, decide_eq_true_eq, value, le_div_iff₀ (powerOfTen_cast_pos _), zero_mul,
    Int.cast_nonneg_iff]

/-- **What is rounded to zero or above is no more than half a unit of the last place below it.** -/
theorem rounded_nonneg_iff : 0 ≤ rounded q ↔ 2 * -q ≤ 1 / powerOfTen maxScale := by
  have hunit : (0 : ℚ) < 1 / powerOfTen maxScale := one_div_pos.mpr (powerOfTen_cast_pos _)
  rcases le_or_gt 0 q with hq | hq
  · constructor
    · intro _
      linarith
    · intro _
      exact rounded_nonneg hq
  · have hneg : 0 ≤ -q := by linarith
    rw [← rounded_eq_zero_iff hneg, ← neg_neg q, rounded_neg, neg_neg, neg_nonneg]
    exact (rounded_nonneg hneg).ge_iff_eq'

/-! ## Whole units -/

/-- A decimal is a whole number of units of the last place there may be. -/
theorem exists_units (a : Decimal) : ∃ m : ℤ, a.value = m / powerOfTen maxScale := by
  refine ⟨a.mantissa * powerOfTen (maxScale - a.scale), ?_⟩
  rw [value_eq_shifted a.scale_le]
  push_cast
  rfl

/-- **Whole units keep their sign.** -/
theorem rounded_units_nonneg_iff : 0 ≤ rounded (m / powerOfTen maxScale) ↔ 0 ≤ m := by
  rw [rounded_nonneg_iff, ← neg_div, ← mul_div_assoc,
    div_le_div_iff_of_pos_right (powerOfTen_cast_pos _)]
  norm_cast
  omega

/-- A positive decimal is a unit at least. -/
theorem unit_le (h : 0 < a.value) : 1 / powerOfTen maxScale ≤ a.value := by
  obtain ⟨m, hm⟩ := a.exists_units
  rw [hm, div_pos_iff_of_pos_right (powerOfTen_cast_pos _)] at h
  rw [hm, div_le_div_iff_of_pos_right (powerOfTen_cast_pos _)]
  exact_mod_cast h

theorem value_lt (a : Decimal) : a.value < bound :=
  calc a.value ≤ |a.value| := le_abs_self _
    _ ≤ (bound - 1 : Nat) := a.abs_value_le
    _ < bound := by exact_mod_cast Nat.sub_one_lt_of_lt (Nat.zero_lt_of_lt a.magnitude_lt)

/-- **A difference of decimals is rounded only where it is large**, so it compares with small
numbers as it stands. -/
theorem rounded_units_le_iff (hx : 0 ≤ x) (hsmall : x < 4) :
    rounded (m / powerOfTen maxScale) ≤ x ↔ (m / powerOfTen maxScale : ℚ) ≤ x := by
  have hpow := powerOfTen_cast_pos maxScale
  rcases le_or_gt m 0 with hm | hm
  · -- zero and below stays there
    have hle : (m / powerOfTen maxScale : ℚ) ≤ 0 :=
      div_nonpos_of_nonpos_of_nonneg (by exact_mod_cast hm) hpow.le
    have hrounded := rounded_mono hle
    rw [rounded_zero] at hrounded
    exact ⟨fun _ => hle.trans hx, fun _ => hrounded.trans hx⟩
  · rcases Nat.lt_or_ge m.natAbs bound with hfits | hlarge
    · rw [rounded_of_representable (representable_of_scale hfits (Nat.le_refl _))]
    · -- what is rounded is larger than `x` already
      have hfour : (4 : ℚ) ≤ m / powerOfTen maxScale := by
        have hbound : (bound : ℤ) ≤ m := by omega
        rw [le_div_iff₀ hpow]
        calc (4 * powerOfTen maxScale : ℚ) ≤ bound := by norm_num [powerOfTen, maxScale, bound]
          _ ≤ m := by exact_mod_cast hbound
      have hrounded := rounded_mono hfour
      rw [show (4 : ℚ) = (4 : Nat) from rfl,
        rounded_of_representable (representable_natCast (by decide))] at hrounded
      constructor
      · intro h
        exact absurd (hrounded.trans h) (by push_cast; linarith)
      · intro h
        linarith

end BookFeed.Decimal
