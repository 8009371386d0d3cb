import BookFeed.Proofs.Decimal.Range

/-!
# Sums that need no rounding

A sum of two decimals is rounded where it has too many digits. `Representable` says that a number is
a decimal, in whatever spelling. Then digits are dropped only as long as they are zeros, so a sum
that is a decimal is found exactly (`value_add?`), and a difference too (`value_sub?`). What is at
most the number can always be taken from it (`isSome_sub?`). Whether a number is a decimal can be
evaluated.
-/

namespace BookFeed.Decimal

variable {a b c d : Decimal}

/-! ## Sums and differences -/

/-- **A sum that is a decimal is found exactly.** -/
theorem value_add? (h : a.add? b = some c) (hr : Representable (a.value + b.value)) :
    c.value = a.value + b.value :=
  (add?_rounded h).trans (rounded_of_representable hr)

theorem value_sub? (h : a.sub? b = some c) (hr : Representable (a.value - b.value)) :
    c.value = a.value - b.value := by
  rw [sub_eq_add_neg, ← value_neg] at hr ⊢
  exact value_add? h hr

/-- **What is at most the number can be taken from it**, down to zero, without an overflow. -/
theorem isSome_sub? (hb : 0 ≤ b.value) (hle : b.value ≤ a.value) : (a.sub? b).isSome = true := by
  refine isSome_add?_iff.mpr (inRange_of_abs_le ?_)
  rw [value_neg, ← sub_eq_add_neg, abs_of_nonneg (sub_nonneg.mpr hle)]
  exact (sub_le_self _ hb).trans ((le_abs_self _).trans a.abs_value_le)

/-! ## Evaluating -/

/-- The number is a decimal of so many fractional digits. -/
def Fits (q : ℚ) (scale : Nat) : Prop :=
  (q * powerOfTen scale).den = 1 ∧ (q * powerOfTen scale).num.natAbs < bound

instance (q : ℚ) (scale : Nat) : Decidable (Fits q scale) := inferInstanceAs (Decidable (_ ∧ _))

theorem representable_iff {q : ℚ} : Representable q ↔ ∃ scale ∈ List.range (maxScale + 1),
    Fits q scale := by
  constructor
  · rintro ⟨d, rfl⟩
    refine ⟨d.scale, List.mem_range.mpr (Nat.lt_succ_of_le d.scale_le), ?_⟩
    have hq : d.value * powerOfTen d.scale = (d.mantissa : ℚ) :=
      div_mul_cancel₀ _ (powerOfTen_cast_pos _).ne'
    rw [Fits, hq]
    refine ⟨Rat.den_intCast _, ?_⟩
    rw [Rat.num_intCast, mantissa, natAbs_signed]
    exact d.magnitude_lt
  · rintro ⟨scale, hscale, hden, hnum⟩
    have hr := representable_of_scale hnum (Nat.le_of_lt_succ (List.mem_range.mp hscale))
    rwa [Rat.coe_int_num_of_den_eq_one hden,
      mul_div_cancel_right₀ _ (powerOfTen_cast_pos scale).ne'] at hr

instance (q : ℚ) : Decidable (Representable q) := decidable_of_iff _ representable_iff.symm

/-- A sum of 30 digits that is a decimal, and one that is not. -/
example : Representable (79228162514264337593543950334.5 + 0.5) ∧
    ¬ Representable (79228162514264337593543950334 + 0.5) := by
  decide +kernel

end BookFeed.Decimal
