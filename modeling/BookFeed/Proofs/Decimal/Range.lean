import BookFeed.Proofs.Decimal.Rounded

/-!
# Which results there are

A result is rounded where it has too many fractional digits, but its whole part has to fit. A number
is `InRange` if it is below the bound when it is rounded to a whole one.

* **`representable_rounded_iff`**: the numbers in range are those that are rounded to decimals;
* **`isSome_fit?_iff`**: they are those that can be made to fit;
* `Gives`: so sums (`gives_add?`), differences (`gives_sub?`) and products (`gives_mul?`) are there
  exactly if the exact ones are in range.
-/

namespace BookFeed.Decimal

variable {a b c : Decimal} {q r : ℚ} {negative : Bool} {n scale : Nat}

/-! ## Numbers in range -/

/-- Rounded to a whole number, it is below the bound. -/
def InRange (q : ℚ) : Prop := nearest |q| < bound

instance (q : ℚ) : Decidable (InRange q) := inferInstanceAs (Decidable (_ < _))

theorem InRange.mono (h : InRange r) (hle : |q| ≤ |r|) : InRange q :=
  (nearest_mono (abs_nonneg q) hle).trans_lt h

theorem abs_value_le (a : Decimal) : |a.value| ≤ (bound - 1 : Nat) := by
  have hpow : (1 : ℚ) ≤ powerOfTen a.scale := by exact_mod_cast powerOfTen_pos a.scale
  have hmantissa : |(a.mantissa : ℚ)| ≤ (bound - 1 : Nat) := by
    rw [← Int.cast_abs, ← Nat.cast_natAbs, Nat.cast_le, mantissa, natAbs_signed]
    exact Nat.le_sub_one_of_lt a.magnitude_lt
  rw [value, abs_div, abs_of_pos (powerOfTen_cast_pos _)]
  exact (div_le_self (abs_nonneg _) hpow).trans hmantissa

theorem Representable.abs_le (h : Representable q) : |q| ≤ (bound - 1 : Nat) := by
  obtain ⟨d, rfl⟩ := h
  exact d.abs_value_le

theorem inRange_of_abs_le (h : |q| ≤ (bound - 1 : Nat)) : InRange q := by
  have hle := nearest_mono (abs_nonneg q) h
  rw [nearest_natCast] at hle
  exact hle.trans_lt (by decide)

theorem Representable.inRange (h : Representable q) : InRange q := inRange_of_abs_le h.abs_le

theorem inRange_value (a : Decimal) : InRange a.value := inRange_of_abs_le a.abs_value_le

theorem inRange_natAbs_div {m : Int} :
    InRange ((m.natAbs : ℚ) / powerOfTen scale) ↔ InRange (m / powerOfTen scale) := by
  unfold InRange
  rw [abs_div, abs_div, Nat.cast_natAbs, Int.cast_abs, abs_abs]

theorem abs_rounded (q : ℚ) :
    |rounded q| = nearest (|q| * powerOfTen (places q)) / powerOfTen (places q) := by
  have hpow := powerOfTen_cast_pos (places q)
  unfold rounded
  split
  · rw [abs_neg, abs_of_nonneg (by positivity)]
  · rw [abs_of_nonneg (by positivity)]

/-- Of a number out of range not one fractional digit fits. -/
theorem places_of_not_inRange (h : ¬ InRange q) : places q = 0 := by
  refine Nat.findGreatest_eq_zero_iff.mpr fun k _ _ hfits => h ?_
  have hle := nearest_scaled_mono (abs_nonneg q) (Nat.zero_le k)
  rw [show powerOfTen 0 = 1 from rfl, Nat.cast_one, mul_one] at hle
  exact hle.trans_lt hfits

/-- **The numbers in range are those that are rounded to decimals.** -/
theorem representable_rounded_iff : Representable (rounded q) ↔ InRange q := by
  constructor
  · intro h
    by_contra hn
    have hle := h.abs_le
    rw [abs_rounded, places_of_not_inRange hn, show powerOfTen 0 = 1 from rfl, Nat.cast_one,
      mul_one, div_one, Nat.cast_le] at hle
    exact hn (Nat.lt_of_le_pred (by decide) hle)
  · intro h
    have hfits : nearest (|q| * powerOfTen (places q)) < bound := by
      rcases Nat.eq_zero_or_pos (places q) with hzero | hpos
      · rw [hzero, show powerOfTen 0 = 1 from rfl, Nat.cast_one, mul_one]
        exact h
      · exact Nat.findGreatest_of_ne_zero (P := fun k => nearest (|q| * powerOfTen k) < bound)
          rfl hpos.ne'
    unfold rounded
    split
    · have hneg := representable_of_scale (m := -(nearest (|q| * powerOfTen (places q)) : Int))
        (by simpa using hfits) (places_le q)
      rwa [Int.cast_neg, Int.cast_natCast, neg_div] at hneg
    · have hpos := representable_of_scale (m := (nearest (|q| * powerOfTen (places q)) : Int))
        (by simpa using hfits) (places_le q)
      rwa [Int.cast_natCast] at hpos

/-- What is rounded stays in range, or out of it. -/
theorem inRange_rounded_iff : InRange (rounded q) ↔ InRange q := by
  by_cases h : InRange q
  · exact iff_of_true (representable_rounded_iff.mpr h).inRange h
  · refine iff_of_false ?_ h
    unfold InRange
    rwa [abs_rounded, places_of_not_inRange h, show powerOfTen 0 = 1 from rfl, Nat.cast_one,
      mul_one, div_one, nearest_natCast]

/-! ## Which results there are -/

/-- Digits can be made to fit if the whole part fits. -/
theorem isSome_fitFrom : ∀ {more drop : Nat}, drop + more = scale →
    roundHalfEven n (powerOfTen scale) < bound →
    (fitFrom negative n scale drop more).isSome = true := by
  intro more
  induction more with
  | zero =>
    rintro drop rfl hfit
    unfold fitFrom mk?
    rw [dif_pos]
    · rfl
    · rw [natAbs_signed]
      exact ⟨hfit, by omega⟩
  | succ more ih =>
    intro drop hdrop hfit
    unfold fitFrom
    split
    · rfl
    · exact ih (by omega) hfit

/-- **A number can be made to fit exactly if it is in range.** -/
theorem isSome_fit?_iff :
    (fit? negative n scale).isSome = true ↔ InRange (n / powerOfTen scale) := by
  have hpow := powerOfTen_cast_pos scale
  have hnonneg : (0 : ℚ) ≤ n / powerOfTen scale := by positivity
  have hrange : InRange (n / powerOfTen scale) ↔ roundHalfEven n (powerOfTen scale) < bound := by
    rw [InRange, abs_of_nonneg hnonneg, nearest_div (powerOfTen_pos scale)]
  rw [hrange]
  constructor
  · intro h
    obtain ⟨c, hc⟩ := Option.isSome_iff_exists.mp h
    obtain ⟨last, hle, hc, -⟩ := fitFrom_eq_some (by omega) hc
    have hfits := lt_bound_of_mk? hc
    rw [natAbs_signed, ← nearest_div (powerOfTen_pos last)] at hfits
    rw [← nearest_div (powerOfTen_pos scale)]
    refine (nearest_mono hnonneg ?_).trans_lt hfits
    have hlast : (powerOfTen last : ℚ) ≤ powerOfTen scale :=
      Nat.cast_le.mpr (Nat.pow_le_pow_right (by decide) (by omega))
    have hpow' := powerOfTen_cast_pos last
    gcongr
  · exact isSome_fitFrom (by omega)

theorem isSome_add?_iff : (a.add? b).isSome = true ↔ InRange (a.value + b.value) := by
  unfold add?
  split
  · rename_i hz
    rw [value_eq_zero hz, zero_add]
    exact iff_of_true rfl (inRange_value b)
  · split
    · rename_i hz
      rw [value_eq_zero hz, add_zero]
      exact iff_of_true rfl (inRange_value a)
    · rw [value_eq_shifted (le_max_left a.scale b.scale),
        value_eq_shifted (le_max_right a.scale b.scale), ← add_div]
      unfold addAligned
      rw [isSome_fit?_iff, inRange_natAbs_div]
      push_cast
      rfl

theorem isSome_mul?_iff : (a.mul? b).isSome = true ↔ InRange (a.value * b.value) := by
  rw [value_mul_value]
  unfold mul?
  simp only
  split
  · rename_i hz
    rw [hz, Int.cast_zero, zero_div]
    exact iff_of_true rfl (by decide +kernel)
  · rw [isSome_fit?_iff, inRange_natAbs_div]

/-- There is a result exactly if `R` holds, and this is its value. -/
structure Gives (o : Option Decimal) (R : Prop) (q : ℚ) : Prop where
  isSome_iff : o.isSome = true ↔ R
  value : ∀ c, o = some c → c.value = q

/-- **There is a sum exactly if the exact one is in range.** -/
theorem gives_add? (a b : Decimal) :
    Gives (a.add? b) (InRange (a.value + b.value)) (rounded (a.value + b.value)) :=
  ⟨isSome_add?_iff, fun _ => add?_rounded⟩

theorem gives_sub? (a b : Decimal) :
    Gives (a.sub? b) (InRange (a.value - b.value)) (rounded (a.value - b.value)) := by
  rw [sub_eq_add_neg, ← value_neg]
  exact gives_add? a b.neg

theorem gives_mul? (a b : Decimal) :
    Gives (a.mul? b) (InRange (a.value * b.value)) (rounded (a.value * b.value)) :=
  ⟨isSome_mul?_iff, fun _ => mul?_rounded⟩

end BookFeed.Decimal
