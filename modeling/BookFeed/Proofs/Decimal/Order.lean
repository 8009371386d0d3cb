import BookFeed.Decimal.Arith
import Mathlib.Algebra.Order.Field.Basic
import Mathlib.Algebra.Order.Field.Rat
import Mathlib.Order.Compare

/-!
# Decimals by value

`Decimal.value` is the rational number that a decimal spells. `Decimal.compare` compares values
(`compare_eq_compare_value`), so it is transitive and does not see how a number is spelled. A sum of
a positive number and one that is not negative is positive, however it is rounded
(`isPositive_add?`).
-/

namespace BookFeed

namespace Decimal

/-- The number itself. -/
def value (a : Decimal) : ℚ := a.mantissa / powerOfTen a.scale

variable {a b c : Decimal}

theorem powerOfTen_cast_pos (n : Nat) : (0 : ℚ) < powerOfTen n := by
  exact_mod_cast powerOfTen_pos n

theorem powerOfTen_add (m n : Nat) : powerOfTen (m + n) = powerOfTen m * powerOfTen n :=
  Nat.pow_add 10 m n

@[simp] theorem value_zero : zero.value = 0 := by decide +kernel

theorem value_eq_zero (h : a.isZero = true) : a.value = 0 := by
  have hm : a.mantissa = 0 := by
    rw [isZero, beq_iff_eq] at h
    rw [mantissa, h, signed]
    split <;> rfl
  rw [value, hm, Int.cast_zero, zero_div]

theorem isPositive_iff : a.isPositive = true ↔ 0 < a.value := by
  rw [isPositive, decide_eq_true_eq, value, div_pos_iff_of_pos_right (powerOfTen_cast_pos _),
    Int.cast_pos]

theorem mantissa_neg (a : Decimal) : a.neg.mantissa = -a.mantissa := by
  obtain ⟨negative, magnitude, scale, hm, hs⟩ := a
  by_cases hz : magnitude = 0
  · subst hz
    cases negative <;> rfl
  · cases negative <;> simp [neg, mantissa, signed, hz]

theorem value_neg (a : Decimal) : a.neg.value = -a.value := by
  rw [value, mantissa_neg, Int.cast_neg, neg_div]
  rfl

/-- The number in terms of a mantissa at a larger scale. -/
theorem value_eq_shifted {scale : Nat} (h : a.scale ≤ scale) :
    a.value = (a.mantissa * powerOfTen (scale - a.scale) : ℚ) / powerOfTen scale := by
  have hsplit : powerOfTen scale = powerOfTen a.scale * powerOfTen (scale - a.scale) := by
    rw [← powerOfTen_add, Nat.add_sub_cancel' h]
  rw [value, hsplit, Nat.cast_mul, mul_div_mul_right _ _ (powerOfTen_cast_pos _).ne']

/-! ## The order -/

theorem compare_eq_compare_value (a b : Decimal) : a.compare b = compare a.value b.value := by
  have ha := powerOfTen_cast_pos a.scale
  have hb := powerOfTen_cast_pos b.scale
  have hlt : a.scaledBy b < b.scaledBy a ↔ a.value < b.value := by
    unfold value scaledBy
    rw [div_lt_div_iff₀ ha hb]
    exact_mod_cast Iff.rfl
  have hgt : b.scaledBy a < a.scaledBy b ↔ b.value < a.value := by
    unfold value scaledBy
    rw [div_lt_div_iff₀ hb ha]
    exact_mod_cast Iff.rfl
  unfold Decimal.compare
  rcases lt_trichotomy a.value b.value with h | h | h
  · rw [compare_lt_iff_lt.mpr h, compare_lt_iff_lt.mpr (hlt.mpr h)]
  · have heq : a.scaledBy b = b.scaledBy a :=
      le_antisymm (not_lt.mp fun hn => (hgt.mp hn).ne h.symm) (not_lt.mp fun hn => (hlt.mp hn).ne h)
    rw [compare_eq_iff_eq.mpr h, compare_eq_iff_eq.mpr heq]
  · rw [compare_gt_iff_gt.mpr h, compare_gt_iff_gt.mpr (hgt.mpr h)]

theorem compare_eq_eq_iff : a.compare b = .eq ↔ a.value = b.value := by
  rw [compare_eq_compare_value, compare_eq_iff_eq]

instance : Std.TransCmp Decimal.compare where
  eq_swap {a b} := by
    rw [compare_eq_compare_value, compare_eq_compare_value]
    exact Std.OrientedCmp.eq_swap
  isLE_trans {a b c} hab hbc := by
    rw [compare_eq_compare_value] at hab hbc ⊢
    exact Std.TransCmp.isLE_trans hab hbc

/-! ## Positive amounts -/

theorem mantissa_mk? {m : Int} {scale : Nat} (h : mk? m scale = some c) : c.mantissa = m := by
  unfold mk? at h
  split at h
  · obtain rfl := Option.some.inj h
    simp only [mantissa, signed, decide_eq_true_eq]
    split <;> omega
  · exact absurd h (by simp)

theorem scale_mk? {m : Int} {scale : Nat} (h : mk? m scale = some c) : c.scale = scale := by
  unfold mk? at h
  split at h
  · obtain rfl := Option.some.inj h
    rfl
  · exact absurd h (by simp)

theorem natAbs_of_mk?_none {m : Int} {scale : Nat} (hs : scale ≤ maxScale)
    (h : mk? m scale = none) : bound ≤ m.natAbs := by
  unfold mk? at h
  split at h
  · exact absurd h (by simp)
  · rename_i hn
    exact not_lt.mp fun hlt => hn ⟨hlt, hs⟩

theorem le_roundHalfEven (n d : Nat) : n / d ≤ roundHalfEven n d := by
  simp only [roundHalfEven]
  split <;> omega

theorem roundHalfEven_le (n d : Nat) : roundHalfEven n d ≤ n / d + 1 := by
  simp only [roundHalfEven]
  split <;> omega

theorem powerOfTen_lt_bound {n : Nat} (h : n ≤ maxScale) : powerOfTen n + 1 < bound :=
  calc powerOfTen n + 1 ≤ powerOfTen maxScale + 1 :=
        Nat.succ_le_succ (Nat.pow_le_pow_right (by decide) h)
    _ < bound := by decide

/-- A positive number stays positive where it is rounded to fit: digits are dropped only from
magnitudes that are large. -/
theorem isPositive_fitFrom {n scale : Nat} (hs : scale ≤ maxScale) : ∀ {more drop : Nat},
    drop + more ≤ maxScale → powerOfTen drop ≤ n →
    fitFrom false n scale drop more = some c → c.isPositive = true := by
  have hfit : ∀ {drop : Nat}, powerOfTen drop ≤ n →
      mk? (signed false (roundHalfEven n (powerOfTen drop))) (scale - drop) = some c →
      c.isPositive = true := by
    intro drop hn h
    have hpos : 0 < n / powerOfTen drop := Nat.div_pos hn (powerOfTen_pos drop)
    have hm : c.mantissa = (roundHalfEven n (powerOfTen drop) : Int) := mantissa_mk? h
    rw [isPositive, hm, decide_eq_true_eq, Int.natCast_pos]
    exact hpos.trans_le (le_roundHalfEven n _)
  intro more
  induction more with
  | zero => exact fun _ hn h => hfit hn h
  | succ more ih =>
    intro drop hd hn h
    unfold fitFrom at h
    split at h
    · rename_i d hd'
      obtain rfl := Option.some.inj h
      exact hfit hn hd'
    · rename_i hnone
      refine ih (by omega) ?_ h
      have hbig : bound ≤ roundHalfEven n (powerOfTen drop) :=
        natAbs_of_mk?_none (by omega) hnone
      have hle := (hbig.trans (roundHalfEven_le n _)).trans
        (Nat.succ_le_succ (Nat.div_le_self n (powerOfTen drop)))
      have hlt := powerOfTen_lt_bound (n := drop + 1) (by omega)
      omega

/-- **A sum of a positive number and one that is not negative is positive.** -/
theorem isPositive_add? (ha : a.isNonneg = true) (hb : b.isPositive = true)
    (h : a.add? b = some c) : c.isPositive = true := by
  rw [isNonneg, decide_eq_true_eq] at ha
  have hb' : 0 < b.mantissa := of_decide_eq_true hb
  unfold add? at h
  split at h
  · exact Option.some.inj h ▸ hb
  · split at h
    · rename_i hz
      rw [isZero, beq_iff_eq] at hz
      rw [mantissa, hz, signed] at hb'
      exact absurd hb' (by split <;> decide)
    · unfold addAligned at h
      have hsum : 0 < a.mantissa * powerOfTen (max a.scale b.scale - a.scale) +
          b.mantissa * powerOfTen (max a.scale b.scale - b.scale) := by
        have hpb := powerOfTen_pos (max a.scale b.scale - b.scale)
        have := Int.mul_nonneg ha (Int.natCast_nonneg (powerOfTen (max a.scale b.scale - a.scale)))
        have := Int.mul_pos hb' (Int.natCast_pos.mpr hpb)
        omega
      have hscale : max a.scale b.scale ≤ maxScale := max_le a.scale_le b.scale_le
      simp only at h
      rw [decide_eq_false (not_lt.mpr hsum.le)] at h
      unfold fit? at h
      rw [Nat.sub_eq_zero_of_le hscale] at h
      refine isPositive_fitFrom hscale (by omega) ?_ h
      show 1 ≤ _
      omega

theorem isNonneg_of_isPositive (h : a.isPositive = true) : a.isNonneg = true :=
  decide_eq_true (of_decide_eq_true h : 0 < a.mantissa).le

end Decimal

end BookFeed
