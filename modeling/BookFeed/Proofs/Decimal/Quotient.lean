import BookFeed.Proofs.Decimal.Range
import Mathlib.Algebra.Order.Field.Power
import Mathlib.Data.Nat.Cast.Field
import Mathlib.Data.Rat.Floor

/-!
# How quotients are rounded

Division writes the digits of a quotient in groups, for as long as they fit, and rounds what is
left. `Quotient.Of x` is what every group keeps: quotient and remainder together are the number `x`
at the scale reached. Where no further digit fits, the scale is the one that `rounded` keeps, or
one more if rounding up has led to the bound. So a quotient is rounded like any other result
(`div?_rounded`), and there is one exactly if the exact one is in range (`gives_div?`).
-/

namespace BookFeed.Decimal

variable {a b c : Decimal} {x : ℚ} {divisor digits limit q : Nat} {s : Quotient}

/-! ## Groups of digits -/

theorem groupSize_le (q : Nat) : ∀ limit, groupSize q limit ≤ limit
  | 0 => Nat.le_refl 0
  | limit + 1 => by
    unfold groupSize
    split
    · exact Nat.le_refl _
    · exact (groupSize_le q limit).trans (Nat.le_succ limit)

theorem groupSize_fits (hq : q < bound) : ∀ limit, q * powerOfTen (groupSize q limit) < bound
  | 0 => by
    show q * 1 < bound
    rwa [Nat.mul_one]
  | limit + 1 => by
    unfold groupSize
    split
    · assumption
    · exact groupSize_fits hq limit

/-- If no group fits, not a single digit does. -/
theorem groupSize_eq_zero : ∀ {limit}, groupSize q limit = 0 → limit = 0 ∨ bound ≤ q * 10
  | 0, _ => .inl rfl
  | limit + 1, h => by
    unfold groupSize at h
    split at h
    · exact absurd h (Nat.succ_ne_zero limit)
    · rename_i hbig
      rcases groupSize_eq_zero h with rfl | hten
      · exact .inr (Nat.not_lt.mp hbig)
      · exact .inr hten

theorem powerOfTen_cast (n : Nat) : (powerOfTen n : ℚ) = 10 ^ (n : ℤ) := by
  rw [zpow_natCast]
  exact Nat.cast_pow 10 n

theorem div_add_mod_div (n : Nat) {d : Nat} (hd : 0 < d) :
    ((n / d : Nat) + (n % d : Nat) / d : ℚ) = n / d := by
  rw [eq_div_iff (by positivity), add_mul, div_mul_cancel₀ _ (by positivity)]
  exact_mod_cast Nat.div_add_mod' n d

/-! ## What every group keeps -/

/-- The division is that of the number `x`: this is what has been written, with what is left. -/
structure Quotient.Of (x : ℚ) (divisor : Nat) (s : Quotient) : Prop where
  value : (s.quotient + s.remainder / divisor : ℚ) = x * 10 ^ s.scale
  remainder_lt : s.remainder < divisor
  scale_le : s.scale ≤ maxScale
  quotient_lt : s.quotient < 2 * bound

theorem Quotient.Of.step (h : s.Of x divisor) (hdigits : digits ≤ 9)
    (hfits : s.quotient * powerOfTen digits < bound) (hscale : s.scale + digits ≤ maxScale) :
    (s.step divisor digits).Of x divisor := by
  have hpos : 0 < divisor := Nat.zero_lt_of_lt h.remainder_lt
  have hpow : powerOfTen digits ≤ powerOfTen 9 := Nat.pow_le_pow_right (by decide) hdigits
  have hnine : powerOfTen 9 < bound := by decide
  have hgroup : s.remainder * powerOfTen digits / divisor < powerOfTen digits := by
    rw [Nat.div_lt_iff_lt_mul hpos, Nat.mul_comm]
    exact Nat.mul_lt_mul_of_pos_left h.remainder_lt (powerOfTen_pos digits)
  refine ⟨?_, Nat.mod_lt _ hpos, hscale, ?_⟩
  · show ((s.quotient * powerOfTen digits + s.remainder * powerOfTen digits / divisor : Nat) +
      (s.remainder * powerOfTen digits % divisor : Nat) / divisor : ℚ) = x * 10 ^ (s.scale + digits)
    have hrest := div_add_mod_div (s.remainder * powerOfTen digits) hpos
    rw [zpow_add₀ (by norm_num), ← mul_assoc, ← h.value, ← powerOfTen_cast, Nat.cast_add, add_assoc,
      hrest]
    push_cast
    ring
  · show s.quotient * powerOfTen digits + _ < _
    omega

/-- The next group that fits. -/
theorem Quotient.Of.step_group (h : s.Of x divisor) (hq : s.quotient < bound)
    (hgroup : groupSize s.quotient (min 9 (28 - s.scale).toNat) = digits) :
    (s.step divisor digits).Of x divisor := by
  have hle : s.scale ≤ 28 := h.scale_le
  have hsize := groupSize_le s.quotient (min 9 (28 - s.scale).toNat)
  have hdigits := groupSize_fits hq (min 9 (28 - s.scale).toNat)
  rw [hgroup] at hsize hdigits
  refine h.step (by omega) hdigits ?_
  show s.scale + (digits : Nat) ≤ 28
  omega

/-- In units of the last digit that is written. -/
theorem Quotient.Of.nearest_eq (h : s.Of x divisor) {k : Nat} (hk : s.scale = k) :
    nearest (x * powerOfTen k) = roundHalfEven (s.quotient * divisor + s.remainder) divisor := by
  have hpos : 0 < divisor := Nat.zero_lt_of_lt h.remainder_lt
  rw [← nearest_div hpos, powerOfTen_cast, ← hk, ← h.value]
  congr 1
  push_cast
  rw [add_div, mul_div_cancel_right₀ _ (by positivity)]

/-- In units of the digit before it. -/
theorem Quotient.Of.nearest_eq_before (h : s.Of x divisor) {k : Nat} (hk : s.scale = k + 1) :
    nearest (x * powerOfTen k) =
      roundHalfEven (s.quotient * divisor + s.remainder) (divisor * 10) := by
  have hpos : 0 < divisor := Nat.zero_lt_of_lt h.remainder_lt
  have hten : x * powerOfTen k * 10 = s.quotient + s.remainder / divisor := by
    rw [h.value, hk, zpow_add_one₀ (by norm_num), powerOfTen_cast, mul_assoc]
  rw [← nearest_div (by omega)]
  congr 1
  push_cast
  rw [← div_div, add_div, mul_div_cancel_right₀ _ (by positivity), ← hten,
    mul_div_cancel_right₀ _ (by norm_num)]

theorem Quotient.Of.div_eq (h : s.Of x divisor) :
    (s.quotient * divisor + s.remainder) / divisor = s.quotient := by
  rw [Nat.mul_comm, Nat.mul_add_div (Nat.zero_lt_of_lt h.remainder_lt),
    Nat.div_eq_of_lt h.remainder_lt, Nat.add_zero]

/-- Where ten times what is written does not fit, no further digit does. -/
theorem Quotient.Of.bound_le_next (h : s.Of x divisor) {k : Nat} (hk : s.scale = k)
    (hten : bound ≤ s.quotient * 10) : bound ≤ nearest (x * powerOfTen (k + 1)) := by
  have hle : ((s.quotient * 10 : Nat) : ℚ) ≤ x * powerOfTen (k + 1) := by
    have hx : x * powerOfTen (k + 1) = (s.quotient + s.remainder / divisor) * 10 := by
      rw [h.value, hk, ← powerOfTen_cast, powerOfTen_succ, Nat.cast_mul, mul_assoc]
      rfl
    have hrest : (0 : ℚ) ≤ s.remainder / divisor := by positivity
    rw [hx]
    push_cast
    linarith
  calc bound ≤ s.quotient * 10 := hten
    _ = nearest (s.quotient * 10 : Nat) := (nearest_natCast _).symm
    _ ≤ nearest (x * powerOfTen (k + 1)) := nearest_mono (Nat.cast_nonneg _) hle

/-- One digit less than what is written fits. -/
theorem Quotient.Of.before_fits (h : s.Of x divisor) {k : Nat} (hk : s.scale = k + 1) :
    nearest (x * powerOfTen k) < bound := by
  have hlt := h.quotient_lt
  have hround := roundHalfEven_le (s.quotient * divisor + s.remainder) (divisor * 10)
  rw [← Nat.div_div_eq_div_mul, h.div_eq] at hround
  rw [h.nearest_eq_before hk]
  simp only [bound] at hlt ⊢
  omega

/-- What a division answers: so many units of the digit at this scale are what the number is rounded
to, and a decimal can spell them. -/
structure Quotient.Written (x : ℚ) (q : Nat) (k : Int) : Prop where
  scale_nonneg : 0 ≤ k
  scale_le : k ≤ maxScale
  lt_bound : q < bound
  value : q / powerOfTen k.toNat = rounded x

/-- Where no further digit fits, rounding to the last one that is written, or to the one before it,
is as `rounded` does it. -/
theorem Quotient.Of.round_written (h : s.Of x divisor) (hx : 0 ≤ x)
    (hlast : s.scale = maxScale ∨ bound ≤ s.quotient * 10)
    (hscale : 0 ≤ s.scale ∨ bound ≤ s.quotient) {k : Int} (hr : s.round divisor = some (q, k)) :
    Quotient.Written x q k := by
  have hle := h.scale_le
  unfold Quotient.round at hr
  simp only at hr
  split at hr
  · rename_i hfits
    simp only [Option.some.injEq, Prod.mk.injEq] at hr
    obtain ⟨rfl, rfl⟩ := hr
    have hwritten := le_roundHalfEven (s.quotient * divisor + s.remainder) divisor
    rw [h.div_eq] at hwritten
    obtain ⟨k, hk⟩ := Int.eq_ofNat_of_zero_le (hscale.resolve_right (by omega))
    refine ⟨by omega, hle, hfits, ?_⟩
    rw [hk, Int.toNat_natCast]
    rw [← h.nearest_eq hk] at hfits ⊢
    refine (rounded_eq_of_last hx (by omega) hfits ?_).symm
    exact hlast.imp (fun hlast => by omega) (h.bound_le_next hk)
  · rename_i hbig
    split at hr
    · exact absurd hr (by simp)
    · rename_i hone
      simp only [Option.some.injEq, Prod.mk.injEq] at hr
      obtain ⟨rfl, rfl⟩ := hr
      obtain ⟨k, hk⟩ := Int.eq_ofNat_of_zero_le (show 0 ≤ s.scale - 1 by omega)
      have hnext : s.scale = k + 1 := by omega
      refine ⟨by omega, by omega, h.nearest_eq_before hnext ▸ h.before_fits hnext, ?_⟩
      rw [hk, Int.toNat_natCast, ← h.nearest_eq_before hnext]
      rw [← h.nearest_eq (show s.scale = (k + 1 : Nat) from hnext)] at hbig
      exact (rounded_eq_of_last hx (by omega) (h.before_fits hnext)
        (.inr (Nat.not_lt.mp hbig))).symm

/-- A number of which not even the whole part has been written is at least what its digits so far
stand for. -/
theorem Quotient.Of.quotient_fits (h : s.Of x divisor) (hfits : nearest x < bound)
    (hscale : s.scale ≤ 0) : s.quotient * powerOfTen s.scale.natAbs < bound := by
  have hle : ((s.quotient * powerOfTen s.scale.natAbs : Nat) : ℚ) ≤ x := by
    have hquotient : (s.quotient : ℚ) ≤ x * 10 ^ s.scale := by
      rw [← h.value]
      exact le_add_of_nonneg_right (by positivity)
    have hinverse : (10 : ℚ) ^ s.scale * powerOfTen s.scale.natAbs = 1 := by
      rw [powerOfTen_cast, ← zpow_add₀ (by norm_num), Int.ofNat_natAbs_of_nonpos hscale,
        add_neg_cancel, zpow_zero]
    calc ((s.quotient * powerOfTen s.scale.natAbs : Nat) : ℚ)
        = s.quotient * powerOfTen s.scale.natAbs := Nat.cast_mul _ _
      _ ≤ x * 10 ^ s.scale * powerOfTen s.scale.natAbs := by gcongr
      _ = x := by rw [mul_assoc, hinverse, mul_one]
  calc s.quotient * powerOfTen s.scale.natAbs
      = nearest (s.quotient * powerOfTen s.scale.natAbs : Nat) := (nearest_natCast _).symm
    _ ≤ nearest x := nearest_mono (Nat.cast_nonneg _) hle
    _ < bound := hfits

/-- A number whose whole part fits can be rounded to the last digit that is written. -/
theorem Quotient.Of.isSome_round (h : s.Of x divisor) (hfits : nearest x < bound)
    (hscale : 0 ≤ s.scale) : (s.round divisor).isSome = true := by
  unfold Quotient.round
  simp only
  split
  · rfl
  · rename_i hbig
    split
    · rename_i hone
      have hzero : s.scale = (0 : Nat) := by omega
      rw [← h.nearest_eq hzero, show powerOfTen 0 = 1 from rfl, Nat.cast_one, mul_one] at hbig
      exact absurd hfits hbig
    · rfl

/-! ## Whole divisions -/

/-- A division that comes out needs no rounding. -/
theorem Quotient.Of.exact_rounded (h : s.Of x divisor) (hexact : s.remainder = 0)
    (hscale : 0 ≤ s.scale) (hfits : s.quotient < bound) :
    s.quotient / powerOfTen s.scale.toNat = rounded x := by
  have hle := h.scale_le
  obtain ⟨k, hk⟩ := Int.eq_ofNat_of_zero_le hscale
  have hvalue : x = s.quotient / powerOfTen k := by
    rw [eq_div_iff (powerOfTen_cast_pos k).ne', powerOfTen_cast, ← hk, ← h.value, hexact,
      Nat.cast_zero, zero_div, add_zero]
  rw [hk, Int.toNat_natCast, hvalue]
  exact (rounded_eq_of_fits hfits (by omega)).symm

theorem Quotient.Of.run_written (hx : 0 ≤ x) : ∀ {fuel : Nat} {extended extended' : Bool}
    {s : Quotient} {k : Int}, s.Of x divisor →
    s.run divisor fuel extended = some (q, k, extended') → Quotient.Written x q k
  | 0, _, _, _, _, _, hr => by
    unfold Quotient.run at hr
    exact absurd hr (by simp)
  | fuel + 1, extended, extended', s, k, h, hr => by
    have hle : s.scale ≤ 28 := h.scale_le
    unfold Quotient.run at hr
    split at hr
    · rename_i hbig
      obtain ⟨⟨q', k'⟩, hround, heq⟩ := Option.map_eq_some_iff.mp hr
      simp only [Prod.mk.injEq] at heq
      obtain ⟨rfl, rfl, -⟩ := heq
      exact h.round_written hx (.inr (by omega)) (.inr hbig) hround
    · rename_i hfits
      split at hr
      · rename_i hexact
        split at hr
        · rename_i hscale
          simp only [Option.some.injEq, Prod.mk.injEq] at hr
          obtain ⟨rfl, rfl, -⟩ := hr
          exact ⟨hscale, hle, Nat.not_le.mp hfits,
            h.exact_rounded hexact hscale (Nat.not_le.mp hfits)⟩
        · split at hr
          · rename_i hzeros
            exact run_written hx (h.step (Nat.min_le_left _ _) hzeros (by omega)) hr
          · exact absurd hr (by simp)
      · split at hr
        · rename_i hgroup
          split at hr
          · exact absurd hr (by simp)
          · rename_i hscale
            obtain ⟨⟨q', k'⟩, hround, heq⟩ := Option.map_eq_some_iff.mp hr
            simp only [Prod.mk.injEq] at heq
            obtain ⟨rfl, rfl, -⟩ := heq
            refine h.round_written hx ?_ (.inl (by omega)) hround
            exact (groupSize_eq_zero hgroup).imp_left fun hnone => show s.scale = 28 by omega
        · rename_i digits hgroup
          exact run_written hx (h.step_group (Nat.not_le.mp hfits) hgroup) hr

/-- **A division comes to its end** if the whole part of the number fits: every group of digits leads
to a larger scale, and no digits are left out before the point. -/
theorem Quotient.Of.isSome_run (hfits : nearest x < bound) : ∀ {fuel : Nat} {extended : Bool}
    {s : Quotient}, s.Of x divisor → (maxScale : Int) - s.scale < fuel →
    (s.run divisor fuel extended).isSome = true
  | 0, _, s, h, hfuel => by
    have hle := h.scale_le
    omega
  | fuel + 1, extended, s, h, hfuel => by
    have hle : s.scale ≤ 28 := h.scale_le
    have hwhole := h.quotient_fits hfits
    unfold Quotient.run
    split
    · rename_i hbig
      rw [Option.isSome_map]
      refine h.isSome_round hfits (Int.not_lt.mp fun hscale => ?_)
      have hle := Nat.le_mul_of_pos_right s.quotient (powerOfTen_pos s.scale.natAbs)
      have hlt := hwhole hscale.le
      omega
    · rename_i hquotient
      split
      · split
        · rfl
        · rename_i hscale
          have hzeros : s.quotient * powerOfTen (min 9 s.scale.natAbs) < bound :=
            (Nat.mul_le_mul_left _ (Nat.pow_le_pow_right (by decide)
              (Nat.min_le_right _ _))).trans_lt (hwhole (by omega))
          rw [if_pos hzeros]
          refine isSome_run hfits (h.step (Nat.min_le_left _ _) hzeros (by omega)) ?_
          show (maxScale : Int) - (s.scale + (min 9 s.scale.natAbs : Nat)) < fuel
          omega
      · split
        · rename_i hgroup
          split
          · rename_i hscale
            rcases groupSize_eq_zero hgroup with hnone | hten
            · omega
            · have hpow : powerOfTen 1 ≤ powerOfTen s.scale.natAbs :=
                Nat.pow_le_pow_right (by decide) (by omega)
              have hle := Nat.mul_le_mul_left s.quotient hpow
              exact absurd (hten.trans hle) (Nat.not_le.mpr (hwhole hscale.le))
          · rename_i hscale
            rw [Option.isSome_map]
            exact h.isSome_round hfits (Int.not_lt.mp hscale)
        · rename_i digits hgroup
          refine isSome_run hfits (h.step_group (Nat.not_le.mp hquotient) hgroup) ?_
          show (maxScale : Int) - (s.scale + (digits + 1 : Nat)) < fuel
          omega

/-! ## Trailing zeros -/

theorem value_dropZeros (digits : Nat) (qk : Nat × Nat) :
    ((dropZeros digits qk).1 / powerOfTen (dropZeros digits qk).2 : ℚ) =
      qk.1 / powerOfTen qk.2 := by
  unfold dropZeros
  split
  · rename_i h
    obtain ⟨hle, hzeros⟩ := h
    have hsplit : powerOfTen qk.2 = powerOfTen (qk.2 - digits) * powerOfTen digits := by
      rw [← powerOfTen_add, Nat.sub_add_cancel hle]
    rw [Nat.cast_div (Nat.dvd_of_mod_eq_zero hzeros) (powerOfTen_cast_pos digits).ne', hsplit,
      Nat.cast_mul, div_div, mul_comm (powerOfTen digits : ℚ)]
  · rfl

theorem value_dropEights : ∀ (fuel : Nat) (qk : Nat × Nat),
    ((dropEights fuel qk).1 / powerOfTen (dropEights fuel qk).2 : ℚ) = qk.1 / powerOfTen qk.2
  | 0, _ => rfl
  | fuel + 1, qk => by
    unfold dropEights
    split
    · rename_i h
      rw [value_dropEights fuel, ← value_dropZeros 8 qk, dropZeros, if_pos h.2]
    · rfl

/-- Taking away trailing zeros changes the spelling only. -/
theorem value_tidy (q k : Nat) :
    ((tidy q k).1 / powerOfTen (tidy q k).2 : ℚ) = q / powerOfTen k := by
  unfold tidy
  rw [value_dropZeros, value_dropZeros, value_dropZeros, value_dropEights]

theorem dropZeros_le (digits : Nat) (qk : Nat × Nat) :
    (dropZeros digits qk).1 ≤ qk.1 ∧ (dropZeros digits qk).2 ≤ qk.2 := by
  unfold dropZeros
  split
  · exact ⟨Nat.div_le_self _ _, Nat.sub_le _ _⟩
  · exact ⟨Nat.le_refl _, Nat.le_refl _⟩

theorem dropEights_le : ∀ (fuel : Nat) (qk : Nat × Nat),
    (dropEights fuel qk).1 ≤ qk.1 ∧ (dropEights fuel qk).2 ≤ qk.2
  | 0, _ => ⟨Nat.le_refl _, Nat.le_refl _⟩
  | fuel + 1, qk => by
    unfold dropEights
    split
    · obtain ⟨hq, hk⟩ := dropEights_le fuel (qk.1 / powerOfTen 8, qk.2 - 8)
      exact ⟨hq.trans (Nat.div_le_self _ _), hk.trans (Nat.sub_le _ _)⟩
    · exact ⟨Nat.le_refl _, Nat.le_refl _⟩

theorem tidy_le (q k : Nat) : (tidy q k).1 ≤ q ∧ (tidy q k).2 ≤ k := by
  unfold tidy
  have hone := dropZeros_le 1 (dropZeros 2 (dropZeros 4 (dropEights 3 (q, k))))
  have htwo := dropZeros_le 2 (dropZeros 4 (dropEights 3 (q, k)))
  have hfour := dropZeros_le 4 (dropEights 3 (q, k))
  have height := dropEights_le 3 (q, k)
  exact ⟨hone.1.trans (htwo.1.trans (hfour.1.trans height.1)),
    hone.2.trans (htwo.2.trans (hfour.2.trans height.2))⟩

/-! ## Quotients -/

/-- The number without its sign. -/
def size (a : Decimal) : ℚ := a.magnitude / powerOfTen a.scale

theorem size_nonneg (a : Decimal) : 0 ≤ a.size :=
  div_nonneg (Nat.cast_nonneg _) (powerOfTen_cast_pos _).le

theorem value_eq_size (a : Decimal) : a.value = if a.negative then -a.size else a.size := by
  rw [value, mantissa, cast_signed, size]
  split
  · rw [neg_div]
  · rfl

theorem value_div_value (a b : Decimal) : a.value / b.value =
    if (a.negative != b.negative) then -(a.size / b.size) else a.size / b.size := by
  rw [value_eq_size a, value_eq_size b]
  cases a.negative <;> cases b.negative <;> simp [neg_div, div_neg]

/-- Division begins with the whole part. -/
theorem Quotient.of_start (a : Decimal) (hb : 0 < b.magnitude) :
    Quotient.Of (a.size / b.size) b.magnitude ⟨a.magnitude / b.magnitude,
      a.magnitude % b.magnitude, (a.scale : Int) - b.scale⟩ := by
  have ha := a.scale_le
  refine ⟨?_, Nat.mod_lt _ hb, ?_, ?_⟩
  · have ha' := (powerOfTen_cast_pos a.scale).ne'
    have hb' := (powerOfTen_cast_pos b.scale).ne'
    show ((a.magnitude / b.magnitude : Nat) + (a.magnitude % b.magnitude : Nat) /
      b.magnitude : ℚ) = a.size / b.size * 10 ^ ((a.scale : Int) - b.scale)
    rw [div_add_mod_div _ hb, zpow_sub₀ (by norm_num), ← powerOfTen_cast, ← powerOfTen_cast, size,
      size, div_div_div_comm, div_mul_cancel₀ _ (div_ne_zero ha' hb')]
  · show (a.scale : Int) - b.scale ≤ maxScale
    omega
  · have hlt := a.magnitude_lt
    have hle := Nat.div_le_self a.magnitude b.magnitude
    show a.magnitude / b.magnitude < 2 * bound
    omega

/-- **A quotient keeps the digits that fit.** -/
theorem div?_rounded (h : a.div? b = some c) : c.value = rounded (a.value / b.value) := by
  unfold div? at h
  split at h
  · exact absurd h (by simp)
  · rename_i hb
    split at h
    · rename_i ha
      obtain rfl := Option.some.inj h
      rw [value_eq_zero ha, zero_div, rounded_zero, value_zero]
    · simp only at h
      split at h
      · exact absurd h (by simp)
      · rename_i q k extended hrun
        have hpos : 0 < b.magnitude := by
          rw [isZero, beq_iff_eq] at hb
          omega
        have hdigits := Quotient.Of.run_written
          (div_nonneg a.size_nonneg b.size_nonneg) (Quotient.of_start a hpos) hrun |>.value
        have hspelled : ∀ {q' k' : Nat}, (q' / powerOfTen k' : ℚ) = q / powerOfTen k.toNat →
            mk? (signed (a.negative != b.negative) q') k' = some c →
            c.value = rounded (a.value / b.value) := by
          intro q' k' heq hc
          rw [value, mantissa_mk? hc, scale_mk? hc, cast_signed, value_div_value]
          split
          · rw [rounded_neg, ← hdigits, ← heq, neg_div]
          · rw [← hdigits, ← heq]
        split at h
        · exact hspelled (value_tidy q k.toNat) h
        · exact hspelled rfl h

theorem abs_value (a : Decimal) : |a.value| = a.size := by
  rw [value_eq_size]
  split
  · rw [abs_neg, abs_of_nonneg a.size_nonneg]
  · rw [abs_of_nonneg a.size_nonneg]

/-- There is a quotient if the exact one is in range. -/
theorem isSome_div? (hb : b.value ≠ 0) (h : InRange (a.value / b.value)) :
    (a.div? b).isSome = true := by
  unfold div?
  have hzero : b.isZero = false := Bool.eq_false_iff.mpr fun hz => hb (value_eq_zero hz)
  have hpos : 0 < b.magnitude := by
    rw [isZero, beq_eq_false_iff_ne] at hzero
    omega
  have hstart := Quotient.of_start a hpos
  have hnonneg := div_nonneg a.size_nonneg b.size_nonneg
  have hfits : nearest (a.size / b.size) < bound := by
    rwa [InRange, abs_div, abs_value, abs_value] at h
  rw [if_neg (by rw [hzero]; exact Bool.false_ne_true)]
  split
  · rfl
  · have hsome : (Quotient.run b.magnitude 64 false ⟨a.magnitude / b.magnitude,
        a.magnitude % b.magnitude, (a.scale : Int) - b.scale⟩).isSome = true := by
      refine hstart.isSome_run hfits ?_
      have hle : b.scale ≤ 28 := b.scale_le
      show (28 : Int) - ((a.scale : Int) - b.scale) < 64
      omega
    simp only
    split
    · rename_i hrun
      rw [hrun] at hsome
      exact absurd hsome (by simp)
    · rename_i q k extended hrun
      have hwritten := hstart.run_written hnonneg hrun
      have hscale := hwritten.scale_le
      have hspelled : ∀ {q' k' : Nat}, q' ≤ q → k' ≤ k.toNat →
          (mk? (signed (a.negative != b.negative) q') k').isSome = true := by
        intro q' k' hq hk
        unfold mk?
        rw [dif_pos ⟨by rw [natAbs_signed]; exact hq.trans_lt hwritten.lt_bound, by omega⟩]
        rfl
      split
      · exact hspelled (tidy_le q k.toNat).1 (tidy_le q k.toNat).2
      · exact hspelled (Nat.le_refl _) (Nat.le_refl _)

/-- **There is a quotient exactly if the exact one is in range.** -/
theorem gives_div? (a : Decimal) (hb : b.value ≠ 0) :
    Gives (a.div? b) (InRange (a.value / b.value)) (rounded (a.value / b.value)) := by
  refine ⟨⟨fun h => ?_, isSome_div? hb⟩, fun _ => div?_rounded⟩
  obtain ⟨c, hc⟩ := Option.isSome_iff_exists.mp h
  exact representable_rounded_iff.mp ⟨c, div?_rounded hc⟩

/-! ## Whole parts -/

theorem floor_eq (a : Decimal) : a.floor = ⌊a.value⌋ := by
  rw [floor, value, Rat.floor_intCast_div_natCast,
    Int.fdiv_eq_ediv_of_nonneg _ (Int.natCast_nonneg _)]

end BookFeed.Decimal
