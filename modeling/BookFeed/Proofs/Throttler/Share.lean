import BookFeed.Proofs.Decimal.Quotient
import BookFeed.Proofs.Throttler.Settings
import Mathlib.Tactic.GCongr
import Mathlib.Tactic.NormNum.DivMod

/-!
# What a percentage leaves of a limit

A percentage of a limit is meant to be `exactShare`, rounded down and at least 1. The decimals that
it is computed with are rounded themselves (`roundedShare`): a product with too many digits may be
rounded up to the next multiple of a hundred (`RoundsUp`), and then the share is one too many. The
quotient by a hundred is harmless, since only numbers below 80 lose digits in it
(`floor_rounded_hundredth`). What is no word falls back to the whole limit, so that a negative
percentage does not bring the limit down at all.

* `capacity_of_nonneg`, `floor_roundedShare`: the share for percentages that are not negative;
* `capacity_of_neg`: the share for those that are;
* **`shareOf_of_fits`**: all of this, for the limits of a new throttler. Percentages of up to 17
  fractional digits are not rounded, and where no percentage is negative, a share is at most the
  limit up to 100 %, and larger limits and percentages have larger shares.
-/

namespace BookFeed

namespace Decimal

variable {d : Decimal}

/-- A hundredth of a decimal has the whole part that it has exactly. -/
theorem floor_rounded_hundredth (h : 0 ≤ d.value) :
    ⌊rounded (d.value / 100)⌋ = ⌊d.value / 100⌋ := by
  rcases Nat.lt_or_ge 26 d.scale with hs | hs
  · -- with so many fractional digits the number is less than 80
    have hlt : d.value / 100 ≤ (8 : Nat) / powerOfTen 1 := by
      have hmantissa : (d.mantissa : ℚ) ≤ bound := by
        exact_mod_cast d.mantissa_le.trans (by decide)
      have hpow : (powerOfTen 27 : ℚ) ≤ powerOfTen d.scale :=
        Nat.cast_le.mpr (Nat.pow_le_pow_right (by decide) hs)
      have hvalue : d.value ≤ bound / powerOfTen 27 :=
        div_le_div₀ (Nat.cast_nonneg _) hmantissa (powerOfTen_cast_pos 27) hpow
      norm_num [powerOfTen] at hvalue ⊢
      linarith
    have hrounded := rounded_mono hlt
    rw [rounded_eq_of_fits (by decide) (by decide)] at hrounded
    have hnonneg := rounded_nonneg (div_nonneg h (by norm_num : (0 : ℚ) ≤ 100))
    have hten : ((8 : Nat) / powerOfTen 1 : ℚ) < 1 := by norm_num [powerOfTen]
    rw [Int.floor_eq_zero_iff.mpr ⟨hnonneg, by linarith⟩,
      Int.floor_eq_zero_iff.mpr ⟨by positivity, by linarith⟩]
  · congr 1
    have hscale : d.value / 100 = d.mantissa / powerOfTen (d.scale + 2) := by
      rw [value, powerOfTen_add, Nat.cast_mul, div_div]
      norm_num [powerOfTen]
    rw [hscale]
    refine rounded_of_representable (representable_of_scale ?_ (show d.scale + 2 ≤ 28 by omega))
    rw [mantissa, natAbs_signed]
    exact d.magnitude_lt

theorem value_ofUInt64 (n : UInt64) : (ofUInt64 n).value = n.toNat := by
  show ((n.toNat : Int) : ℚ) / powerOfTen 0 = _
  rw [show powerOfTen 0 = 1 from rfl, Nat.cast_one, div_one, Int.cast_natCast]

theorem value_hundred : (ofNat 100).value = 100 := by decide +kernel

end Decimal

namespace Throttler

open Decimal (rounded rounded_mono rounded_of_representable)

variable {limit limit' capacity capacity' : UInt32} {pct pct' : Decimal}

/-! ## Shares -/

/-- What the percentage of a limit is exactly. -/
def exactShare (limit : UInt32) (pct : Decimal) : ℚ := limit.toNat * pct.value / 100

/-- What it is by the decimal product, which may be rounded. -/
def roundedShare (limit : UInt32) (pct : Decimal) : ℚ := rounded (limit.toNat * pct.value) / 100

/-- The product is rounded up to the next whole share. -/
def RoundsUp (limit : UInt32) (pct : Decimal) : Prop :=
  ⌊exactShare limit pct⌋ + 1 ≤ roundedShare limit pct

instance (limit : UInt32) (pct : Decimal) : Decidable (RoundsUp limit pct) :=
  inferInstanceAs (Decidable ((_ : ℚ) ≤ _))

theorem shareOf_ok (h : shareOf limit pct = .ok capacity) :
    ∃ product : Decimal, product.value = rounded (limit.toNat * pct.value) ∧
      capacity = max 1 (if 0 ≤ ⌊rounded (product.value / 100)⌋ ∧
          ⌊rounded (product.value / 100)⌋ < UInt32.size then
        UInt32.ofNat ⌊rounded (product.value / 100)⌋.toNat else limit) := by
  unfold shareOf at h
  split at h
  · exact absurd h (by simp)
  · rename_i share hshare
    obtain ⟨product, hproduct, hquotient⟩ := Option.bind_eq_some_iff.mp hshare
    refine ⟨product, ?_, ?_⟩
    · rw [Decimal.mul?_rounded hproduct, Decimal.value_ofUInt64, UInt32.toNat_toUInt64]
    · rw [← Decimal.value_hundred, ← Decimal.div?_rounded hquotient, ← Decimal.floor_eq]
      exact (Except.ok.inj h).symm

theorem toNat_max_one (n : UInt32) : (max 1 n).toNat = max 1 n.toNat := by
  show (if 1 ≤ n then n else 1).toNat = _
  split
  · rename_i h
    exact (Nat.max_eq_right (UInt32.le_iff_toNat_le.mp h)).symm
  · rename_i h
    rw [UInt32.not_le, UInt32.lt_iff_toNat_lt] at h
    exact (Nat.max_eq_left h.le).symm

/-- A percentage that is not negative: the whole part of the share, if that is a word. -/
theorem capacity_of_nonneg (hpct : 0 ≤ pct.value) (h : shareOf limit pct = .ok capacity) :
    (capacity.toNat : ℤ) = max 1 (if ⌊roundedShare limit pct⌋ < UInt32.size then
      ⌊roundedShare limit pct⌋ else limit.toNat) := by
  obtain ⟨product, hproduct, rfl⟩ := shareOf_ok h
  have hnonneg : 0 ≤ product.value := by
    rw [hproduct]
    exact Decimal.rounded_nonneg (by positivity)
  have hfloor : ⌊rounded (product.value / 100)⌋ = ⌊roundedShare limit pct⌋ := by
    rw [Decimal.floor_rounded_hundredth hnonneg, hproduct, roundedShare]
  have hwhole : 0 ≤ ⌊roundedShare limit pct⌋ := by
    rw [roundedShare, ← hproduct]
    exact Int.floor_nonneg.mpr (by positivity)
  rw [hfloor, toNat_max_one]
  split
  · rename_i hword
    rw [if_pos hword.2, UInt32.toNat_ofNat_of_lt' (by omega)]
    omega
  · rename_i hword
    rw [if_neg fun hlt => hword ⟨hwhole, hlt⟩]
    push_cast
    rfl

/-- What of a product is left after rounding it twice is nothing only for products that are as good
as nothing. -/
theorem hundredth_lost_iff (hpct : pct.value < 0) :
    rounded (rounded (limit.toNat * -pct.value) / 100) = 0 ↔
      limit.toNat * -pct.value ≤ 5 / 10 ^ 27 := by
  have hexact : (limit.toNat * -pct.value : ℚ) =
      ((limit.toNat * (-pct.mantissa * powerOfTen (Decimal.maxScale - pct.scale)) : Int) : ℚ) /
        powerOfTen Decimal.maxScale := by
    rw [Decimal.value_eq_shifted pct.scale_le]
    push_cast
    ring
  have hfifty : (5 / 10 ^ 27 : ℚ) = (50 : Nat) / powerOfTen Decimal.maxScale := by
    norm_num [powerOfTen, Decimal.maxScale]
  have hnonneg : 0 ≤ rounded (limit.toNat * -pct.value) :=
    Decimal.rounded_nonneg (mul_nonneg (Nat.cast_nonneg _) (by linarith))
  have hunit : 2 * (rounded (limit.toNat * -pct.value) / 100) ≤ 1 / powerOfTen Decimal.maxScale ↔
      rounded (limit.toNat * -pct.value) ≤ (50 : Nat) / powerOfTen Decimal.maxScale := by
    rw [Nat.cast_ofNat, ← mul_div_assoc, div_le_iff₀ (by norm_num),
      show (1 / powerOfTen Decimal.maxScale * 100 : ℚ) = 2 * (50 / powerOfTen Decimal.maxScale) by
        ring, mul_le_mul_iff_right₀ (by norm_num)]
  -- the product has no more places than a decimal, so its rounding does not lead across the bound
  rw [Decimal.rounded_eq_zero_iff (div_nonneg hnonneg (by norm_num)), hunit, hfifty, hexact,
    Decimal.rounded_le_iff (by decide) (Nat.le_refl _),
    div_le_div_iff_of_pos_right (Decimal.powerOfTen_cast_pos _)]
  exact_mod_cast Iff.rfl

/-- A negative percentage: 1 if all of the share is lost in rounding, and else the whole limit. -/
theorem capacity_of_neg (hpct : pct.value < 0) (h : shareOf limit pct = .ok capacity) :
    capacity = if limit.toNat * -pct.value ≤ 5 / 10 ^ 27 then 1 else max 1 limit := by
  obtain ⟨product, hproduct, rfl⟩ := shareOf_ok h
  have hsize : product.value = -rounded (limit.toNat * -pct.value) := by
    rw [hproduct, mul_neg, Decimal.rounded_neg, neg_neg]
  have hproductNonneg : 0 ≤ rounded (limit.toNat * -pct.value) :=
    Decimal.rounded_nonneg (mul_nonneg (Nat.cast_nonneg _) (by linarith))
  have hnonneg := Decimal.rounded_nonneg (div_nonneg hproductNonneg (by norm_num : (0 : ℚ) ≤ 100))
  rw [hsize, neg_div, Decimal.rounded_neg]
  by_cases hle : limit.toNat * -pct.value ≤ 5 / 10 ^ 27
  · rw [(hundredth_lost_iff hpct).mpr hle, neg_zero, Int.floor_zero, if_pos hle]
    rfl
  · rw [if_neg hle, if_neg]
    rintro ⟨hfloor, -⟩
    rw [Int.floor_nonneg, neg_nonneg, hnonneg.ge_iff_eq'] at hfloor
    exact hle ((hundredth_lost_iff hpct).mp hfloor)

/-! ## Whole shares -/

theorem rounded_hundredfold {n : Nat} (hn : 100 * n < Decimal.bound) :
    rounded (n * 100) = n * 100 := by
  have h := rounded_of_representable (Decimal.representable_natCast hn)
  rwa [Nat.cast_mul, mul_comm, Nat.cast_ofNat] at h

theorem natCast_le_roundedShare {n : Nat} (hn : 100 * n < Decimal.bound)
    (h : n ≤ exactShare limit pct) : n ≤ roundedShare limit pct := by
  rw [exactShare, le_div_iff₀ (by norm_num)] at h
  rw [roundedShare, le_div_iff₀ (by norm_num), ← rounded_hundredfold hn]
  exact rounded_mono h

theorem roundedShare_le_natCast {n : Nat} (hn : 100 * n < Decimal.bound)
    (h : exactShare limit pct ≤ n) : roundedShare limit pct ≤ n := by
  rw [exactShare, div_le_iff₀ (by norm_num)] at h
  rw [roundedShare, div_le_iff₀ (by norm_num), ← rounded_hundredfold hn]
  exact rounded_mono h

theorem exactShare_nonneg (hpct : 0 ≤ pct.value) : 0 ≤ exactShare limit pct := by
  unfold exactShare
  positivity

/-- Rounding leads to the next whole share at most. -/
theorem floor_roundedShare (hpct : 0 ≤ pct.value)
    (hfits : ⌊exactShare limit pct⌋ < UInt32.size) : ⌊roundedShare limit pct⌋ =
      if RoundsUp limit pct then ⌊exactShare limit pct⌋ + 1 else ⌊exactShare limit pct⌋ := by
  have hlower := Int.floor_le (exactShare limit pct)
  have hupper := (Int.lt_floor_add_one (exactShare limit pct)).le
  obtain ⟨n, hn⟩ := Int.eq_ofNat_of_zero_le (Int.floor_nonneg.mpr (exactShare_nonneg hpct))
  have hsmall : 100 * (n + 1) < Decimal.bound := by
    rw [hn] at hfits
    simp only [UInt32.size, Decimal.bound] at hfits ⊢
    omega
  have hge : (⌊exactShare limit pct⌋ : ℚ) ≤ roundedShare limit pct := by
    rw [hn] at hlower ⊢
    exact natCast_le_roundedShare (by omega) hlower
  have hle : roundedShare limit pct ≤ ⌊exactShare limit pct⌋ + 1 := by
    rw [hn] at hupper ⊢
    exact_mod_cast roundedShare_le_natCast hsmall (by exact_mod_cast hupper)
  split
  · rename_i hup
    rw [Int.floor_eq_iff]
    push_cast
    exact ⟨hup, by linarith⟩
  · rename_i hup
    exact Int.floor_eq_iff.mpr ⟨hge, not_le.mp hup⟩

/-- A product that is a decimal is not rounded at all. -/
theorem not_roundsUp_of_representable
    (h : Decimal.Representable (limit.toNat * pct.value)) : ¬ RoundsUp limit pct := by
  rw [RoundsUp, roundedShare, rounded_of_representable h, not_le]
  exact Int.lt_floor_add_one (exactShare limit pct)

theorem product_lt (hfits : ⌊exactShare limit pct⌋ < UInt32.size) :
    limit.toNat * pct.value < (429496729600 : Nat) := by
  have hexact : exactShare limit pct < UInt32.size := by exact_mod_cast Int.floor_lt.mp hfits
  rw [exactShare, div_lt_iff₀ (by norm_num)] at hexact
  norm_num [UInt32.size] at hexact ⊢
  exact hexact

/-- **Percentages of few digits are not rounded.** -/
theorem scale_of_roundsUp (hpct : 0 ≤ pct.value) (hfits : ⌊exactShare limit pct⌋ < UInt32.size)
    (h : RoundsUp limit pct) : 17 < pct.scale := by
  by_contra hscale
  refine not_roundsUp_of_representable ?_ h
  have hproduct : (limit.toNat * pct.value : ℚ) =
      ((limit.toNat * pct.mantissa : Int) : ℚ) / powerOfTen pct.scale := by
    rw [Decimal.value]
    push_cast
    ring
  have hpow : powerOfTen pct.scale ≤ powerOfTen 17 :=
    Nat.pow_le_pow_right (by decide) (Nat.not_lt.mp hscale)
  have hlt := product_lt hfits
  rw [hproduct, div_lt_iff₀ (Decimal.powerOfTen_cast_pos _)] at hlt
  rw [hproduct]
  refine Decimal.representable_of_scale ?_ pct.scale_le
  have hmost : (limit.toNat * pct.mantissa : Int) < Decimal.bound :=
    calc (limit.toNat * pct.mantissa : Int) < 429496729600 * powerOfTen pct.scale := by
          exact_mod_cast hlt
      _ ≤ 429496729600 * powerOfTen 17 := by gcongr
      _ < Decimal.bound := by decide
  have hnonneg : 0 ≤ limit.toNat * pct.mantissa := by
    rw [Decimal.value, le_div_iff₀ (Decimal.powerOfTen_cast_pos _), zero_mul] at hpct
    exact mul_nonneg (Int.natCast_nonneg _) (by exact_mod_cast hpct)
  omega

/-- Only shares that are very close to the next whole one are rounded up. -/
theorem distance_of_roundsUp (hpct : 0 ≤ pct.value)
    (hfits : ⌊exactShare limit pct⌋ < UInt32.size) (h : RoundsUp limit pct) :
    ⌊exactShare limit pct⌋ + 1 - exactShare limit pct ≤ 5 / 10 ^ 20 := by
  have hproduct : 0 ≤ limit.toNat * pct.value := by positivity
  have hplaces : 17 ≤ Decimal.places (limit.toNat * pct.value) := by
    refine Decimal.le_places hproduct (by decide) ?_
    have hle : nearest (limit.toNat * pct.value * powerOfTen 17) ≤
        nearest ((429496729600 * powerOfTen 17 : Nat) : ℚ) := by
      refine nearest_mono (by positivity) ?_
      push_cast
      gcongr
      exact_mod_cast (product_lt hfits).le
    rw [nearest_natCast] at hle
    exact hle.trans_lt (by decide)
  have hround := Decimal.rounded_le_add hproduct hplaces
  rw [RoundsUp, roundedShare, le_div_iff₀ (by norm_num)] at h
  rw [exactShare] at h ⊢
  norm_num [powerOfTen] at hround
  linarith

/-! ## The share that is used -/

theorem capacity_le_limit (hpct : 0 ≤ pct.value) (hle : pct.value ≤ 100) (hlimit : 1 ≤ limit)
    (h : shareOf limit pct = .ok capacity) : capacity ≤ limit := by
  have hlt := limit.toNat_lt
  have hexact : exactShare limit pct ≤ limit.toNat := by
    rw [exactShare, div_le_iff₀ (by norm_num)]
    gcongr
  have hrounded : roundedShare limit pct ≤ limit.toNat := by
    refine roundedShare_le_natCast ?_ hexact
    simp only [Decimal.bound]
    omega
  have hfloor : ⌊roundedShare limit pct⌋ ≤ (limit.toNat : ℤ) := by
    exact_mod_cast (Int.floor_le _).trans hrounded
  have hcapacity := capacity_of_nonneg hpct h
  rw [if_pos (by simp only [UInt32.size]; omega)] at hcapacity
  rw [UInt32.le_iff_toNat_le] at hlimit ⊢
  have hone : UInt32.toNat 1 = 1 := rfl
  omega

theorem capacity_mono (hpct : 0 ≤ pct.value) (hlimit : limit ≤ limit')
    (hle : pct.value ≤ pct'.value) (hfits : ⌊exactShare limit' pct'⌋ + 1 < UInt32.size)
    (h : shareOf limit pct = .ok capacity) (h' : shareOf limit' pct' = .ok capacity') :
    capacity ≤ capacity' := by
  have hpct' := hpct.trans hle
  have hshares : ⌊roundedShare limit pct⌋ ≤ ⌊roundedShare limit' pct'⌋ := by
    refine Int.floor_le_floor ?_
    have hcast : (limit.toNat : ℚ) ≤ limit'.toNat :=
      Nat.cast_le.mpr (UInt32.le_iff_toNat_le.mp hlimit)
    have hproduct : limit.toNat * pct.value ≤ limit'.toNat * pct'.value := by gcongr
    exact div_le_div_of_nonneg_right (rounded_mono hproduct) (by norm_num)
  have hword : ⌊roundedShare limit' pct'⌋ < UInt32.size := by
    rw [floor_roundedShare hpct' (by omega)]
    split <;> omega
  have hcapacity := capacity_of_nonneg hpct h
  have hcapacity' := capacity_of_nonneg hpct' h'
  rw [if_pos (hshares.trans_lt hword)] at hcapacity
  rw [if_pos hword] at hcapacity'
  rw [UInt32.le_iff_toNat_le]
  omega

/-! ## New throttlers -/

/-- What a new throttler makes of a limit of the settings. -/
theorem limit?_new {s : Settings} {t : Throttler} {l : RateLimit} (h : new s = .ok t)
    (hshare : s.share = some pct) (hl : l ∈ s.limits)
    (hcapacity : shareOf l.limit pct = .ok capacity) :
    t.limit? l.path = some { l with limit := capacity } := by
  obtain ⟨limit, hheight, hmem⟩ := new_height h hl
  rw [hshare, height, hcapacity] at hheight
  obtain rfl := Except.ok.inj hheight
  exact (new_configured h).find hmem

/-- **What a percentage leaves of a limit.** Take a limit and a percentage for which no sum is too
large, and an exact share whose whole part is a word. The capacity is what every new throttler with
this percentage gives to such a limit. If the percentage is not negative, it is the exact share
rounded down, and at least 1, unless the product rounds up to the next whole share; then it is one
more (or the whole limit, if that is no word any more). This takes more than 17 fractional digits
and a share that is as good as whole. At up to 100 % the capacity is no more than the limit, and it
does not fall with a larger limit or percentage. For a negative percentage it is the whole limit,
unless all of the product is lost in rounding. -/
theorem shareOf_of_fits (limit capacity : UInt32) (pct : Decimal)
    (h : shareOf limit pct = .ok capacity) (hfits : ⌊exactShare limit pct⌋ < UInt32.size) :
    (∀ s t, new s = .ok t → s.share = some pct → ∀ l ∈ s.limits, l.limit = limit →
      t.limit? l.path = some { l with limit := capacity }) ∧
    (0 ≤ pct.value →
      (¬ RoundsUp limit pct → (capacity.toNat : ℤ) = max 1 ⌊exactShare limit pct⌋) ∧
      (RoundsUp limit pct → (capacity.toNat : ℤ) =
        max 1 (if ⌊exactShare limit pct⌋ + 1 < UInt32.size then ⌊exactShare limit pct⌋ + 1
          else limit.toNat)) ∧
      (RoundsUp limit pct → 17 < pct.scale ∧
        ⌊exactShare limit pct⌋ + 1 - exactShare limit pct ≤ 5 / 10 ^ 20) ∧
      (pct.value ≤ 100 → 1 ≤ limit → capacity ≤ limit) ∧
      (∀ limit' capacity' pct', limit ≤ limit' → pct.value ≤ pct'.value →
        shareOf limit' pct' = .ok capacity' → ⌊exactShare limit' pct'⌋ + 1 < UInt32.size →
        capacity ≤ capacity')) ∧
    (pct.value < 0 →
      capacity = if limit.toNat * -pct.value ≤ 5 / 10 ^ 27 then 1 else max 1 limit) := by
  refine ⟨fun s t hnew hshare l hl hlimit => ?_, fun hpct => ⟨fun hexact => ?_, fun hup => ?_,
    fun hup => ⟨scale_of_roundsUp hpct hfits hup, distance_of_roundsUp hpct hfits hup⟩,
    fun hle hlimit => capacity_le_limit hpct hle hlimit h,
    fun limit' capacity' pct' hlimit hle h' hfits' => capacity_mono hpct hlimit hle hfits' h h'⟩,
    fun hpct => capacity_of_neg hpct h⟩
  · subst hlimit
    exact limit?_new hnew hshare hl h
  · rw [capacity_of_nonneg hpct h, floor_roundedShare hpct hfits, if_neg hexact, if_pos hfits]
  · rw [capacity_of_nonneg hpct h, floor_roundedShare hpct hfits, if_pos hup]

/-- A little less than 50 %, with 27 fractional digits. -/
def almostHalf : Decimal := { magnitude := 49999999999999999999999999999, scale := 27 }

/-- Rounding leads from just below two shares to two. -/
theorem shareOf_of_fits_almostHalf :
    shareOf 4 almostHalf = .ok 2 ∧ ⌊exactShare 4 almostHalf⌋ = 1 ∧ RoundsUp 4 almostHalf ∧
      ((2 : UInt32).toNat : ℤ) = max 1 (if (1 : ℤ) + 1 < UInt32.size then 1 + 1 else 4) := by
  have hshare : shareOf 4 almostHalf = .ok 2 := by rfl
  have hfloor : ⌊exactShare 4 almostHalf⌋ = 1 := by decide +kernel
  have hup : RoundsUp 4 almostHalf := by decide +kernel
  have hcapacity := ((shareOf_of_fits 4 2 almostHalf hshare (by rw [hfloor]; decide)).2.1
    (by decide +kernel)).2.1 hup
  rw [hfloor] at hcapacity
  exact ⟨hshare, hfloor, hup, hcapacity⟩

def minusHalf : Decimal := (Decimal.ofNat 50).neg

/-- One limit, of which a percentage is to be used. -/
def sharedLimit (limit : UInt32) (share : Decimal) : Settings where
  limits := [{ path := "/orders", limit, window := 1000 }]
  share := some share

/-- **Shares that are not rounded down.** Of -50 % of 10 all of the 10 is left, where 1 should be,
and of almost 50 % of 4 as much as 2, where 1 should be, too. -/
theorem share_exceeds_floor :
    (∃ t l, new (sharedLimit 10 minusHalf) = .ok t ∧ t.limit? "/orders" = some l ∧
      l.limit = 10 ∧ max 1 ⌊exactShare 10 minusHalf⌋ = 1) ∧
    ∃ t l, new (sharedLimit 4 almostHalf) = .ok t ∧ t.limit? "/orders" = some l ∧
      l.limit = 2 ∧ max 1 ⌊exactShare 4 almostHalf⌋ = 1 :=
  ⟨⟨_, _, rfl, rfl, rfl, by decide +kernel⟩, ⟨_, _, rfl, rfl, rfl, by decide +kernel⟩⟩

end Throttler

end BookFeed
