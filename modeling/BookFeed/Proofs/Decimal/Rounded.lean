import BookFeed.Proofs.Decimal.Order
import Mathlib.Algebra.Group.Nat.Even
import Mathlib.Data.Nat.Find
import Mathlib.Tactic.GCongr
import Mathlib.Tactic.Linarith
import Mathlib.Tactic.Positivity
import Mathlib.Tactic.Ring

/-!
# How results are rounded

`rounded q` is what stands for the number `q` among decimals: of its fractional digits those are
kept that fit (`places q`), and a half in the last one goes to the even neighbour (`nearest`).
`Representable` says that a number is a decimal, in whatever spelling.

* `rounded_of_representable`: a decimal is not rounded;
* `rounded_mono`: rounding keeps the order of numbers, although larger ones keep fewer digits;
* **`fit?_rounded`**: what `Decimal.fit?` gives is `rounded`. So are sums (`add?_rounded`) and
  products (`mul?_rounded`).
-/

namespace BookFeed

/-! ## The nearest natural number -/

/-- The nearest natural number, for a number that is not negative: a half goes to the even
neighbour. -/
def nearest (x : ℚ) : Nat := roundHalfEven x.num.natAbs x.den

variable {m n d : Nat} {x y : ℚ}

/-- Half below a number rounding goes up to it, and at the half if it is even. -/
theorem le_roundHalfEven_iff (hd : 0 < d) : m ≤ roundHalfEven n d ↔
    2 * (m * d) < 2 * n + d ∨ 2 * (m * d) = 2 * n + d ∧ Even m := by
  have hr := Nat.mod_lt n hd
  have hn := Nat.div_add_mod n d
  rw [Nat.even_iff]
  simp only [roundHalfEven]
  generalize n / d = q at hn ⊢
  generalize n % d = r at hn hr ⊢
  rcases Nat.lt_trichotomy m (q + 1) with hm | rfl | hm
  · -- up to the quotient
    have hle : m * d ≤ q * d := Nat.mul_le_mul_right d (Nat.le_of_lt_succ hm)
    rw [Nat.mul_comm q d] at hle
    constructor
    · intro _
      omega
    · intro _
      split <;> omega
  · -- the next one
    rw [Nat.add_mul, Nat.one_mul, Nat.mul_comm q d]
    split <;> omega
  · -- beyond it
    have hle : (q + 2) * d ≤ m * d := Nat.mul_le_mul_right d hm
    rw [Nat.add_mul, Nat.mul_comm q d] at hle
    constructor
    · intro h
      split at h <;> omega
    · intro _
      omega

theorem le_roundHalfEven_iff_div (hd : 0 < d) : m ≤ roundHalfEven n d ↔
    2 * (m : ℚ) < 2 * (n / d) + 1 ∨ 2 * (m : ℚ) = 2 * (n / d) + 1 ∧ Even m := by
  have hd' : (0 : ℚ) < d := Nat.cast_pos.mpr hd
  have hmul : (2 * (n / d) + 1 : ℚ) * d = 2 * n + d := by
    rw [add_mul, mul_assoc, div_mul_cancel₀ _ hd'.ne', one_mul]
  rw [le_roundHalfEven_iff hd, ← mul_lt_mul_iff_left₀ hd', ← mul_left_inj' hd'.ne', hmul, mul_assoc]
  norm_cast

theorem le_nearest_iff (hx : 0 ≤ x) : m ≤ nearest x ↔
    2 * (m : ℚ) < 2 * x + 1 ∨ 2 * (m : ℚ) = 2 * x + 1 ∧ Even m := by
  have hnum : (x.num.natAbs : ℚ) / x.den = x := by
    rw [Nat.cast_natAbs, abs_of_nonneg (Rat.num_nonneg.mpr hx), Rat.num_div_den]
  rw [nearest, le_roundHalfEven_iff_div x.den_pos, hnum]

theorem nearest_div (hd : 0 < d) : nearest (n / d) = roundHalfEven n d :=
  eq_of_forall_le_iff fun _ => by rw [le_nearest_iff (by positivity), le_roundHalfEven_iff_div hd]

@[simp] theorem nearest_natCast (n : Nat) : nearest n = n :=
  eq_of_forall_le_iff fun m => by
    rw [le_nearest_iff n.cast_nonneg]
    norm_cast
    omega

theorem nearest_mono (hx : 0 ≤ x) (h : x ≤ y) : nearest x ≤ nearest y := by
  rw [le_nearest_iff (hx.trans h)]
  rcases (le_nearest_iff hx).mp (Nat.le_refl (nearest x)) with hlt | ⟨heq, heven⟩
  · exact .inl (by linarith)
  · rcases h.lt_or_eq with h | rfl
    · exact .inl (by linarith)
    · exact .inr ⟨heq, heven⟩

theorem two_mul_nearest_le (hx : 0 ≤ x) : 2 * (nearest x : ℚ) ≤ 2 * x + 1 := by
  rcases (le_nearest_iff hx).mp (Nat.le_refl (nearest x)) with h | ⟨h, -⟩
  · exact h.le
  · exact h.le

namespace Decimal

/-! ## Digits that fit -/

/-- Some decimal spells the number. -/
def Representable (q : ℚ) : Prop := ∃ d : Decimal, d.value = q

/-- How many fractional digits of the number fit. -/
def places (q : ℚ) : Nat :=
  Nat.findGreatest (fun k => nearest (|q| * powerOfTen k) < bound) maxScale

/-- The number with the fractional digits that fit, a half in the last one rounded to the even
neighbour. -/
def rounded (q : ℚ) : ℚ :=
  let r : ℚ := nearest (|q| * powerOfTen (places q)) / powerOfTen (places q)
  if q < 0 then -r else r

variable {q r : ℚ} {k l : Nat}

theorem places_le (q : ℚ) : places q ≤ maxScale := Nat.findGreatest_le _

theorem places_neg (q : ℚ) : places (-q) = places q := by
  unfold places
  rw [abs_neg]

theorem rounded_of_nonneg (h : 0 ≤ q) :
    rounded q = nearest (q * powerOfTen (places q)) / powerOfTen (places q) := by
  unfold rounded
  rw [if_neg (not_lt.mpr h), abs_of_nonneg h]

@[simp] theorem rounded_zero : rounded 0 = 0 := by
  rw [rounded_of_nonneg le_rfl, zero_mul, ← Nat.cast_zero, nearest_natCast, Nat.cast_zero, zero_div]

@[simp] theorem rounded_neg (q : ℚ) : rounded (-q) = -rounded q := by
  rcases lt_trichotomy q 0 with h | rfl | h
  · unfold rounded
    rw [places_neg, abs_neg, if_pos h, if_neg (by linarith), neg_neg]
  · simp
  · unfold rounded
    rw [places_neg, abs_neg, if_neg (not_lt.mpr h.le), if_pos (by linarith)]

theorem nearest_scaled_mono (hq : 0 ≤ q) (h : k ≤ l) :
    nearest (q * powerOfTen k) ≤ nearest (q * powerOfTen l) := by
  have hpow : (powerOfTen k : ℚ) ≤ powerOfTen l :=
    Nat.cast_le.mpr (Nat.pow_le_pow_right (by decide) h)
  exact nearest_mono (by positivity) (mul_le_mul_of_nonneg_left hpow hq)

/-- The last digit that fits: it is the last one there may be, or the next one does not fit. -/
theorem places_eq (hq : 0 ≤ q) (hk : k ≤ maxScale) (hfits : nearest (q * powerOfTen k) < bound)
    (hlast : k = maxScale ∨ bound ≤ nearest (q * powerOfTen (k + 1))) : places q = k := by
  unfold places
  rw [abs_of_nonneg hq]
  refine (Nat.findGreatest_eq_iff.mpr ⟨hk, fun _ => hfits, fun l hkl hl => ?_⟩)
  rcases hlast with rfl | hlast
  · exact absurd hl (Nat.not_le.mpr hkl)
  · exact Nat.not_lt.mpr (hlast.trans (nearest_scaled_mono hq hkl))

theorem le_places (hq : 0 ≤ q) (hk : k ≤ maxScale) (hfits : nearest (q * powerOfTen k) < bound) :
    k ≤ places q := by
  rw [← abs_of_nonneg hq] at hfits
  exact Nat.le_findGreatest (P := fun k => nearest (|q| * powerOfTen k) < bound) hk hfits

theorem rounded_eq_of_last (hq : 0 ≤ q) (hk : k ≤ maxScale)
    (hfits : nearest (q * powerOfTen k) < bound)
    (hlast : k = maxScale ∨ bound ≤ nearest (q * powerOfTen (k + 1))) :
    rounded q = nearest (q * powerOfTen k) / powerOfTen k := by
  rw [rounded_of_nonneg hq, places_eq hq hk hfits hlast]

/-- A number with so few digits that all fit is not rounded. -/
theorem rounded_eq_of_fits (hn : n < bound) (hk : k ≤ maxScale) :
    rounded (n / powerOfTen k) = n / powerOfTen k := by
  have hpow := powerOfTen_cast_pos k
  have hq : (0 : ℚ) ≤ n / powerOfTen k := by positivity
  have hle : k ≤ places (n / powerOfTen k) := by
    refine le_places hq hk ?_
    rwa [div_mul_cancel₀ _ hpow.ne', nearest_natCast]
  obtain ⟨j, hj⟩ := Nat.exists_eq_add_of_le hle
  -- with more places the number is a natural number still
  have hscaled : (n / powerOfTen k : ℚ) * powerOfTen (places (n / powerOfTen k)) =
      (n * powerOfTen j : Nat) := by
    rw [hj, powerOfTen_add, Nat.cast_mul, Nat.cast_mul, ← mul_assoc,
      div_mul_cancel₀ _ hpow.ne']
  rw [rounded_of_nonneg hq, hscaled, nearest_natCast, ← hscaled,
    mul_div_cancel_right₀ _ (powerOfTen_cast_pos _).ne']

theorem representable_of_scale {m : Int} {scale : Nat} (hm : m.natAbs < bound)
    (hs : scale ≤ maxScale) : Representable (m / powerOfTen scale) := by
  cases h : mk? m scale with
  | none => exact absurd (natAbs_of_mk?_none hs h) (Nat.not_le.mpr hm)
  | some d => exact ⟨d, by rw [value, mantissa_mk? h, scale_mk? h]⟩

/-- A natural number below the bound is a decimal. -/
theorem representable_natCast {n : Nat} (hn : n < bound) : Representable n := by
  have h : Representable ((n : Int) / powerOfTen 0) := representable_of_scale hn (by decide)
  rwa [show powerOfTen 0 = 1 from rfl, Nat.cast_one, div_one, Int.cast_natCast] at h

theorem rounded_of_representable (h : Representable q) : rounded q = q := by
  obtain ⟨d, rfl⟩ := h
  have hfits := rounded_eq_of_fits d.magnitude_lt d.scale_le
  unfold value mantissa signed
  split
  · rw [Int.cast_neg, Int.cast_natCast, neg_div, rounded_neg, hfits]
  · rw [Int.cast_natCast, hfits]

@[simp] theorem rounded_value (a : Decimal) : rounded a.value = a.value :=
  rounded_of_representable ⟨a, rfl⟩

@[simp] theorem rounded_one : rounded 1 = 1 := by
  have h : Representable ((1 : Nat) : ℚ) := representable_natCast (by decide)
  rw [Nat.cast_one] at h
  exact rounded_of_representable h

theorem rounded_nonneg (h : 0 ≤ q) : 0 ≤ rounded q := by
  rw [rounded_of_nonneg h]
  positivity

/-- Rounding up adds half a unit of the last place at most. -/
theorem rounded_le_add (hq : 0 ≤ q) (hk : k ≤ places q) :
    rounded q ≤ q + 1 / (2 * powerOfTen k) := by
  have hpow := powerOfTen_cast_pos (places q)
  have hpowk := powerOfTen_cast_pos k
  have hle : (powerOfTen k : ℚ) ≤ powerOfTen (places q) :=
    Nat.cast_le.mpr (Nat.pow_le_pow_right (by decide) hk)
  calc rounded q = nearest (q * powerOfTen (places q)) / powerOfTen (places q) :=
        rounded_of_nonneg hq
    _ ≤ (q * powerOfTen (places q) + 1 / 2) / powerOfTen (places q) := by
        gcongr
        linarith [two_mul_nearest_le (x := q * powerOfTen (places q)) (by positivity)]
    _ = q + 1 / (2 * powerOfTen (places q)) := by
        rw [add_div, mul_div_cancel_right₀ _ hpow.ne', div_div]
    _ ≤ q + 1 / (2 * powerOfTen k) := by gcongr

/-! ## Order -/

theorem places_antitone (hq : 0 ≤ q) (h : q ≤ r) : places r ≤ places q := by
  unfold places
  refine Nat.findGreatest_mono_left (fun k hk => ?_) _
  rw [abs_of_nonneg (hq.trans h)] at hk
  rw [abs_of_nonneg hq]
  exact (nearest_mono (by positivity)
    (mul_le_mul_of_nonneg_right h (powerOfTen_cast_pos k).le)).trans_lt hk

theorem lt_bound_of_places_ne_zero (hq : 0 ≤ q) (h : places q ≠ 0) :
    nearest (q * powerOfTen (places q)) < bound := by
  have hfits := Nat.findGreatest_of_ne_zero (P := fun k => nearest (|q| * powerOfTen k) < bound)
    (show places q = places q from rfl) h
  rwa [abs_of_nonneg hq] at hfits

theorem bound_le_of_places_lt (hq : 0 ≤ q) (h : places q < k) (hk : k ≤ maxScale) :
    bound ≤ nearest (q * powerOfTen k) := by
  have hnot :=
    Nat.findGreatest_is_greatest (P := fun k => nearest (|q| * powerOfTen k) < bound) h hk
  rw [abs_of_nonneg hq] at hnot
  exact Nat.not_lt.mp hnot

/-- Where one more digit does not fit, what is kept is a tenth of the bound at least. -/
theorem tenth_le_nearest (hq : 0 ≤ q) (h : bound ≤ nearest (q * powerOfTen (k + 1))) :
    7922816251426433759354395034 ≤ nearest (q * powerOfTen k) := by
  rw [le_nearest_iff (by positivity)]
  left
  have htwice := two_mul_nearest_le (x := q * powerOfTen (k + 1)) (by positivity)
  have hcast : (bound : ℚ) ≤ nearest (q * powerOfTen (k + 1)) := Nat.cast_le.mpr h
  rw [powerOfTen_succ, Nat.cast_mul, ← mul_assoc] at htwice hcast
  push_cast [bound] at htwice hcast ⊢
  linarith

/-- What fits with more digits is at most what is a tenth of the bound with fewer. -/
theorem div_le_div_of_tenth (hm : m < bound) (hn : 7922816251426433759354395034 ≤ n) (h : k < l) :
    (m : ℚ) / powerOfTen l ≤ n / powerOfTen k := by
  obtain ⟨j, rfl⟩ := Nat.exists_eq_add_of_lt h
  have hmn : m ≤ n * 10 := by
    simp only [bound] at hm
    omega
  have hpow : powerOfTen (k + j + 1) = powerOfTen k * 10 * powerOfTen j := by
    rw [Nat.add_right_comm, powerOfTen_add, powerOfTen_succ]
  rw [div_le_div_iff₀ (powerOfTen_cast_pos _) (powerOfTen_cast_pos _)]
  norm_cast
  calc m * powerOfTen k ≤ n * 10 * powerOfTen k := Nat.mul_le_mul_right _ hmn
    _ ≤ n * 10 * powerOfTen k * powerOfTen j := Nat.le_mul_of_pos_right _ (powerOfTen_pos j)
    _ = n * powerOfTen (k + j + 1) := by rw [hpow]; ring

theorem rounded_mono_of_nonneg (hq : 0 ≤ q) (h : q ≤ r) : rounded q ≤ rounded r := by
  have hr := hq.trans h
  have hpos := powerOfTen_cast_pos (places r)
  rw [rounded_of_nonneg hq, rounded_of_nonneg hr]
  rcases (places_antitone hq h).eq_or_lt with heq | hlt
  · rw [heq]
    exact div_le_div_of_nonneg_right (Nat.cast_le.mpr (nearest_mono (by positivity)
      (mul_le_mul_of_nonneg_right h (powerOfTen_cast_pos _).le))) (powerOfTen_cast_pos _).le
  · -- the smaller number has more places: in units of the larger it is below a tenth of the bound
    have hqfits := lt_bound_of_places_ne_zero hq (Nat.ne_zero_of_lt hlt)
    have hrlast : bound ≤ nearest (r * powerOfTen (places r + 1)) :=
      bound_le_of_places_lt hr (Nat.lt_succ_self _) (hlt.trans_le (places_le q))
    exact div_le_div_of_tenth hqfits (tenth_le_nearest hr hrlast) hlt

theorem rounded_mono (h : q ≤ r) : rounded q ≤ rounded r := by
  rcases le_total 0 q with hq | hq
  · exact rounded_mono_of_nonneg hq h
  · rcases le_total 0 r with hr | hr
    · have hneg := rounded_nonneg (neg_nonneg.mpr hq)
      rw [rounded_neg] at hneg
      exact (neg_nonneg.mp hneg).trans (rounded_nonneg hr)
    · have hneg := rounded_mono_of_nonneg (neg_nonneg.mpr hr) (neg_le_neg h)
      rw [rounded_neg, rounded_neg] at hneg
      exact neg_le_neg_iff.mp hneg

/-- Rounding does not lead beyond a decimal. -/
theorem abs_rounded_le (hr : Representable r) (h : |q| ≤ r) : |rounded q| ≤ r := by
  obtain ⟨hneg, hpos⟩ := abs_le.mp h
  have hlower := rounded_mono hneg
  have hupper := rounded_mono hpos
  rw [rounded_neg, rounded_of_representable hr] at hlower
  rw [rounded_of_representable hr] at hupper
  exact abs_le.mpr ⟨hlower, hupper⟩

theorem le_two_mul_nearest {x : ℚ} (hx : 0 ≤ x) (h : 1 ≤ nearest x) : x ≤ 2 * nearest x := by
  have hnext : ¬ nearest x + 1 ≤ nearest x := Nat.not_succ_le_self _
  rw [le_nearest_iff hx, not_or, not_lt] at hnext
  have hone : (1 : ℚ) ≤ nearest x := Nat.one_le_cast.mpr h
  have hle := hnext.1
  push_cast at hle
  linarith

/-- **Rounding takes no more than a half away** from a number of one unit at least: of larger ones
it keeps as many digits as fit. -/
theorem half_le_rounded (h : 1 / powerOfTen maxScale ≤ q) : q / 2 ≤ rounded q := by
  have hmax := powerOfTen_cast_pos maxScale
  have hq : 0 ≤ q := (one_div_pos.mpr hmax).le.trans h
  have hpow := powerOfTen_cast_pos (places q)
  have hone : 1 ≤ nearest (q * powerOfTen (places q)) := by
    rcases (places_le q).eq_or_lt with heq | hlt
    · rw [heq, ← nearest_natCast 1]
      refine nearest_mono (Nat.cast_nonneg 1) ?_
      rwa [Nat.cast_one, ← div_le_iff₀ hmax]
    · have hlast : bound ≤ nearest (q * powerOfTen (places q + 1)) :=
        bound_le_of_places_lt hq (Nat.lt_succ_self _) hlt
      exact le_trans (by decide) (tenth_le_nearest hq hlast)
  rw [rounded_of_nonneg hq, div_le_div_iff₀ two_pos hpow, mul_comm _ (2 : ℚ)]
  exact le_two_mul_nearest (by positivity) hone

/-- Rounding does not lead across a decimal of as many places. -/
theorem rounded_le_iff {m : Int} (hn : n + 1 < bound) (hk : k ≤ maxScale) :
    rounded (m / powerOfTen k) ≤ n / powerOfTen k ↔ m ≤ n := by
  have hpow := powerOfTen_cast_pos k
  constructor
  · intro h
    by_contra hm
    have hnext : ((n + 1 : Nat) / powerOfTen k : ℚ) ≤ m / powerOfTen k := by
      rw [div_le_div_iff_of_pos_right hpow]
      exact_mod_cast Int.not_le.mp hm
    have hle := rounded_mono hnext
    rw [rounded_eq_of_fits hn hk] at hle
    have hlt := hle.trans h
    rw [div_le_div_iff_of_pos_right hpow, Nat.cast_le] at hlt
    omega
  · intro h
    have hle : (m / powerOfTen k : ℚ) ≤ n / powerOfTen k := by
      rw [div_le_div_iff_of_pos_right hpow]
      exact_mod_cast h
    rw [← rounded_eq_of_fits (Nat.lt_of_succ_lt hn) hk]
    exact rounded_mono hle

/-- Nothing but a half in the last place there may be, or less, is rounded to zero. -/
theorem rounded_eq_zero_iff (hq : 0 ≤ q) : rounded q = 0 ↔ 2 * q ≤ 1 / powerOfTen maxScale := by
  have hpow := powerOfTen_cast_pos maxScale
  rcases le_or_gt q 1 with hone | hone
  · have hfits : nearest (q * powerOfTen maxScale) < bound := by
      have hle : nearest (q * powerOfTen maxScale) ≤ nearest (powerOfTen maxScale : Nat) :=
        nearest_mono (by positivity) (mul_le_of_le_one_left hpow.le hone)
      rw [nearest_natCast] at hle
      exact hle.trans_lt (by decide)
    have hzero : nearest (q * powerOfTen maxScale) = 0 ↔
        ¬ 1 ≤ nearest (q * powerOfTen maxScale) := by
      omega
    have hodd : ¬ Even 1 := by decide
    rw [rounded_eq_of_last hq (Nat.le_refl _) hfits (.inl rfl), div_eq_zero_iff,
      or_iff_left hpow.ne', Nat.cast_eq_zero, hzero, le_nearest_iff (by positivity),
      le_div_iff₀ hpow]
    push_cast
    constructor
    · intro h
      by_contra hn
      exact h (.inl (by linarith))
    · rintro h (hlt | ⟨-, heven⟩)
      · linarith
      · exact hodd heven
  · have hle := rounded_mono hone.le
    rw [rounded_one] at hle
    constructor
    · intro h
      linarith
    · intro h
      rw [le_div_iff₀ hpow] at h
      have hunit : (1 : ℚ) ≤ powerOfTen maxScale := Nat.one_le_cast.mpr (powerOfTen_pos _)
      exact absurd h (not_le.mpr (one_lt_mul_of_lt_of_le (by linarith) hunit))

/-! ## What the operations give -/

variable {a b c : Decimal} {negative : Bool} {scale : Nat}

theorem natAbs_signed (negative : Bool) (n : Nat) : (signed negative n).natAbs = n := by
  unfold signed
  split <;> simp

theorem signed_natAbs (m : Int) : signed (decide (m < 0)) m.natAbs = m := by
  unfold signed
  split <;> simp only [decide_eq_true_eq] at * <;> omega

theorem cast_signed (negative : Bool) (n : Nat) :
    (signed negative n : ℚ) = if negative then -(n : ℚ) else n := by
  cases negative <;> simp [signed]

theorem rounded_signed (negative : Bool) (n scale : Nat) :
    rounded (signed negative n / powerOfTen scale) =
      if negative then -rounded (n / powerOfTen scale) else rounded (n / powerOfTen scale) := by
  rw [cast_signed]
  cases negative
  · rfl
  · simp only [if_true]
    rw [neg_div, rounded_neg]

theorem lt_bound_of_mk? {m : Int} (h : mk? m scale = some c) : m.natAbs < bound := by
  rw [← mantissa_mk? h, mantissa, natAbs_signed]
  exact c.magnitude_lt

theorem le_maxScale_of_mk? {m : Int} (h : mk? m scale = some c) : scale ≤ maxScale :=
  scale_mk? h ▸ c.scale_le

theorem mantissa_le (a : Decimal) : a.mantissa ≤ ((bound - 1 : Nat) : Int) := by
  have habs : a.mantissa.natAbs < bound := (natAbs_signed _ _).trans_lt a.magnitude_lt
  omega

theorem roundHalfEven_mul (n : Nat) {d : Nat} (hd : 0 < d) : roundHalfEven (n * d) d = n := by
  simp only [roundHalfEven, Nat.mul_mod_left, Nat.mul_div_cancel n hd]
  rw [if_neg]
  omega

/-- As few digits are dropped as will do. -/
theorem fitFrom_eq_some : ∀ {more drop : Nat}, scale - drop ≤ maxScale →
    fitFrom negative n scale drop more = some c → ∃ last, last ≤ drop + more ∧
      mk? (signed negative (roundHalfEven n (powerOfTen last))) (scale - last) = some c ∧
      (last = drop ∨ ∃ before, last = before + 1 ∧ drop ≤ before ∧
        bound ≤ roundHalfEven n (powerOfTen before))
  | 0, drop, _, h => ⟨drop, Nat.le_refl _, h, .inl rfl⟩
  | more + 1, drop, hd, h => by
    unfold fitFrom at h
    split at h
    · rename_i hc
      exact ⟨drop, Nat.le_add_right _ _, h ▸ hc, .inl rfl⟩
    · rename_i hnone
      have hbig := natAbs_of_mk?_none hd hnone
      rw [natAbs_signed] at hbig
      obtain ⟨last, hle, hc, rfl | ⟨before, rfl, hge, hnext⟩⟩ :=
        fitFrom_eq_some (show scale - (drop + 1) ≤ maxScale by omega) h
      · exact ⟨drop + 1, by omega, hc, .inr ⟨drop, rfl, Nat.le_refl _, hbig⟩⟩
      · exact ⟨before + 1, by omega, hc, .inr ⟨before, rfl, by omega, hnext⟩⟩

theorem roundHalfEven_one (n : Nat) : roundHalfEven n 1 = n := by
  have h := roundHalfEven_mul n Nat.one_pos
  rwa [Nat.mul_one] at h

/-- Dropping digits rounds the number in units of the last one kept. -/
theorem nearest_drop {drop : Nat} (h : drop ≤ scale) :
    nearest ((n : ℚ) / powerOfTen scale * powerOfTen (scale - drop)) =
      roundHalfEven n (powerOfTen drop) := by
  have hsplit : powerOfTen scale = powerOfTen drop * powerOfTen (scale - drop) := by
    rw [← powerOfTen_add, Nat.add_sub_cancel' h]
  rw [hsplit, Nat.cast_mul, ← div_div, div_mul_cancel₀ _ (powerOfTen_cast_pos _).ne',
    nearest_div (powerOfTen_pos drop)]

/-- **`fit?` keeps the digits that fit.** -/
theorem fit?_rounded (h : fit? negative n scale = some c) :
    c.value = rounded (signed negative n / powerOfTen scale) := by
  obtain ⟨last, hle, hc, hlast⟩ := fitFrom_eq_some (by omega) h
  have hdrop : last ≤ scale := by omega
  have hfits := lt_bound_of_mk? hc
  rw [natAbs_signed] at hfits
  have hmag : rounded (n / powerOfTen scale) =
      roundHalfEven n (powerOfTen last) / powerOfTen (scale - last) := by
    rcases hlast with hfirst | ⟨before, rfl, -, hnext⟩
    · rcases Nat.eq_zero_or_pos last with rfl | hpos
      · -- nothing is dropped
        have hone : roundHalfEven n (powerOfTen 0) = n := roundHalfEven_one n
        rw [hone] at hfits ⊢
        exact rounded_eq_of_fits hfits (le_maxScale_of_mk? hc)
      · rw [← nearest_drop hdrop] at hfits ⊢
        exact rounded_eq_of_last (by positivity) (le_maxScale_of_mk? hc) hfits (.inl (by omega))
    · rw [← nearest_drop hdrop] at hfits ⊢
      rw [← nearest_drop (show before ≤ scale by omega),
        show scale - before = scale - (before + 1) + 1 by omega] at hnext
      exact rounded_eq_of_last (by positivity) (le_maxScale_of_mk? hc) hfits (.inr hnext)
  rw [rounded_signed, hmag, value, mantissa_mk? hc, scale_mk? hc, cast_signed]
  split
  · rw [neg_div]
  · rfl

theorem value_mul_value (a b : Decimal) :
    a.value * b.value = ((a.mantissa * b.mantissa : Int) : ℚ) / powerOfTen (a.scale + b.scale) := by
  rw [value, value, div_mul_div_comm, powerOfTen_add]
  push_cast
  rfl

/-- **A product keeps the digits that fit.** -/
theorem mul?_rounded (h : a.mul? b = some c) : c.value = rounded (a.value * b.value) := by
  rw [value_mul_value]
  unfold mul? at h
  simp only at h
  generalize a.mantissa * b.mantissa = product at h ⊢
  split at h
  · rename_i hz
    obtain rfl := Option.some.inj h
    rw [hz, Int.cast_zero, zero_div, rounded_zero, value_zero]
  · rw [fit?_rounded h, signed_natAbs]

theorem addAligned_rounded (h : addAligned a b = some c) :
    c.value = rounded (a.value + b.value) := by
  rw [value_eq_shifted (le_max_left a.scale b.scale),
    value_eq_shifted (le_max_right a.scale b.scale), ← add_div]
  unfold addAligned at h
  rw [fit?_rounded h, signed_natAbs]
  push_cast
  rfl

/-- **A sum keeps the digits that fit.** -/
theorem add?_rounded (h : a.add? b = some c) : c.value = rounded (a.value + b.value) := by
  unfold add? at h
  split at h
  · rename_i hz
    obtain rfl := Option.some.inj h
    rw [value_eq_zero hz, zero_add, rounded_value]
  · split at h
    · rename_i hz
      obtain rfl := Option.some.inj h
      rw [value_eq_zero hz, add_zero, rounded_value]
    · exact addAligned_rounded h

end Decimal

end BookFeed
