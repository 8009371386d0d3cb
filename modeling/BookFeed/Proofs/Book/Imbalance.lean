import BookFeed.Proofs.Book.Health
import BookFeed.Proofs.Decimal.Total

/-!
# The imbalance is a ratio

The imbalance compares the volume of the best bids with that of the best asks. Each volume is a sum
that may have been rounded, and their difference, their sum and the quotient of the two are rounded
again, each to as many places as fit. `excessShare` is the number that comes of it.

* `abs_excessShare_le_one`, `excessShare_nonneg`: it is a ratio between -1 and 1 all the same, with
  the sign of the difference, because rounding keeps the order of numbers;
* `volume_eq_zero_iff`: a volume is zero only if there is no level to count;
* **`imbalance_is_proper`**: hence the imbalance of any book that was ever written.
-/

namespace BookFeed

namespace Decimal

variable {x y : ℚ}

/-- The excess of one number over another as a share of both, as decimals give it: difference, sum
and quotient are rounded. -/
def excessShare (x y : ℚ) : ℚ := rounded (rounded (x - y) / rounded (x + y))

theorem excessShare_swap (x y : ℚ) : excessShare y x = -excessShare x y := by
  rw [excessShare, excessShare, ← rounded_neg, ← neg_div, ← rounded_neg, neg_sub, add_comm]

theorem excessShare_le_one (hx : 0 ≤ x) (hy : 0 ≤ y) : excessShare x y ≤ 1 := by
  have hle : rounded (x - y) ≤ rounded (x + y) := rounded_mono (by linarith)
  calc excessShare x y ≤ rounded 1 :=
        rounded_mono (div_le_one_of_le₀ hle (rounded_nonneg (add_nonneg hx hy)))
    _ = 1 := rounded_one

/-- **The share is a ratio between -1 and 1**, although the quotient is one of rounded numbers. -/
theorem abs_excessShare_le_one (hx : 0 ≤ x) (hy : 0 ≤ y) : |excessShare x y| ≤ 1 := by
  refine abs_le'.mpr ⟨excessShare_le_one hx hy, ?_⟩
  rw [← excessShare_swap]
  exact excessShare_le_one hy hx

/-- **It has the sign of the excess**, or is zero. -/
theorem excessShare_nonneg (hy : 0 ≤ y) (h : y ≤ x) : 0 ≤ excessShare x y :=
  rounded_nonneg (div_nonneg (rounded_nonneg (sub_nonneg.mpr h))
    (rounded_nonneg (add_nonneg (hy.trans h) hy)))

theorem excessShare_zero_right (hx : 0 < rounded x) : excessShare x 0 = 1 := by
  rw [excessShare, sub_zero, add_zero, div_self hx.ne', rounded_one]

/-- Two numbers that are not negative have a sum, rounded or not, unless both are zero. -/
theorem rounded_add_pos_iff {a b : Decimal} (ha : 0 ≤ a.value) (hb : 0 ≤ b.value) :
    0 < rounded (a.value + b.value) ↔ ¬ (a.value = 0 ∧ b.value = 0) := by
  have hleft : a.value ≤ rounded (a.value + b.value) := by
    have hle := rounded_mono (le_add_of_nonneg_right (a := a.value) hb)
    rwa [rounded_value] at hle
  have hright : b.value ≤ rounded (a.value + b.value) := by
    have hle := rounded_mono (le_add_of_nonneg_left (a := b.value) ha)
    rwa [rounded_value] at hle
  constructor
  · rintro h ⟨ha', hb'⟩
    rw [ha', hb', add_zero, rounded_zero] at h
    exact lt_irrefl _ h
  · intro h
    rcases ha.lt_or_eq with hpos | ha'
    · exact hpos.trans_le hleft
    · exact (hb.lt_of_ne fun hb' => h ⟨ha'.symm, hb'.symm⟩).trans_le hright

end Decimal

open Decimal (excessShare excessShare_swap abs_excessShare_le_one excessShare_nonneg
  excessShare_zero_right isPositive_iff rounded rounded_add_pos_iff SumsFit total)

namespace Book

variable {b : Book} {l : Ladder} {side : Side} {n : Nat} {v : Decimal} {x : Option Decimal}

/-! ## Volumes -/

/-- The amounts at the best `n` levels. -/
def amounts (n : Nat) (l : Ladder) : List Decimal := (l.take n).map (·.2)

theorem amounts_eq_nil_iff : amounts n l = [] ↔ n = 0 ∨ l = [] := by
  rw [amounts, List.map_eq_nil_iff, List.take_eq_nil_iff]

theorem isPositive_of_mem_amounts (hl : l.Sound side) :
    ∀ q ∈ amounts n l, q.isPositive = true := by
  intro q hq
  obtain ⟨e, he, rfl⟩ := List.mem_map.mp hq
  exact hl.positive e (List.mem_of_mem_take he)

/-- **A volume is zero only if there is no level to count.** -/
theorem volume_eq_zero_iff (hl : l.Sound side) (h : volume n l = .ok v) :
    0 ≤ v.value ∧ (v.value = 0 ↔ n = 0 ∨ l = []) := by
  have hsum := Decimal.isPositive_sum? (isPositive_of_mem_amounts hl) (eq_some_of_checked h)
  rw [← amounts_eq_nil_iff]
  split at hsum
  · rename_i hnil
    rw [hsum, Decimal.value_zero]
    exact ⟨le_rfl, fun _ => hnil, fun _ => rfl⟩
  · rename_i hne
    have hpos := isPositive_iff.mp hsum
    exact ⟨hpos.le, fun hzero => absurd hzero hpos.ne', fun hnil => absurd hnil hne⟩

/-- Where no sum on the way has to be rounded the volume is the exact total. -/
theorem volume_of_sumsFit (h : SumsFit (amounts n l)) :
    ∃ v, volume n l = .ok v ∧ v.value = total (amounts n l) := by
  obtain ⟨v, hv, hvalue⟩ := Decimal.sum?_of_sumsFit h
  exact ⟨v, congrArg Checked.of hv, hvalue⟩

theorem value_volume (hv : volume n l = .ok v) (h : SumsFit (amounts n l)) :
    v.value = total (amounts n l) := by
  obtain ⟨v', hv', hvalue⟩ := volume_of_sumsFit h
  obtain rfl := Except.ok.inj (hv.symm.trans hv')
  exact hvalue

/-! ## Imbalances -/

/-- What the imbalance is computed from: there is none where the volumes have no positive sum. -/
theorem imbalance_ok (h : b.imbalance n = .ok x) :
    ∃ bids asks, volume n b.bids = .ok bids ∧ volume n b.asks = .ok asks ∧
      (x = none ∧ ¬ 0 < rounded (bids.value + asks.value) ∨
        ∃ v, x = some v ∧ 0 < rounded (bids.value + asks.value) ∧
          v.value = excessShare bids.value asks.value) := by
  unfold imbalance at h
  obtain ⟨bids, hbids, h⟩ := bind_eq_ok h
  obtain ⟨asks, hasks, h⟩ := bind_eq_ok h
  obtain ⟨sum, hsum, h⟩ := bind_eq_ok h
  have hvalue := Decimal.add?_rounded (eq_some_of_checked hsum)
  refine ⟨bids, asks, hbids, hasks, ?_⟩
  rw [← hvalue, ← isPositive_iff]
  split at h
  · rename_i hpos
    obtain ⟨excess, hexcess, h⟩ := bind_eq_ok h
    obtain ⟨v, hv, h⟩ := bind_eq_ok h
    refine .inr ⟨v, (Except.ok.inj h).symm, hpos, ?_⟩
    have hexcess' := Decimal.add?_rounded (eq_some_of_checked hexcess)
    rw [Decimal.value_neg, ← sub_eq_add_neg] at hexcess'
    rw [Decimal.div?_rounded (eq_some_of_checked hv), hexcess', hvalue, excessShare]
  · rename_i hneg
    exact .inl ⟨(Except.ok.inj h).symm, hneg⟩

/-- **The imbalance is a proper ratio.** Take any writes to a new book and a number of levels for
which no figure is too large. There is no imbalance exactly if no level is looked at or both sides
are empty. Otherwise it lies between -1 and 1, is 1 where there are no asks and -1 where there are
no bids, is not negative if the volume of the bids is at least that of the asks, and not positive if
it is less. The volumes are the sums that the imbalance is computed from; they are the exact totals
where no sum on the way has to be rounded. -/
theorem imbalance_is_proper (pair : String) (ws : List Write) (n : Nat) (x : Option Decimal)
    (h : ((empty pair).writeAll ws).imbalance n = .ok x) :
    let b := (empty pair).writeAll ws
    (x = none ↔ n = 0 ∨ b.bids = [] ∧ b.asks = []) ∧
    ∀ v, x = some v → (-1 ≤ v.value ∧ v.value ≤ 1) ∧
      (b.asks = [] → v.value = 1) ∧ (b.bids = [] → v.value = -1) ∧
      ∃ bids asks, volume n b.bids = .ok bids ∧ volume n b.asks = .ok asks ∧
        (asks.value ≤ bids.value → 0 ≤ v.value) ∧ (bids.value < asks.value → v.value ≤ 0) ∧
        (SumsFit (amounts n b.bids) → bids.value = total (amounts n b.bids)) ∧
        (SumsFit (amounts n b.asks) → asks.value = total (amounts n b.asks)) := by
  intro b
  have hb : b.Sound := sound_writeAll pair ws
  obtain ⟨bids, asks, hbids, hasks, hx⟩ := imbalance_ok h
  obtain ⟨hbid, hbidzero⟩ := volume_eq_zero_iff (hb .bid) hbids
  obtain ⟨hask, haskzero⟩ := volume_eq_zero_iff (hb .ask) hasks
  have hsum : 0 < rounded (bids.value + asks.value) ↔ ¬ (n = 0 ∨ b.bids = [] ∧ b.asks = []) := by
    rw [rounded_add_pos_iff hbid hask, hbidzero, haskzero, ← or_and_left]
    exact Iff.rfl
  rcases hx with ⟨rfl, hnone⟩ | ⟨v, rfl, hpos, hv⟩
  · exact ⟨iff_of_true rfl (by_contra fun hn => hnone (hsum.mpr hn)),
      fun v hv => absurd hv (Option.some_ne_none v).symm⟩
  · refine ⟨iff_of_false (Option.some_ne_none v) (hsum.mp hpos), fun v' hv' => ?_⟩
    obtain rfl := Option.some.inj hv'
    refine ⟨abs_le.mp (hv ▸ abs_excessShare_le_one hbid hask), fun hnil => ?noAsks,
      fun hnil => ?noBids, bids, asks, hbids, hasks, fun hle => ?moreBids, fun hlt => ?moreAsks,
      value_volume hbids, value_volume hasks⟩
    case noAsks =>
      have hzero := haskzero.mpr (.inr hnil)
      rw [hzero, add_zero] at hpos
      rw [hv, hzero, excessShare_zero_right hpos]
    case noBids =>
      have hzero := hbidzero.mpr (.inr hnil)
      rw [hzero, zero_add] at hpos
      rw [hv, hzero, excessShare_swap, excessShare_zero_right hpos]
    case moreBids => exact hv ▸ excessShare_nonneg hask hle
    case moreAsks =>
      rw [hv, excessShare_swap, neg_nonpos]
      exact excessShare_nonneg hbid hlt.le

/-- Over two bids whose total has too many digits and is rounded up, above the ask by one unit of
the last place that is left: the share of that unit is too small for a decimal, so the imbalance is
zero. -/
theorem imbalance_is_proper_rounded_up :
    let ws : List Write := [.snapshot
      [⟨.ofNat 100, { magnitude := 79228162514264337593543950335, scale := 28 }, 1⟩,
        ⟨.ofNat 99, .ofNat 5, 1⟩]
      [⟨.ofNat 101, { magnitude := 12922816251426433759354395033, scale := 27 }, 1⟩] 1]
    let b := (empty "BTC-USDT").writeAll ws
    ∃ v bids asks, b.imbalance 2 = .ok (some v) ∧ (-1 ≤ v.value ∧ v.value ≤ 1) ∧
      volume 2 b.bids = .ok bids ∧ volume 2 b.asks = .ok asks ∧ asks.value < bids.value ∧
      ¬ SumsFit (amounts 2 b.bids) ∧ 0 ≤ v.value := by
  intro ws b
  have h : b.imbalance 2 = .ok (some .zero) := by decide +kernel
  obtain ⟨-, hv⟩ := imbalance_is_proper "BTC-USDT" ws 2 _ h
  obtain ⟨hbounds, -, -, bids, asks, hbids, hasks, hsign, -⟩ := hv _ rfl
  have hbids' : volume 2 b.bids =
      .ok { magnitude := 12922816251426433759354395034, scale := 27 } := by
    decide +kernel
  have hasks' : volume 2 b.asks =
      .ok { magnitude := 12922816251426433759354395033, scale := 27 } := by
    decide +kernel
  obtain rfl := Except.ok.inj (hbids'.symm.trans hbids)
  obtain rfl := Except.ok.inj (hasks'.symm.trans hasks)
  have hlt : Decimal.value { magnitude := 12922816251426433759354395033, scale := 27 } <
      Decimal.value { magnitude := 12922816251426433759354395034, scale := 27 } := by
    decide +kernel
  exact ⟨_, _, _, h, hbounds, hbids', hasks', hlt, by decide +kernel, hsign hlt.le⟩

end Book

end BookFeed
