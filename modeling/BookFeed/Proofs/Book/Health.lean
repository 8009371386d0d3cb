import BookFeed.Proofs.Book.Writes
import BookFeed.Proofs.Decimal.Quotient
import BookFeed.Proofs.Decimal.Sign

/-!
# Which books are healthy

A state calls its book healthy if both sides are there and the spread is not negative. The spread is
a quotient of decimals, so where a book is crossed by next to nothing the spread may be zero.

* `mid_pos`: the mid price of positive prices is positive, however it is rounded;
* `isNonneg_bps_iff`: the spread has the sign of the gap between the best prices, unless the gap is
  lost in the quotient;
* **`state_isHealthy_iff`**: the healthy books, by their best prices; **`crossed_isHealthy`**: there
  are crossed books among them.
-/

namespace BookFeed

open Decimal (bound exists_units isNonneg_iff isPositive_iff maxScale
  powerOfTen_cast_pos representable_of_scale rounded rounded_mono rounded_neg rounded_nonneg_iff
  rounded_of_representable rounded_units_le_iff rounded_units_nonneg_iff unit_le
  value_eq_shifted)

namespace Book

variable {b : Book} {bid ask mid : Decimal} {m : BookMetrics}

/-! ## The figures -/

/-- A figure that is not too large is there. -/
theorem eq_some_of_checked {α : Type} {o : Option α} {a : α} (h : Checked.of o = .ok a) :
    o = some a := by
  cases o with
  | none => exact absurd h (by simp [Checked.of])
  | some a' => exact congrArg some (Except.ok.inj h)

theorem metrics_prices (h : b.metrics = .ok m) :
    b.midPrice = .ok m.midPrice ∧ b.spreadBps = .ok m.spreadBps := by
  unfold metrics at h
  obtain ⟨mid, hmid, h⟩ := bind_eq_ok h
  obtain ⟨spread, hspread, h⟩ := bind_eq_ok h
  obtain ⟨imbalance, -, h⟩ := bind_eq_ok h
  obtain ⟨bidDepth, -, h⟩ := bind_eq_ok h
  obtain ⟨askDepth, -, h⟩ := bind_eq_ok h
  obtain rfl := Except.ok.inj h
  exact ⟨hmid, hspread⟩

theorem two_value : two.value = 2 := by decide +kernel

theorem tenThousand_value : tenThousand.value = 10000 := by decide +kernel

theorem bestBid?_positive (hpos : ∀ side, ∀ e ∈ b.side side, 0 < e.1.value)
    (hb : b.bestBid? = some bid) : 0 < bid.value := by
  obtain ⟨e, he, rfl⟩ := Option.map_eq_some_iff.mp hb
  exact hpos .bid e (List.mem_of_head? he)

theorem bestAsk?_positive (hpos : ∀ side, ∀ e ∈ b.side side, 0 < e.1.value)
    (ha : b.bestAsk? = some ask) : 0 < ask.value := by
  obtain ⟨e, he, rfl⟩ := Option.map_eq_some_iff.mp ha
  exact hpos .ask e (List.mem_of_head? he)

/-- The mid price is rounded twice, as a sum and as a quotient. -/
theorem midPrice_ok {x : Option Decimal} (hb : b.bestBid? = some bid) (ha : b.bestAsk? = some ask)
    (h : b.midPrice = .ok x) :
    ∃ mid, x = some mid ∧ mid.value = rounded (rounded (bid.value + ask.value) / 2) := by
  simp only [midPrice, hb, ha] at h
  obtain ⟨sum, hsum, h⟩ := bind_eq_ok h
  obtain ⟨mid, hmid, h⟩ := bind_eq_ok h
  refine ⟨mid, (Except.ok.inj h).symm, ?_⟩
  rw [Decimal.div?_rounded (eq_some_of_checked hmid), two_value,
    Decimal.add?_rounded (eq_some_of_checked hsum)]

/-- The spread is rounded three times, as a difference, as a quotient and as a product. -/
theorem spreadBps_ok {x : Option Decimal} (hb : b.bestBid? = some bid)
    (ha : b.bestAsk? = some ask) (hm : b.midPrice = .ok (some mid))
    (hpos : mid.isPositive = true) (h : b.spreadBps = .ok x) :
    ∃ share bps : Decimal, x = some bps ∧ bps.value = rounded (share.value * 10000) ∧
      share.value = rounded (rounded (ask.value - bid.value) / mid.value) := by
  unfold spreadBps at h
  simp only [hm, hb, ha, bind, Except.bind, hpos, if_true] at h
  obtain ⟨gap, hgap, h⟩ := bind_eq_ok h
  obtain ⟨share, hshare, h⟩ := bind_eq_ok h
  obtain ⟨bps, hbps, h⟩ := bind_eq_ok h
  have hgap' := Decimal.add?_rounded (eq_some_of_checked hgap)
  rw [Decimal.value_neg, ← sub_eq_add_neg] at hgap'
  refine ⟨share, bps, (Except.ok.inj h).symm, ?_, ?_⟩
  · rw [Decimal.mul?_rounded (eq_some_of_checked hbps), tenThousand_value]
  · rw [Decimal.div?_rounded (eq_some_of_checked hshare), hgap']

/-! ## Signs -/

/-- Half of the sum of two positive prices is a unit of the last place at least. -/
theorem unit_le_half (hb : 0 < bid.value) (ha : 0 < ask.value) :
    1 / powerOfTen maxScale ≤ rounded (bid.value + ask.value) / 2 := by
  have hunits : ((2 : ℤ) : ℚ) / powerOfTen maxScale ≤ bid.value + ask.value := by
    have hle := add_le_add (unit_le hb) (unit_le ha)
    rwa [← add_div, one_add_one_eq_two] at hle
  have hsum := rounded_mono hunits
  rw [rounded_of_representable (representable_of_scale (by decide) (Nat.le_refl _))] at hsum
  rw [le_div_iff₀ two_pos, div_mul_eq_mul_div, one_mul]
  exact hsum

/-- **The mid price of positive prices is positive.** -/
theorem mid_pos (hb : 0 < bid.value) (ha : 0 < ask.value)
    (h : mid.value = rounded (rounded (bid.value + ask.value) / 2)) : mid.isPositive = true := by
  have hunit : ((1 : ℤ) : ℚ) / powerOfTen maxScale ≤ rounded (bid.value + ask.value) / 2 := by
    rw [Int.cast_one]
    exact unit_le_half hb ha
  have hmid := rounded_mono hunit
  rw [rounded_of_representable (representable_of_scale (by decide) (Nat.le_refl _)), ← h] at hmid
  exact isPositive_iff.mpr
    (lt_of_lt_of_le (div_pos (by norm_num) (powerOfTen_cast_pos _)) hmid)

/-- **The spread is negative if the gap is, unless the gap is lost in the quotient.** It is lost if
it is no more than half a unit of the last place in relation to the mid price. The other roundings
keep the sign. -/
theorem isNonneg_bps_iff {share bps : Decimal} (hpos : 0 < mid.value)
    (hbps : bps.value = rounded (share.value * 10000))
    (hshare : share.value = rounded (rounded (ask.value - bid.value) / mid.value)) :
    bps.isNonneg = true ↔
      2 * powerOfTen maxScale * (bid.value - ask.value) ≤ mid.value := by
  have hpow := powerOfTen_cast_pos maxScale
  have hsmall : mid.value / (2 * powerOfTen maxScale) < 4 := by
    rw [div_lt_iff₀ (by positivity)]
    calc mid.value < bound := mid.value_lt
      _ ≤ 4 * (2 * powerOfTen maxScale) := by norm_num [powerOfTen, maxScale, bound]
  -- a multiple of a decimal is whole units, like the decimal itself
  have hsign : bps.isNonneg = true ↔ 0 ≤ share.value := by
    obtain ⟨k, hk⟩ := share.exists_units
    have hmul : share.value * 10000 = (k * 10000 : ℤ) / powerOfTen maxScale := by
      rw [hk]
      push_cast
      ring
    rw [isNonneg_iff, hbps, hmul, rounded_units_nonneg_iff, hk, le_div_iff₀ hpow, zero_mul,
      Int.cast_nonneg_iff]
    omega
  -- and so is a difference of decimals
  have hgap : rounded (bid.value - ask.value) ≤ mid.value / (2 * powerOfTen maxScale) ↔
      bid.value - ask.value ≤ mid.value / (2 * powerOfTen maxScale) := by
    obtain ⟨i, hi⟩ := bid.exists_units
    obtain ⟨j, hj⟩ := ask.exists_units
    have hsub : bid.value - ask.value = (i - j : ℤ) / powerOfTen maxScale := by
      rw [hi, hj, ← sub_div]
      push_cast
      rfl
    rw [hsub]
    exact rounded_units_le_iff (by positivity) hsmall
  calc bps.isNonneg = true ↔ 0 ≤ share.value := hsign
    _ ↔ 2 * (rounded (bid.value - ask.value) / mid.value) ≤ 1 / powerOfTen maxScale := by
      rw [hshare, rounded_nonneg_iff, ← neg_div, ← rounded_neg, neg_sub]
    _ ↔ rounded (bid.value - ask.value) ≤ mid.value / (2 * powerOfTen maxScale) := by
      rw [← mul_div_assoc, div_le_div_iff₀ hpos hpow, le_div_iff₀ (by positivity), one_mul,
        mul_right_comm, mul_comm]
    _ ↔ bid.value - ask.value ≤ mid.value / (2 * powerOfTen maxScale) := hgap
    _ ↔ 2 * powerOfTen maxScale * (bid.value - ask.value) ≤ mid.value := by
      rw [le_div_iff₀ (by positivity), mul_comm]

/-! ## Health -/

/-- A book with both sides has a mid price and a spread, whose sign is that of the gap unless the
gap is lost. -/
theorem spread_of_metrics (hpos : ∀ side, ∀ e ∈ b.side side, 0 < e.1.value)
    (h : b.metrics = .ok m) (hb : b.bestBid? = some bid) (ha : b.bestAsk? = some ask) :
    ∃ mid bps, m.midPrice = some mid ∧ m.spreadBps = some bps ∧ 0 < mid.value ∧
      (bps.isNonneg = true ↔
        2 * powerOfTen maxScale * (bid.value - ask.value) ≤ mid.value) := by
  obtain ⟨hmid, hspread⟩ := metrics_prices h
  obtain ⟨mid, hm, hvalue⟩ := midPrice_ok hb ha hmid
  have hpositive := mid_pos (bestBid?_positive hpos hb) (bestAsk?_positive hpos ha) hvalue
  obtain ⟨share, bps, hs, hbps, hshare⟩ :=
    spreadBps_ok hb ha (hm ▸ hmid) hpositive hspread
  exact ⟨mid, bps, hm, hs, isPositive_iff.mp hpositive,
    isNonneg_bps_iff (isPositive_iff.mp hpositive) hbps hshare⟩

/-- The flag, read off the best prices. -/
theorem isHealthy_iff_of_metrics (hpos : ∀ side, ∀ e ∈ b.side side, 0 < e.1.value)
    (h : b.metrics = .ok m) :
    m.isHealthy = true ↔ ∃ bid ask mid, b.bestBid? = some bid ∧ b.bestAsk? = some ask ∧
      m.midPrice = some mid ∧
      2 * powerOfTen maxScale * (bid.value - ask.value) ≤ mid.value := by
  obtain ⟨hbids, hasks⟩ := metrics_levels h
  constructor
  · intro hhealthy
    simp only [BookMetrics.isHealthy, Bool.and_eq_true, decide_eq_true_eq, hbids, hasks,
      List.length_pos_iff] at hhealthy
    obtain ⟨⟨⟨-, hb⟩, ha⟩, hspread⟩ := hhealthy
    obtain ⟨bid, hb⟩ := Option.ne_none_iff_exists'.mp (mt bestBid?_eq_none_iff.mp hb)
    obtain ⟨ask, ha⟩ := Option.ne_none_iff_exists'.mp (mt bestAsk?_eq_none_iff.mp ha)
    obtain ⟨mid, bps, hm, hs, -, hsign⟩ := spread_of_metrics hpos h hb ha
    rw [hs, Option.any_some] at hspread
    exact ⟨bid, ask, mid, hb, ha, hm, hsign.mp hspread⟩
  · rintro ⟨bid, ask, mid, hb, ha, hm, hgap⟩
    obtain ⟨mid', bps, hm', hs, -, hsign⟩ := spread_of_metrics hpos h hb ha
    obtain rfl := Option.some.inj (hm.symm.trans hm')
    have hbids' : b.bids ≠ [] := fun hnil => by simp [bestBid?, hnil] at hb
    have hasks' : b.asks ≠ [] := fun hnil => by simp [bestAsk?, hnil] at ha
    simp [BookMetrics.isHealthy, hm, hs, hbids, hasks, List.length_pos_iff, hbids', hasks',
      hsign.mpr hgap]

/-- Prices that do not cross have no gap to lose. -/
theorem gap_le_of_le (hpos : 0 < mid.value) (h : bid.value ≤ ask.value) :
    2 * powerOfTen maxScale * (bid.value - ask.value) ≤ mid.value := by
  have hpow := powerOfTen_cast_pos maxScale
  have hgap : 2 * powerOfTen maxScale * (bid.value - ask.value) ≤ 0 :=
    mul_nonpos_of_nonneg_of_nonpos (by positivity) (sub_nonpos.mpr h)
  exact hgap.trans hpos.le

/-- Prices of few places that cross do so by more than is lost in the quotient. -/
theorem gap_le_iff {places : Nat} (hb : bid.scale ≤ places) (ha : ask.scale ≤ places)
    (hpos : 0 < mid.value)
    (hsmall : mid.value * powerOfTen places < 2 * powerOfTen maxScale) :
    2 * powerOfTen maxScale * (bid.value - ask.value) ≤ mid.value ↔ bid.value ≤ ask.value := by
  have hpow := powerOfTen_cast_pos places
  have hmax := powerOfTen_cast_pos maxScale
  constructor
  · intro hgap
    by_contra hcrossed
    -- by one unit of the last of these places at least
    have hunit : 1 ≤ (bid.value - ask.value) * powerOfTen places := by
      rw [value_eq_shifted hb, value_eq_shifted ha, div_le_div_iff_of_pos_right hpow, not_le]
        at hcrossed
      rw [value_eq_shifted hb, value_eq_shifted ha, ← sub_div, div_mul_cancel₀ _ hpow.ne']
      norm_cast at hcrossed ⊢
      omega
    have hscaled := mul_le_mul_of_nonneg_right hgap hpow.le
    have hlarge := mul_le_mul_of_nonneg_left hunit (mul_pos two_pos hmax).le
    linarith
  · exact gap_le_of_le hpos

/-- **Which books are healthy.** Take a book whose prices are positive and a state of it of any
depth. The book is healthy if both sides are there and the best bid exceeds the best ask by no more
than the mid price times `1 / (2 * 10 ^ 28)`. So it is if both sides are there and do not cross; and
there are no other healthy books whose prices have so few places that the mid price is less than
`2 * 10 ^ 28` units of the last of them. -/
theorem state_isHealthy_iff (hpos : ∀ side, ∀ e ∈ b.side side, 0 < e.1.value) {count : Nat}
    {s : BookState} (h : b.state count = .ok s) :
    (s.metrics.isHealthy = true ↔ ∃ bid ask mid, b.bestBid? = some bid ∧
      b.bestAsk? = some ask ∧ s.metrics.midPrice = some mid ∧
      2 * powerOfTen maxScale * (bid.value - ask.value) ≤ mid.value) ∧
    ∀ bid ask, b.bestBid? = some bid → b.bestAsk? = some ask →
      ∃ mid, s.metrics.midPrice = some mid ∧
        (bid.value ≤ ask.value → s.metrics.isHealthy = true) ∧
        ∀ places, bid.scale ≤ places → ask.scale ≤ places →
          mid.value * powerOfTen places < 2 * powerOfTen maxScale →
          (s.metrics.isHealthy = true ↔ bid.value ≤ ask.value) := by
  unfold state at h
  obtain ⟨m, hm, h⟩ := bind_eq_ok h
  obtain rfl := Except.ok.inj h
  have hiff := isHealthy_iff_of_metrics hpos hm
  refine ⟨hiff, fun bid ask hb ha => ?_⟩
  obtain ⟨mid, -, hmid, -, hmidpos, -⟩ := spread_of_metrics hpos hm hb ha
  have hgap : m.isHealthy = true ↔
      2 * powerOfTen maxScale * (bid.value - ask.value) ≤ mid.value := by
    rw [hiff]
    constructor
    · rintro ⟨bid', ask', mid', hb', ha', hmid', hle⟩
      obtain rfl := Option.some.inj (hb.symm.trans hb')
      obtain rfl := Option.some.inj (ha.symm.trans ha')
      obtain rfl := Option.some.inj (hmid.symm.trans hmid')
      exact hle
    · intro hle
      exact ⟨bid, ask, mid, hb, ha, hmid, hle⟩
  refine ⟨mid, hmid, fun hle => hgap.mpr (gap_le_of_le hmidpos hle),
    fun places hbp hap hsmall => ?_⟩
  rw [hgap, gap_le_iff hbp hap hmidpos hsmall]

/-! ## A crossed book that is healthy -/

/-- The bid is one unit of the last place above the ask. -/
def crossedByUnit : Book :=
  (empty "BTC-USDT").writeAll [.snapshot
    [⟨{ magnitude := bound - 1, scale := maxScale }, .ofUInt64 1, 1⟩]
    [⟨{ magnitude := bound - 2, scale := maxScale }, .ofUInt64 1, 1⟩] 1]

theorem crossedByUnit_positive (side : Side) :
    ∀ e ∈ crossedByUnit.side side, 0 < e.1.value := by
  cases side <;> decide +kernel

/-- It has a state, with the spread zero. -/
theorem state_crossedByUnit :
    ∃ s, crossedByUnit.state 1 = .ok s ∧ s.metrics.spreadBps = some .zero ∧
      s.metrics.isHealthy = true := by
  have hflag : (crossedByUnit.state 1).toOption.any
      (fun s => decide (s.metrics.spreadBps = some .zero) && s.metrics.isHealthy) = true := by
    decide +kernel
  cases hs : crossedByUnit.state 1 with
  | error e => simp [hs, Except.toOption] at hflag
  | ok s =>
    rw [hs, Except.toOption, Option.any_some, Bool.and_eq_true, decide_eq_true_eq] at hflag
    exact ⟨s, rfl, hflag⟩

/-- The gap is lost in its quotient by the mid price. -/
theorem crossedByUnit_gap_lost : ∃ s bid ask mid, crossedByUnit.state 1 = .ok s ∧
    crossedByUnit.bestBid? = some bid ∧ crossedByUnit.bestAsk? = some ask ∧
    s.metrics.midPrice = some mid ∧
    2 * powerOfTen maxScale * (bid.value - ask.value) ≤ mid.value := by
  obtain ⟨s, hs, -, hhealthy⟩ := state_crossedByUnit
  obtain ⟨bid, ask, mid, hb, ha, hm, hgap⟩ :=
    (state_isHealthy_iff crossedByUnit_positive hs).1.mp hhealthy
  exact ⟨s, bid, ask, mid, hs, hb, ha, hm, hgap⟩

/-- **A crossed book may be healthy.** -/
theorem crossed_isHealthy : ∃ s bid ask, crossedByUnit.state 1 = .ok s ∧
    crossedByUnit.bestBid? = some bid ∧ crossedByUnit.bestAsk? = some ask ∧
    ask.value < bid.value ∧ s.metrics.isHealthy = true := by
  obtain ⟨s, hs, -, hhealthy⟩ := state_crossedByUnit
  exact ⟨s, _, _, hs, rfl, rfl, by decide +kernel, hhealthy⟩

end Book

end BookFeed
