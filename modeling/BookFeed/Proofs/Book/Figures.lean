import BookFeed.Proofs.Book.States

/-!
# Books that have states of every depth

A figure of a state may be too large for a decimal, and then there is no state. `FiguresFit` says of
the sums behind the figures that they are decimals: the sum of the best prices, the amounts of each
side with every sum on the way, and the best five amounts of both sides together. Nothing is said
of the quotients, nor of the differences.

* **`pricesInRange_of_pos`**: of positive prices only the sum has to be in range. The spread is a
  quotient by the mid price; as the mid price is at least a quarter of the sum of the best prices,
  the quotient is at most 4, and ten thousand times that still fits;
* `prices_of_fits`, `imbalance_of_fits`, `depth_of_fits`: each figure is there;
* **`state_of_fits`**: so there is a state of every depth, and what its figures are.
-/

namespace BookFeed

open Decimal (abs_rounded_le bound half_le_rounded InRange inRange_of_abs_le isPositive_iff maxScale
  Representable representable_natCast rounded rounded_mono rounded_neg SumsFit total)

namespace Book

variable {b : Book} {bid ask mid : Decimal} {l : Ladder} {side : Side}

/-- The sums behind the figures are decimals. -/
structure FiguresFit (b : Book) : Prop where
  prices : ∀ bid ∈ b.bestBid?, ∀ ask ∈ b.bestAsk?, Representable (bid.value + ask.value)
  bids : SumsFit (b.bids.map (·.2))
  asks : SumsFit (b.asks.map (·.2))
  best : Representable (total (amounts 5 b.bids) + total (amounts 5 b.asks))

instance (b : Book) : Decidable b.FiguresFit :=
  decidable_of_iff ((∀ bid ∈ b.bestBid?, ∀ ask ∈ b.bestAsk?,
      Representable (bid.value + ask.value)) ∧ SumsFit (b.bids.map (·.2)) ∧
      SumsFit (b.asks.map (·.2)) ∧
      Representable (total (amounts 5 b.bids) + total (amounts 5 b.asks)))
    ⟨fun ⟨prices, bids, asks, best⟩ => ⟨prices, bids, asks, best⟩,
      fun ⟨prices, bids, asks, best⟩ => ⟨prices, bids, asks, best⟩⟩

/-! ## Prices -/

/-- The mid price is at least a quarter of the sum of the best prices, however they are rounded. -/
theorem quarter_le_mid (hbid : 0 < bid.value) (hask : 0 < ask.value) :
    rounded (bid.value + ask.value) / 4 ≤ rounded (rounded (bid.value + ask.value) / 2) := by
  have hhalf := half_le_rounded (unit_le_half hbid hask)
  linarith

/-- **Of positive prices only the sum has to be in range.** The gap between them is at most their
sum, and so at most four times the mid price. -/
theorem pricesInRange_of_pos (hbid : 0 < bid.value) (hask : 0 < ask.value)
    (h : InRange (bid.value + ask.value)) : PricesInRange bid.value ask.value := by
  refine ⟨h, fun hmid => ?_⟩
  have hquarter := quarter_le_mid hbid hask
  generalize rounded (rounded (bid.value + ask.value) / 2) = mid at hmid hquarter ⊢
  have hgap : |ask.value - bid.value| ≤ bid.value + ask.value :=
    abs_le.mpr ⟨by linarith, by linarith⟩
  have hrounded : |rounded (ask.value - bid.value)| ≤ rounded (bid.value + ask.value) := by
    obtain ⟨hneg, hpos⟩ := abs_le.mp hgap
    have hlower := rounded_mono hneg
    rw [rounded_neg] at hlower
    exact abs_le.mpr ⟨hlower, rounded_mono hpos⟩
  have hfour : |rounded (ask.value - bid.value) / mid| ≤ (4 : Nat) := by
    rw [abs_div, abs_of_pos hmid, div_le_iff₀ hmid]
    push_cast
    linarith
  have hshare := abs_rounded_le (representable_natCast (by decide)) hfour
  refine ⟨h.mono (hgap.trans (le_abs_self _)), inRange_of_abs_le (hfour.trans ?_),
    inRange_of_abs_le ?_⟩
  · exact_mod_cast (by decide : 4 ≤ bound - 1)
  · rw [abs_mul]
    calc _ ≤ (4 : Nat) * |(10000 : ℚ)| := by gcongr
      _ = (4 * 10000 : Nat) := by norm_num
      _ ≤ (bound - 1 : Nat) := by exact_mod_cast (by decide : 4 * 10000 ≤ bound - 1)

/-- So best prices whose sum is a decimal have a mid price and a spread. -/
theorem prices_of_fits (hfit : b.FiguresFit) (hpos : ∀ side, ∀ e ∈ b.side side, 0 < e.1.value)
    (hb : b.bestBid? = some bid) (ha : b.bestAsk? = some ask) :
    ∃ mid bps, b.midPrice = .ok (some mid) ∧ 0 < mid.value ∧ b.spreadBps = .ok (some bps) := by
  have hbid := bestBid?_positive hpos hb
  have hask := bestAsk?_positive hpos ha
  have hrange := pricesInRange_of_pos hbid hask (hfit.prices bid hb ask ha).inRange
  obtain ⟨x, hspread⟩ := (exists_spreadBps_iff hb ha).mpr hrange
  obtain ⟨y, hmid⟩ := midPrice_of_spreadBps hspread
  obtain ⟨mid, rfl, hvalue⟩ := midPrice_ok hb ha hmid
  have hpositive := mid_pos hbid hask hvalue
  obtain ⟨share, bps, rfl, -⟩ := spreadBps_ok hb ha hmid hpositive hspread
  exact ⟨mid, bps, hmid, isPositive_iff.mp hpositive, hspread⟩

/-! ## Amounts -/

theorem amounts_sumsFit (h : SumsFit (l.map (·.2))) (n : Nat) : SumsFit (amounts n l) := by
  have htake := h.take n
  rwa [← List.map_take] at htake

theorem depth_of_fits (h : SumsFit (l.map (·.2))) :
    ∃ d, depth l = .ok d ∧ d.value = total (l.map (·.2)) := by
  obtain ⟨d, hd, hvalue⟩ := Decimal.sum?_of_sumsFit h
  exact ⟨d, congrArg Checked.of hd, hvalue⟩

/-- **The best amounts have an imbalance**, if there is a total of both sides. -/
theorem imbalance_of_fits (hb : b.Sound) (hfit : b.FiguresFit) :
    ∃ x, b.imbalance 5 = .ok x := by
  have hbids := amounts_sumsFit hfit.bids 5
  have hasks := amounts_sumsFit hfit.asks 5
  refine (exists_imbalance_iff hb).mpr ⟨hbids.inRange, hasks.inRange, ?_⟩
  rw [hbids.roundedTotal_eq, hasks.roundedTotal_eq]
  exact hfit.best.inRange

/-! ## States -/

/-- **A book whose sums fit has a state of every depth.** Take any writes to a new book after which
all prices are positive and the sums behind the figures are decimals. Whatever depth is asked for,
there is a state. Its mid price is there, and positive, exactly if both sides are, and so is its
spread; and its depths are the exact totals of the amounts. -/
theorem state_of_fits (pair : String) (ws : List Write)
    (hpos : ∀ side, ∀ e ∈ ((empty pair).writeAll ws).side side, 0 < e.1.value)
    (hfit : ((empty pair).writeAll ws).FiguresFit) (count : Nat) :
    let b := (empty pair).writeAll ws
    ∃ s, b.state count = .ok s ∧
      ((∃ mid, s.metrics.midPrice = some mid ∧ 0 < mid.value) ↔ b.bids ≠ [] ∧ b.asks ≠ []) ∧
      (s.metrics.midPrice = none ↔ ¬ (b.bids ≠ [] ∧ b.asks ≠ [])) ∧
      (s.metrics.spreadBps.isSome = true ↔ b.bids ≠ [] ∧ b.asks ≠ []) ∧
      s.metrics.bidDepth.value = total (b.bids.map (·.2)) ∧
      s.metrics.askDepth.value = total (b.asks.map (·.2)) := by
  intro b
  obtain ⟨imbalance, himbalance⟩ := imbalance_of_fits (sound_writeAll pair ws) hfit
  obtain ⟨bidDepth, hbids, hbidTotal⟩ := depth_of_fits hfit.bids
  obtain ⟨askDepth, hasks, haskTotal⟩ := depth_of_fits hfit.asks
  by_cases hsides : b.bids ≠ [] ∧ b.asks ≠ []
  · obtain ⟨bid, hb⟩ := Option.ne_none_iff_exists'.mp (mt bestBid?_eq_none_iff.mp hsides.1)
    obtain ⟨ask, ha⟩ := Option.ne_none_iff_exists'.mp (mt bestAsk?_eq_none_iff.mp hsides.2)
    obtain ⟨mid, bps, hmid, hmidpos, hbps⟩ := prices_of_fits hfit hpos hb ha
    have hmetrics := metrics_of_figures hmid hbps himbalance hbids hasks
    refine ⟨_, state_of_metrics hmetrics count, ?_⟩
    exact ⟨iff_of_true ⟨mid, rfl, hmidpos⟩ hsides,
      iff_of_false (Option.some_ne_none mid) (not_not_intro hsides), iff_of_true rfl hsides,
      hbidTotal, haskTotal⟩
  · obtain ⟨hmid, hspread⟩ := prices_of_missing (or_iff_not_and_not.mpr hsides)
    have hmetrics := metrics_of_figures hmid hspread himbalance hbids hasks
    refine ⟨_, state_of_metrics hmetrics count, ?_⟩
    exact ⟨iff_of_false (fun ⟨mid, hmid, _⟩ => Option.some_ne_none mid hmid.symm) hsides,
      iff_of_true rfl hsides, iff_of_false Bool.false_ne_true hsides, hbidTotal, haskTotal⟩

/-- The bid is the largest price that there may be beside an ask of one, and the amounts of both
sides together have as many digits as a decimal may have. The sides cross by twice the mid price. -/
theorem state_of_fits_crossed :
    let ws : List Write := [.snapshot
      [⟨{ magnitude := bound - 2, scale := 0 }, { magnitude := 1, scale := maxScale }, 1⟩,
        ⟨.ofNat 5, .ofNat 7, 1⟩]
      [⟨.ofNat 1, { magnitude := 5, scale := 1 }, 1⟩,
        ⟨.ofNat 2, { magnitude := 4, scale := 1 }, 1⟩] 1]
    let b := (empty "BTC-USDT").writeAll ws
    (∀ side, ∀ e ∈ b.side side, 0 < e.1.value) ∧ b.FiguresFit ∧
      ∃ s mid, b.state 7 = .ok s ∧ s.metrics.midPrice = some mid ∧ 0 < mid.value ∧
        s.metrics.spreadBps.isSome = true ∧
        s.metrics.bidDepth.value = 7 + 1 / 10000000000000000000000000000 := by
  intro ws b
  have hpos : ∀ side, ∀ e ∈ b.side side, 0 < e.1.value := by
    intro side
    cases side <;> decide +kernel
  have hfit : b.FiguresFit := by decide +kernel
  have hsides : b.bids ≠ [] ∧ b.asks ≠ [] := by decide +kernel
  obtain ⟨s, hs, hmid, -, hspread, hdepth, -⟩ := state_of_fits "BTC-USDT" ws hpos hfit 7
  obtain ⟨mid, hm, hmidpos⟩ := hmid.mpr hsides
  exact ⟨hpos, hfit, s, mid, hs, hm, hmidpos, hspread.mpr hsides,
    hdepth.trans (by decide +kernel)⟩

end Book

end BookFeed
