import BookFeed.Proofs.Book.Imbalance

/-!
# Which books have states

The figures of a state are sums, differences, quotients and products of decimals, each rounded where
it has too many digits. If one of them is out of range, the computation has no result, and then there
is no state of any depth, since the figures do not depend on it. `FiguresInRange` lists the numbers
that can leave the range: the amounts of each side added up from the best price on, the best five
amounts of both sides together, the sum of the best prices, and what the spread is computed from.

* `exists_spreadBps_iff`, `exists_imbalance_iff`, `exists_metrics_iff`: when there is a figure, and
  when there are all of them;
* **`state_cases`**: a book has states of all depths, or of none, and which it is;
* **`writeAll_shows`**: what a book shows after any writes, and whether there is a state to show it.
-/

namespace BookFeed

open Decimal (Gives gives_add? gives_div? gives_mul? gives_sub? gives_sum? InRange
  inRange_of_abs_le inRange_value isPositive_iff representable_rounded_iff rounded roundedTotal
  roundedTotal_nonneg rounded_mono rounded_neg rounded_nonneg SumsInRange sumsInRange_iff)

namespace Book

variable {α β : Type} {o : Option Decimal} {R : Prop} {q : ℚ} {b : Book} {bid ask mid : Decimal}
  {l : Ladder} {side : Side} {n : Nat}

/-! ## Computations with rounded results -/

theorem checked_of_isSome {o : Option α} (h : o.isSome = true) : ∃ a, Checked.of o = .ok a := by
  obtain ⟨a, rfl⟩ := Option.isSome_iff_exists.mp h
  exact ⟨a, rfl⟩

theorem exists_bind_ok_iff {x : Checked α} {f : α → Checked β} :
    (∃ b, (x >>= f) = .ok b) ↔ ∃ a, x = .ok a ∧ ∃ b, f a = .ok b := by
  constructor
  · rintro ⟨b, h⟩
    obtain ⟨a, ha, hb⟩ := bind_eq_ok h
    exact ⟨a, ha, b, hb⟩
  · rintro ⟨a, rfl, b, hb⟩
    exact ⟨b, hb⟩

/-- **A computation that goes on from a result** has one exactly if there is the first one and it
has one from there. -/
theorem exists_bind_of_iff {f : Decimal → Checked β} {P : Prop} (ho : Gives o R q)
    (hf : ∀ c : Decimal, c.value = q → ((∃ b, f c = .ok b) ↔ P)) :
    (∃ b, (Checked.of o >>= f) = .ok b) ↔ R ∧ P := by
  rw [exists_bind_ok_iff, ← ho.isSome_iff]
  constructor
  · rintro ⟨c, hc, hb⟩
    obtain rfl := eq_some_of_checked hc
    exact ⟨rfl, (hf c (ho.value c rfl)).mp hb⟩
  · rintro ⟨hsome, hp⟩
    obtain ⟨c, rfl⟩ := Option.isSome_iff_exists.mp hsome
    exact ⟨c, rfl, (hf c (ho.value c rfl)).mpr hp⟩

/-- The last result only has to be there. -/
theorem exists_pure_of_iff {f : Decimal → β} (ho : Gives o R q) :
    (∃ b, (Checked.of o >>= fun c => (pure (f c) : Checked β)) = .ok b) ↔ R :=
  (exists_bind_of_iff ho fun _ _ => iff_of_true ⟨_, rfl⟩ trivial).trans (and_iff_left trivial)

theorem exists_of_iff (ho : Gives o R q) : (∃ a, Checked.of o = .ok a) ↔ R := by
  rw [← ho.isSome_iff]
  constructor
  · rintro ⟨a, ha⟩
    rw [eq_some_of_checked ha]
    rfl
  · exact checked_of_isSome

/-! ## Prices -/

/-- What the spread is computed from the gap with is in range: the gap itself, its share of the mid
price, and ten thousand times that. -/
def GapInRange (gap mid : ℚ) : Prop :=
  InRange gap ∧ InRange (rounded gap / mid) ∧ InRange (rounded (rounded gap / mid) * 10000)

/-- What mid price and spread are computed from is in range: the sum of the best prices, and, where
the mid price is positive, what there is to compute from the gap. -/
def PricesInRange (bid ask : ℚ) : Prop :=
  InRange (bid + ask) ∧ (0 < rounded (rounded (bid + ask) / 2) →
    GapInRange (ask - bid) (rounded (rounded (bid + ask) / 2)))

instance (gap mid : ℚ) : Decidable (GapInRange gap mid) :=
  inferInstanceAs (Decidable (_ ∧ _ ∧ _))

instance (bid ask : ℚ) : Decidable (PricesInRange bid ask) :=
  inferInstanceAs (Decidable (_ ∧ (_ → _)))

/-- **Two best prices have a spread exactly if all that it is computed from is in range.** -/
theorem exists_spreadBps_iff (hb : b.bestBid? = some bid) (ha : b.bestAsk? = some ask) :
    (∃ x, b.spreadBps = .ok x) ↔ PricesInRange bid.value ask.value := by
  unfold spreadBps midPrice
  simp only [hb, ha, bind_assoc, pure_bind]
  refine exists_bind_of_iff (gives_add? bid ask) fun sum hsum => ?_
  -- half of a decimal is always in range
  have hhalf : InRange (sum.value / 2) := (inRange_value sum).mono (by
    rw [abs_div, abs_two]
    exact half_le_self (abs_nonneg _))
  have hgives := gives_div? sum (b := two) (by rw [two_value]; exact two_ne_zero)
  rw [two_value, hsum] at hgives
  rw [hsum] at hhalf
  refine (exists_bind_of_iff hgives fun mid hmid => ?_).trans (and_iff_right hhalf)
  rw [← hmid, ← isPositive_iff]
  split
  · rename_i hpos
    refine Iff.trans ?_ (forall_prop_of_true hpos).symm
    refine exists_bind_of_iff (gives_sub? ask bid) fun gap hgap => ?_
    rw [← hgap]
    refine exists_bind_of_iff (gives_div? gap (isPositive_iff.mp hpos).ne') fun share hshare => ?_
    rw [← hshare, ← tenThousand_value]
    exact exists_pure_of_iff (gives_mul? share tenThousand)
  · rename_i hpos
    exact iff_of_true ⟨_, rfl⟩ fun h => absurd h hpos

/-- A book that lacks a side has neither mid price nor spread. -/
theorem prices_of_missing (h : b.bids = [] ∨ b.asks = []) :
    b.midPrice = .ok none ∧ b.spreadBps = .ok none := by
  have hmissing : b.bestBid? = none ∨ b.bestAsk? = none :=
    h.imp bestBid?_eq_none_iff.mpr bestAsk?_eq_none_iff.mpr
  have hmid : b.midPrice = .ok none := by
    unfold midPrice
    rcases hmissing with hb | ha
    · rw [hb]
    · rw [ha]
      cases b.bestBid? <;> rfl
  refine ⟨hmid, ?_⟩
  simp only [spreadBps, hmid, bind, Except.bind]
  cases b.bestBid? <;> cases b.bestAsk? <;> rfl

/-! ## Amounts -/

theorem isPositive_amounts (hl : l.Sound side) : ∀ q ∈ l.map (·.2), q.isPositive = true := by
  intro q hq
  obtain ⟨e, he, rfl⟩ := List.mem_map.mp hq
  exact hl.positive e he

/-- **There is a depth exactly if the total of the amounts is in range.** -/
theorem exists_depth_iff (hl : l.Sound side) :
    (∃ x, depth l = .ok x) ↔ InRange (roundedTotal (l.map (·.2))) :=
  (exists_of_iff (gives_sum? _)).trans (sumsInRange_iff (isPositive_amounts hl))

/-- The total of the best amounts is in range if the total of all is. -/
theorem sumsInRange_amounts (hl : l.Sound side) (h : InRange (roundedTotal (l.map (·.2))))
    (n : Nat) : SumsInRange (amounts n l) := by
  have htake := ((sumsInRange_iff (isPositive_amounts hl)).mpr h).take n
  rwa [← List.map_take] at htake

/-- Of two numbers whose sum is in range the difference is, and its share of the sum, too. -/
theorem inRange_excess {x y : ℚ} (hx : 0 ≤ x) (hy : 0 ≤ y) (h : InRange (x + y)) :
    InRange (x - y) ∧ InRange (rounded (x - y) / rounded (x + y)) := by
  have hle : |x - y| ≤ x + y := abs_le.mpr ⟨by linarith, by linarith⟩
  obtain ⟨hneg, hpos⟩ := abs_le.mp hle
  have hshare : |rounded (x - y) / rounded (x + y)| ≤ 1 := by
    have hlower := rounded_mono hneg
    rw [rounded_neg] at hlower
    have hsum := rounded_nonneg (add_nonneg hx hy)
    rw [abs_div, abs_of_nonneg hsum]
    exact div_le_one_of_le₀ (abs_le.mpr ⟨hlower, rounded_mono hpos⟩) hsum
  refine ⟨h.mono (hle.trans (le_abs_self _)), inRange_of_abs_le (hshare.trans ?_)⟩
  exact_mod_cast (by decide : 1 ≤ Decimal.bound - 1)

/-- **There is an imbalance exactly if the volumes and their sum are in range.** -/
theorem exists_imbalance_iff (hb : b.Sound) : (∃ x, b.imbalance n = .ok x) ↔
    SumsInRange (amounts n b.bids) ∧ SumsInRange (amounts n b.asks) ∧
      InRange (roundedTotal (amounts n b.bids) + roundedTotal (amounts n b.asks)) := by
  unfold imbalance volume
  refine exists_bind_of_iff (gives_sum? (amounts n b.bids)) fun bids hbids => ?_
  refine exists_bind_of_iff (gives_sum? (amounts n b.asks)) fun asks hasks => ?_
  have hbid : 0 ≤ bids.value := hbids ▸ roundedTotal_nonneg (isPositive_of_mem_amounts (hb .bid))
  have hask : 0 ≤ asks.value := hasks ▸ roundedTotal_nonneg (isPositive_of_mem_amounts (hb .ask))
  rw [← hbids, ← hasks]
  refine (exists_bind_of_iff (gives_add? bids asks) fun sum hsum => ?_).trans
    (and_iff_left trivial)
  refine iff_of_true ?_ trivial
  obtain ⟨hexcess, hshare⟩ :=
    inRange_excess hbid hask (representable_rounded_iff.mp ⟨sum, hsum⟩)
  split
  · rename_i hpos
    refine (exists_bind_of_iff (gives_sub? bids asks) fun excess hvalue => ?_).mpr
      ⟨hexcess, hshare⟩
    rw [← hvalue, ← hsum]
    exact exists_pure_of_iff (gives_div? excess (isPositive_iff.mp hpos).ne')
  · exact ⟨_, rfl⟩

/-! ## States -/

/-- All that the figures are computed from is in range, each result on the way being rounded. -/
structure FiguresInRange (b : Book) : Prop where
  /-- the best prices, where both sides have one -/
  prices : ∀ bid ∈ b.bestBid?, ∀ ask ∈ b.bestAsk?, PricesInRange bid.value ask.value
  /-- the total amount of the bids -/
  bids : InRange (roundedTotal (b.bids.map (·.2)))
  /-- the total amount of the asks -/
  asks : InRange (roundedTotal (b.asks.map (·.2)))
  /-- the best five amounts of both sides together -/
  best : InRange (roundedTotal (amounts 5 b.bids) + roundedTotal (amounts 5 b.asks))

instance (b : Book) : Decidable b.FiguresInRange :=
  decidable_of_iff ((∀ bid ∈ b.bestBid?, ∀ ask ∈ b.bestAsk?, PricesInRange bid.value ask.value) ∧
      InRange (roundedTotal (b.bids.map (·.2))) ∧ InRange (roundedTotal (b.asks.map (·.2))) ∧
      InRange (roundedTotal (amounts 5 b.bids) + roundedTotal (amounts 5 b.asks)))
    ⟨fun ⟨prices, bids, asks, best⟩ => ⟨prices, bids, asks, best⟩,
      fun ⟨prices, bids, asks, best⟩ => ⟨prices, bids, asks, best⟩⟩

theorem metrics_of_figures {mid spread imbalance : Option Decimal} {bidDepth askDepth : Decimal}
    (hmid : b.midPrice = .ok mid) (hspread : b.spreadBps = .ok spread)
    (himbalance : b.imbalance 5 = .ok imbalance) (hbids : depth b.bids = .ok bidDepth)
    (hasks : depth b.asks = .ok askDepth) :
    b.metrics = .ok ⟨mid, spread, imbalance, b.lastTrade.map (·.1), bidDepth, askDepth,
      b.bids.length, b.asks.length⟩ := by
  simp only [metrics, hmid, hspread, himbalance, hbids, hasks, bind, Except.bind]
  rfl

/-- A spread is computed from the mid price. -/
theorem midPrice_of_spreadBps {x : Option Decimal} (h : b.spreadBps = .ok x) :
    ∃ mid, b.midPrice = .ok mid := by
  obtain ⟨mid, hmid, -⟩ := bind_eq_ok h
  exact ⟨mid, hmid⟩

theorem exists_metrics_iff_figures : (∃ m, b.metrics = .ok m) ↔ (∃ x, b.spreadBps = .ok x) ∧
    (∃ x, b.imbalance 5 = .ok x) ∧ (∃ x, depth b.bids = .ok x) ∧ ∃ x, depth b.asks = .ok x := by
  constructor
  · rintro ⟨m, h⟩
    unfold metrics at h
    obtain ⟨mid, -, h⟩ := bind_eq_ok h
    obtain ⟨spread, hspread, h⟩ := bind_eq_ok h
    obtain ⟨imbalance, himbalance, h⟩ := bind_eq_ok h
    obtain ⟨bidDepth, hbids, h⟩ := bind_eq_ok h
    obtain ⟨askDepth, hasks, -⟩ := bind_eq_ok h
    exact ⟨⟨spread, hspread⟩, ⟨imbalance, himbalance⟩, ⟨bidDepth, hbids⟩, ⟨askDepth, hasks⟩⟩
  · rintro ⟨⟨spread, hspread⟩, ⟨imbalance, himbalance⟩, ⟨bidDepth, hbids⟩, ⟨askDepth, hasks⟩⟩
    obtain ⟨mid, hmid⟩ := midPrice_of_spreadBps hspread
    exact ⟨_, metrics_of_figures hmid hspread himbalance hbids hasks⟩

/-- **There are figures exactly if all that they are computed from is in range.** -/
theorem exists_metrics_iff (hb : b.Sound) : (∃ m, b.metrics = .ok m) ↔ b.FiguresInRange := by
  have hspread : (∃ x, b.spreadBps = .ok x) ↔
      ∀ bid ∈ b.bestBid?, ∀ ask ∈ b.bestAsk?, PricesInRange bid.value ask.value := by
    by_cases hsides : b.bids ≠ [] ∧ b.asks ≠ []
    · obtain ⟨bid, hbid⟩ := Option.ne_none_iff_exists'.mp (mt bestBid?_eq_none_iff.mp hsides.1)
      obtain ⟨ask, hask⟩ := Option.ne_none_iff_exists'.mp (mt bestAsk?_eq_none_iff.mp hsides.2)
      rw [exists_spreadBps_iff hbid hask, hbid, hask]
      simp
    · have hmissing := or_iff_not_and_not.mpr hsides
      refine iff_of_true ⟨_, (prices_of_missing hmissing).2⟩ fun bid hbid ask hask => ?_
      rcases hmissing with hnil | hnil
      · exact absurd ((bestBid?_eq_none_iff.mpr hnil).symm.trans hbid) (by simp)
      · exact absurd ((bestAsk?_eq_none_iff.mpr hnil).symm.trans hask) (by simp)
  rw [exists_metrics_iff_figures, hspread, exists_imbalance_iff hb,
    exists_depth_iff (l := b.bids) (hb .bid), exists_depth_iff (l := b.asks) (hb .ask)]
  constructor
  · rintro ⟨hprices, ⟨-, -, hbest⟩, hbids, hasks⟩
    exact ⟨hprices, hbids, hasks, hbest⟩
  · rintro ⟨hprices, hbids, hasks, hbest⟩
    exact ⟨hprices, ⟨sumsInRange_amounts (hb .bid) hbids 5, sumsInRange_amounts (hb .ask) hasks 5,
      hbest⟩, hbids, hasks⟩

/-- The state lists the first `count` levels of each side, or all if there are fewer, and counts all
of them. -/
structure Lists (b : Book) (count : Nat) (s : BookState) : Prop where
  bids : s.bids.map (fun v => (v.price, v.quantity)) = b.bids.take count
  asks : s.asks.map (fun v => (v.price, v.quantity)) = b.asks.take count
  length_bids : s.bids.length = min count b.bids.length
  length_asks : s.asks.length = min count b.asks.length
  bidLevels : s.metrics.bidLevels = b.bids.length
  askLevels : s.metrics.askLevels = b.asks.length

theorem map_levels (count : Nat) (l : Ladder) :
    (levels count l).map (fun v => (v.price, v.quantity)) = l.take count := by
  rw [levels, List.map_map]
  exact List.map_id _

theorem length_levels (count : Nat) (l : Ladder) :
    (levels count l).length = min count l.length := by
  rw [levels, List.length_map, List.length_take]

theorem state_of_metrics {m : BookMetrics} (h : b.metrics = .ok m) (count : Nat) :
    b.state count = .ok ⟨b.pair, b.snapshotId, b.appliedId, levels count b.bids,
      levels count b.asks, m⟩ := by
  rw [state, h]
  rfl

/-- **A book has states of all depths, or of none.** It has states exactly if all that the figures
are computed from is in range. -/
theorem state_cases (hb : b.Sound) :
    b.FiguresInRange ∧ (∀ count, ∃ s, b.state count = .ok s ∧ b.Lists count s) ∨
      ¬ b.FiguresInRange ∧ ∀ count, b.state count = .error ⟨⟩ := by
  rw [← exists_metrics_iff hb]
  cases hm : b.metrics with
  | ok m =>
    obtain ⟨hbids, hasks⟩ := metrics_levels hm
    exact .inl ⟨⟨m, rfl⟩, fun count => ⟨_, state_of_metrics hm count, map_levels _ _, map_levels _ _,
      length_levels _ _, length_levels _ _, hbids, hasks⟩⟩
  | error e =>
    refine .inr ⟨fun ⟨m, h⟩ => absurd h (by simp), fun count => ?_⟩
    rw [state, hm]
    rfl

/-- **What a book shows, whatever was written to it.** The amounts are positive. The bids fall
strictly and the asks rise strictly in price, as numbers. The best bid is the greatest price among
the bids and the best ask the least among the asks, and there is none exactly where the side is
empty. A look-up finds an amount under any spelling of its price, and only there. If all that the
figures are computed from is in range, there is a state of every depth, which lists the levels down to
there and counts all of them, and otherwise there is none of any depth. -/
theorem writeAll_shows (pair : String) (ws : List Write) :
    let b := (empty pair).writeAll ws
    ((∀ side, ∀ e ∈ b.side side, 0 < e.2.value) ∧
      (b.bids.Pairwise fun e e' => e'.1.value < e.1.value) ∧
      b.asks.Pairwise fun e e' => e.1.value < e'.1.value) ∧
    ((b.bestBid? = none ↔ b.bids = []) ∧
      ∀ p, b.bestBid? = some p → IsGreatest b.bids.prices p.value) ∧
    ((b.bestAsk? = none ↔ b.asks = []) ∧
      ∀ p, b.bestAsk? = some p → IsLeast b.asks.prices p.value) ∧
    (∀ side p q, b.amount? side p = some q ↔ ∃ e ∈ b.side side, e.1.value = p.value ∧ e.2 = q) ∧
    (b.FiguresInRange ∧ (∀ count, ∃ s, b.state count = .ok s ∧ b.Lists count s) ∨
      ¬ b.FiguresInRange ∧ ∀ count, b.state count = .error ⟨⟩) := by
  intro b
  have hb : b.Sound := sound_writeAll pair ws
  refine ⟨⟨fun side e he => isPositive_iff.mp ((hb side).positive e he),
      (hb .bid).strict.imp Side.order_bid_lt_iff.mp,
      (hb .ask).strict.imp Side.order_ask_lt_iff.mp⟩, ?bid, ?ask, ?amount, state_cases hb⟩
  case bid => exact ⟨bestBid?_eq_none_iff, fun p => isGreatest_bestBid? hb⟩
  case ask => exact ⟨bestAsk?_eq_none_iff, fun p => isLeast_bestAsk? hb⟩
  case amount => exact fun side p q => amount?_eq_some_iff hb

/-- The best bid comes twice, spelled in two ways, and crosses the ask; a third row has no amount. Of
this book there are states of every depth. If bid and ask are the largest price there may be, only
their sum is out of range, and there is none. -/
theorem writeAll_shows_crossed :
    let largest : Decimal := { magnitude := Decimal.bound - 1, scale := 0 }
    let rows : List Row := [⟨.ofNat 100, .ofNat 3, 1⟩,
      ⟨{ magnitude := 1000, scale := 1 }, .ofNat 2, 1⟩, ⟨.ofNat 99, .ofNat 0, 1⟩]
    let b := (empty "BTC-USDT").writeAll [.snapshot rows [⟨.ofNat 98, .ofNat 1, 1⟩] 1]
    let b' := (empty "BTC-USDT").writeAll
      [.snapshot [⟨largest, .ofNat 1, 1⟩] [⟨largest, .ofNat 1, 1⟩] 1]
    b.FiguresInRange ∧ (∀ count, ∃ s, b.state count = .ok s ∧ b.Lists count s) ∧
      ¬ b'.FiguresInRange ∧ ∀ count, b'.state count = .error ⟨⟩ := by
  intro largest rows b b'
  have hb : b.FiguresInRange := by decide +kernel
  have hb' : ¬ b'.FiguresInRange := by decide +kernel
  obtain ⟨-, -, -, -, hstate⟩ := writeAll_shows "BTC-USDT"
    [.snapshot rows [⟨.ofNat 98, .ofNat 1, 1⟩] 1]
  obtain ⟨-, -, -, -, hnone⟩ := writeAll_shows "BTC-USDT"
    [.snapshot [⟨largest, .ofNat 1, 1⟩] [⟨largest, .ofNat 1, 1⟩] 1]
  exact ⟨hb, (hstate.resolve_right fun h => h.1 hb).2, hb', (hnone.resolve_left fun h => hb' h.1).2⟩

/-- **A book without a state.** The two bids are there, but their total is too large for a decimal,
so that not even the first one is published. -/
theorem state_of_large_amounts :
    let largest : Decimal := { magnitude := Decimal.bound - 1, scale := 0 }
    let b := (empty "BTC-USDT").writeAll
      [.snapshot [⟨.ofNat 100, largest, 1⟩, ⟨.ofNat 99, largest, 1⟩] [] 1]
    b.bids = [(.ofNat 100, largest), (.ofNat 99, largest)] ∧ b.state 1 = .error ⟨⟩ ∧
      ¬ ∃ s, b.state 1 = .ok s ∧ b.Lists 1 s := by
  intro largest b
  have hstate : b.state 1 = .error ⟨⟩ := by decide +kernel
  refine ⟨by decide +kernel, hstate, ?_⟩
  rintro ⟨s, hs, -⟩
  exact absurd (hstate.symm.trans hs) (by simp)

end Book

end BookFeed
