import BookFeed.Book.State
import BookFeed.Proofs.Book.Ladder
import BookFeed.Proofs.Decimal.Exact
import Mathlib.Order.Bounds.Defs

/-!
# Books, however they were written

A book is changed by `Write`s only. Rows may be anything: a price may come twice or be spelled in
several ways, an amount may be zero or negative. `Sound` is what every write keeps all the same: on
each side the prices are in strict order, as numbers, and the amounts are positive.

* **`sound_writeAll`**: so it holds after any writes;
* `isGreatest_bestBid?`, `isLeast_bestAsk?`, `amount?_eq_some_iff`: what it says about the prices
  that are looked up.
-/

namespace BookFeed

open Decimal (isPositive_iff)

/-! ## Sides -/

namespace Ladder

variable {side : Side} {l : Ladder} {row : Row} {e : Decimal × Decimal} {p q : Decimal}

/-- The prices of the levels, as numbers. -/
def prices (l : Ladder) : Set ℚ := {x | ∃ e ∈ l, e.1.value = x}

/-- Each price once, the better ones first, and something rests at each. -/
structure Sound (side : Side) (l : Ladder) : Prop where
  strict : l.Strict side
  positive : ∀ e ∈ l, e.2.isPositive = true

theorem sound_nil : Sound side [] := ⟨List.Pairwise.nil, fun _ h => absurd h List.not_mem_nil⟩

theorem Sound.insert (h : l.Sound side) (hpos : q.isPositive = true) (p : Decimal) :
    Sound side (Sorted.insert side.order p q l) := by
  refine ⟨Sorted.strict_insert h.strict p q, fun e he => ?_⟩
  rcases Sorted.mem_insert he with ⟨hq, -⟩ | he
  · exact hq ▸ hpos
  · exact h.positive e he

theorem Sound.merge (h : l.Sound side) (row : Row) : Sound side (Ladder.merge side l row) := by
  unfold Ladder.merge
  split
  · rename_i hpos
    exact h.insert hpos row.price
  · exact ⟨Sorted.strict_erase h.strict _,
      fun e he => h.positive e ((Sorted.erase_sublist _ _).mem he)⟩

theorem Sound.fill (h : l.Sound side) (row : Row) : Sound side (Ladder.fill side l row) := by
  unfold Ladder.fill
  split
  · rename_i hpos
    exact h.insert hpos row.price
  · exact h

/-- What every row keeps, all rows keep. -/
theorem Sound.foldl {f : Ladder → Row → Ladder}
    (hf : ∀ l : Ladder, l.Sound side → ∀ row, (f l row).Sound side) (rows : List Row)
    (h : l.Sound side) : Sound side (rows.foldl f l) := by
  induction rows generalizing l with
  | nil => exact h
  | cons row rows ih => exact ih (hf l h row)

theorem get?_eq_some_iff (hl : l.Strict side) :
    l.get? side p = some q ↔ ∃ e ∈ l, e.1.value = p.value ∧ e.2 = q := by
  constructor
  · intro h
    obtain ⟨e, he, hp, hq⟩ := Sorted.mem_of_get? h
    exact ⟨e, he, (Side.order_eq_iff.mp hp).symm, hq⟩
  · rintro ⟨e, he, hp, rfl⟩
    exact Sorted.get?_of_mem hl he (Side.order_eq_iff.mpr hp.symm)

/-- The first level is better than all others. -/
theorem Strict.eq_or_lt_of_head? (hl : l.Strict side) (he : l.head? = some e) :
    ∀ e' ∈ l, e' = e ∨ side.order e.1 e'.1 = .lt := by
  obtain ⟨rest, rfl⟩ := List.head?_eq_some_iff.mp he
  intro e' he'
  exact (List.mem_cons.mp he').imp_right ((List.pairwise_cons.mp hl).1 e')

end Ladder

/-! ## Writes -/

namespace Book

/-- A change of a book. -/
inductive Write where
  | snapshot (bids asks : List Row) (updateId : UInt64)
  | diffs (bids asks : List Row) (updateId : UInt64)
  | reset
  | trade (t : Trade)

def write (b : Book) : Write → Book
  | .snapshot bids asks updateId => b.applySnapshot bids asks updateId
  | .diffs bids asks updateId => b.applyDiffs bids asks updateId
  | .reset => b.reset
  | .trade t => b.applyTrade t

def writeAll (b : Book) (ws : List Write) : Book := ws.foldl write b

theorem pair_writeAll (b : Book) (ws : List Write) : (b.writeAll ws).pair = b.pair := by
  induction ws generalizing b with
  | nil => rfl
  | cons w ws ih =>
    rw [writeAll, List.foldl_cons, ← writeAll, ih]
    cases w <;> rfl

/-- Both sides are in order, and something rests at every price. -/
def Sound (b : Book) : Prop := ∀ side, (b.side side).Sound side

variable {b : Book} {p q : Decimal} {side : Side}

theorem sound_empty (pair : String) : (empty pair).Sound := by
  intro side
  cases side <;> exact Ladder.sound_nil

/-- **Every write keeps a book sound**, whatever its rows are. -/
theorem Sound.write (h : b.Sound) (w : Write) : (b.write w).Sound := by
  intro side
  cases w with
  | snapshot bids asks updateId =>
    cases side <;> exact Ladder.Sound.foldl (fun _ => Ladder.Sound.fill) _ Ladder.sound_nil
  | diffs bids asks updateId =>
    cases side with
    | bid => exact Ladder.Sound.foldl (fun _ => Ladder.Sound.merge) bids (h .bid)
    | ask => exact Ladder.Sound.foldl (fun _ => Ladder.Sound.merge) asks (h .ask)
  | reset => cases side <;> exact Ladder.sound_nil
  | trade t => cases side with
    | bid => exact h .bid
    | ask => exact h .ask

theorem Sound.writeAll (h : b.Sound) (ws : List Write) : (b.writeAll ws).Sound := by
  induction ws generalizing b with
  | nil => exact h
  | cons w ws ih => exact ih (h.write w)

theorem sound_writeAll (pair : String) (ws : List Write) : ((empty pair).writeAll ws).Sound :=
  (sound_empty pair).writeAll ws

/-! ## Prices -/

theorem bestBid?_eq_none_iff : b.bestBid? = none ↔ b.bids = [] := by
  rw [bestBid?, Option.map_eq_none_iff, List.head?_eq_none_iff]

theorem bestAsk?_eq_none_iff : b.bestAsk? = none ↔ b.asks = [] := by
  rw [bestAsk?, Option.map_eq_none_iff, List.head?_eq_none_iff]

/-- **The best bid is the highest.** -/
theorem isGreatest_bestBid? (h : b.Sound) (hp : b.bestBid? = some p) :
    IsGreatest b.bids.prices p.value := by
  obtain ⟨e, he, rfl⟩ := Option.map_eq_some_iff.mp hp
  refine ⟨⟨e, List.mem_of_head? he, rfl⟩, ?_⟩
  rintro _ ⟨e', he', rfl⟩
  rcases (h .bid).strict.eq_or_lt_of_head? he e' he' with rfl | hlt
  · exact le_refl _
  · exact (Side.order_bid_lt_iff.mp hlt).le

/-- **The best ask is the lowest.** -/
theorem isLeast_bestAsk? (h : b.Sound) (hp : b.bestAsk? = some p) :
    IsLeast b.asks.prices p.value := by
  obtain ⟨e, he, rfl⟩ := Option.map_eq_some_iff.mp hp
  refine ⟨⟨e, List.mem_of_head? he, rfl⟩, ?_⟩
  rintro _ ⟨e', he', rfl⟩
  rcases (h .ask).strict.eq_or_lt_of_head? he e' he' with rfl | hlt
  · exact le_refl _
  · exact (Side.order_ask_lt_iff.mp hlt).le

/-- **A level is found under every spelling of its price**, and nothing else is. -/
theorem amount?_eq_some_iff (h : b.Sound) :
    b.amount? side p = some q ↔ ∃ e ∈ b.side side, e.1.value = p.value ∧ e.2 = q :=
  Ladder.get?_eq_some_iff (h side).strict

/-! ## Figures -/

/-- The figures count every level. -/
theorem metrics_levels {m : BookMetrics} (h : b.metrics = .ok m) :
    m.bidLevels = b.bids.length ∧ m.askLevels = b.asks.length := by
  unfold metrics at h
  obtain ⟨mid, -, h⟩ := bind_eq_ok h
  obtain ⟨spread, -, h⟩ := bind_eq_ok h
  obtain ⟨imbalance, -, h⟩ := bind_eq_ok h
  obtain ⟨bidDepth, -, h⟩ := bind_eq_ok h
  obtain ⟨askDepth, -, h⟩ := bind_eq_ok h
  obtain rfl := Except.ok.inj h
  exact ⟨rfl, rfl⟩

end Book

end BookFeed
