import BookFeed.Proofs.Book.Writes
import BookFeed.Proofs.Orders.Totals
import Mathlib.Data.List.Nodup

/-!
# Merging rows into a book

Rows change a ladder price by price. What they do to one price does not depend on the others: they
leave what is there, or they settle it whatever was there, or they put a new amount under the
spelling that is there already (`foldl_after_cases`). So merging them once more changes nothing,
spellings included, and their order matters among rows of one price only.

* `stored?_foldl_merge`: rows merged into a ladder are rows merged at each price;
* `foldl_merge_idem`, `foldl_merge_perm`, `foldl_fill_eq_foldl_merge`: rows merged twice, in another
  order, and into an empty ladder;
* **`applyDiffs_merges`**: what a diff leaves of a book.
-/

namespace BookFeed

namespace Ladder

variable {side : Side} {l : Ladder} {rows rows' : List Row} {row : Row} {p : Decimal}
  {e : Option (Decimal × Decimal)}

/-- The last row with a price. -/
def lastAt? (rows : List Row) (p : Decimal) : Option Row :=
  (rows.filter (·.price.value = p.value)).getLast?

/-- No two rows have one price. -/
def DistinctPrices (rows : List Row) : Prop := (rows.map (·.price.value)).Nodup

instance (rows : List Row) : Decidable (DistinctPrices rows) :=
  inferInstanceAs (Decidable (List.Nodup _))

/-! ## One price -/

/-- What a row does to the entry at a price. -/
def after (side : Side) (p : Decimal) (e : Option (Decimal × Decimal)) (row : Row) :
    Option (Decimal × Decimal) :=
  if side.order p row.price = .eq then
    if row.amount.isPositive then some ((e.map (·.1)).getD row.price, row.amount) else none
  else e

theorem stored?_merge (hl : l.Strict side) (row : Row) (p : Decimal) :
    Sorted.stored? side.order p (l.merge side row) =
      after side p (Sorted.stored? side.order p l) row := by
  unfold merge after
  by_cases hp : side.order p row.price = .eq
  · rw [if_pos hp, Sorted.stored?_congr hp l]
    split
    · rw [Sorted.stored?_insert hl, if_pos hp]
    · rw [Sorted.stored?_erase hl, if_pos hp]
  · rw [if_neg hp]
    split
    · rw [Sorted.stored?_insert hl, if_neg hp]
    · rw [Sorted.stored?_erase hl, if_neg hp]

/-- **Rows merged into a ladder are rows merged at each price.** -/
theorem stored?_foldl_merge (hl : l.Strict side) (rows : List Row) (p : Decimal) :
    Sorted.stored? side.order p (rows.foldl (merge side) l) =
      rows.foldl (after side p) (Sorted.stored? side.order p l) := by
  induction rows generalizing l with
  | nil => rfl
  | cons row rows ih =>
    rw [List.foldl_cons, List.foldl_cons, ih (strict_merge hl row), stored?_merge hl]

/-- **Rows leave an entry alone, settle it, or put an amount under the spelling there.** -/
theorem foldl_after_cases (side : Side) (p : Decimal) (rows : List Row) :
    (∀ e, rows.foldl (after side p) e = e) ∨
    (∃ settled, ∀ e, rows.foldl (after side p) e = settled) ∨
    ∃ price amount, ∀ e, rows.foldl (after side p) e =
      some ((e.map (·.1)).getD price, amount) := by
  induction rows using List.reverseRecOn with
  | nil => exact .inl fun _ => rfl
  | append_singleton rows row ih =>
    simp only [List.foldl_append, List.foldl_cons, List.foldl_nil]
    by_cases hp : side.order p row.price = .eq
    · by_cases hpos : row.amount.isPositive = true
      · simp only [after, if_pos hp, if_pos hpos]
        rcases ih with h | ⟨settled, h⟩ | ⟨price, amount, h⟩
        · exact .inr (.inr ⟨row.price, row.amount, fun e => by rw [h]⟩)
        · exact .inr (.inl ⟨_, fun e => by rw [h]⟩)
        · exact .inr (.inr ⟨price, row.amount, fun e => by rw [h]; rfl⟩)
      · simp only [after, if_pos hp, if_neg hpos]
        exact .inr (.inl ⟨none, fun _ => rfl⟩)
    · simp only [after, if_neg hp]
      exact ih

/-- At one price, the same rows once more change nothing. -/
theorem foldl_after_idem (side : Side) (p : Decimal) (rows : List Row)
    (e : Option (Decimal × Decimal)) :
    rows.foldl (after side p) (rows.foldl (after side p) e) = rows.foldl (after side p) e := by
  rcases foldl_after_cases side p rows with h | ⟨settled, h⟩ | ⟨price, amount, h⟩
  · rw [h]
  · rw [h, h]
  · rw [h, h]
    rfl

/-- Rows of different prices may be taken in either order. -/
theorem after_comm {r r' : Row} (h : r = r' ∨ r.price.value ≠ r'.price.value) (side : Side)
    (p : Decimal) (e : Option (Decimal × Decimal)) :
    after side p (after side p e r) r' = after side p (after side p e r') r := by
  rcases h with rfl | hne
  · rfl
  · by_cases hr : side.order p r.price = .eq
    · have hr' : ¬ side.order p r'.price = .eq := fun hr' =>
        hne ((Side.order_eq_iff.mp hr).symm.trans (Side.order_eq_iff.mp hr'))
      simp only [after, if_pos hr, if_neg hr']
    · simp only [after, if_neg hr]

theorem foldl_after_perm (hperm : rows.Perm rows') (hd : DistinctPrices rows) (side : Side)
    (p : Decimal) (e : Option (Decimal × Decimal)) :
    rows.foldl (after side p) e = rows'.foldl (after side p) e := by
  refine hperm.foldl_eq' (fun r hr r' hr' e => after_comm ?_ side p e) e
  by_contra hn
  rw [not_or, not_not] at hn
  exact hn.1 (List.inj_on_of_nodup_map hd hr hr' hn.2)

/-! ## Whole ladders -/

/-- **Rows merged twice are rows merged once**, down to the spelling of the prices. -/
theorem foldl_merge_idem (hl : l.Strict side) (rows : List Row) :
    rows.foldl (merge side) (rows.foldl (merge side) l) = rows.foldl (merge side) l := by
  have hl' := strict_foldl_merge hl rows
  refine Sorted.eq_of_stored?_eq (strict_foldl_merge hl' rows) hl' fun p => ?_
  rw [stored?_foldl_merge hl', stored?_foldl_merge hl, foldl_after_idem]

/-- **Rows of different prices may be merged in any order.** -/
theorem foldl_merge_perm (hl : l.Strict side) (hperm : rows.Perm rows')
    (hd : DistinctPrices rows) : rows.foldl (merge side) l = rows'.foldl (merge side) l := by
  refine Sorted.eq_of_stored?_eq (strict_foldl_merge hl rows) (strict_foldl_merge hl rows')
    fun p => ?_
  rw [stored?_foldl_merge hl, stored?_foldl_merge hl, foldl_after_perm hperm hd]

theorem find?_reverse_eq_lastAt? (side : Side) (rows : List Row) (p : Decimal) :
    (rows.reverse.find? fun row => side.order p row.price == .eq) = lastAt? rows p := by
  unfold lastAt?
  rw [List.getLast?_eq_head?_reverse, ← List.filter_reverse, List.head?_filter]
  congr 1
  funext row
  rw [Bool.eq_iff_iff, beq_iff_eq, decide_eq_true_eq, Side.order_eq_iff]
  exact eq_comm

/-- **The last row with a price says what is there**, and a price without a row is as before. -/
theorem get?_foldl_merge_eq (hl : l.Strict side) (rows : List Row) (p : Decimal) :
    Ladder.get? side p (rows.foldl (merge side) l) =
      match lastAt? rows p with
      | some row => leaves row
      | none => l.get? side p := by
  have h := get?_foldl_merge hl rows p
  rw [find?_reverse_eq_lastAt?] at h
  exact h

/-- **Filling an empty ladder is merging into it**, unless a price comes twice: then a row without
an amount takes away what an earlier one has put there, and does not where a ladder is filled. -/
theorem foldl_fill_eq_foldl_merge (hd : DistinctPrices rows) :
    rows.foldl (fill side) [] = rows.foldl (merge side) [] := by
  induction rows using List.reverseRecOn with
  | nil => rfl
  | append_singleton rows row ih =>
    rw [DistinctPrices, List.map_append, List.nodup_append] at hd
    obtain ⟨hd, -, hnew⟩ := hd
    rw [List.foldl_append, List.foldl_append, ih hd]
    show fill side _ row = merge side _ row
    unfold fill merge
    split
    · rfl
    · -- no row before this one has its price
      have hnone : lastAt? rows row.price = none := by
        rw [lastAt?, List.getLast?_eq_none_iff, List.filter_eq_nil_iff]
        intro r hr heq
        rw [decide_eq_true_eq] at heq
        exact hnew _ (List.mem_map_of_mem hr) _ (List.mem_singleton_self _) heq
      have hget : Ladder.get? side row.price (rows.foldl (merge side) []) = none := by
        rw [get?_foldl_merge_eq List.Pairwise.nil, hnone]
        rfl
      exact (Sorted.erase_of_get?_eq_none hget).symm

end Ladder

/-! ## Diffs -/

namespace Book

/-- The prices of both sides are in strict order, as they are after any writes. -/
def Ordered (b : Book) : Prop := ∀ side, (b.side side).Strict side

theorem Sound.ordered {b : Book} (h : b.Sound) : b.Ordered := fun side => (h side).strict

theorem side_applyDiffs (b : Book) (rows : BookRows) (updateId : UInt64) (side : Side) :
    (b.applyDiffs rows.bids rows.asks updateId).side side =
      (rows.side side).foldl (Ladder.merge side) (b.side side) := by
  cases side <;> rfl

theorem side_applySnapshot (b : Book) (rows : BookRows) (updateId : UInt64) (side : Side) :
    (b.applySnapshot rows.bids rows.asks updateId).side side =
      (rows.side side).foldl (Ladder.fill side) [] := by
  cases side <;> rfl

/-- Books that differ in their levels at most differ in a side. -/
theorem ext_sides {b b' : Book} (hsides : ∀ side, b.side side = b'.side side)
    (hrest : { b with bids := [], asks := [] } = { b' with bids := [], asks := [] }) : b = b' := by
  obtain ⟨pair, bids, asks, snapshotId, diffId, appliedId, initialized, lastTrade⟩ := b
  obtain ⟨pair', bids', asks', snapshotId', diffId', appliedId', initialized', lastTrade'⟩ := b'
  obtain rfl : bids = bids' := hsides .bid
  obtain rfl : asks = asks' := hsides .ask
  simp only [mk.injEq, true_and] at hrest ⊢
  exact hrest

/-- **What a diff leaves of a book.** At each price of a side, the last row with that price says
what is there: its amount if that is positive, and nothing otherwise. A price without a row is as
before. The same diff once more changes nothing at all, neither levels with the spelling of their
prices nor ids. Where no two rows of a side have one price, their order does not matter, and merging
them into an empty book gives the amounts that replacing the book with them does. -/
theorem applyDiffs_merges (b : Book) (hb : b.Ordered) (rows : BookRows) (updateId : UInt64) :
    let b' := b.applyDiffs rows.bids rows.asks updateId
    (∀ side p, b'.amount? side p =
      match Ladder.lastAt? (rows.side side) p with
      | some row => if 0 < row.amount.value then some row.amount else none
      | none => b.amount? side p) ∧
    b'.applyDiffs rows.bids rows.asks updateId = b' ∧
    ((∀ side, Ladder.DistinctPrices (rows.side side)) →
      (∀ rows' : BookRows, (∀ side, (rows.side side).Perm (rows'.side side)) →
        b.applyDiffs rows'.bids rows'.asks updateId = b') ∧
      ∀ empty : Book, empty.bids = [] → empty.asks = [] → ∀ side p,
        (b.applySnapshot rows.bids rows.asks updateId).amount? side p =
          (empty.applyDiffs rows.bids rows.asks updateId).amount? side p) := by
  intro b'
  refine ⟨fun side p => ?last, ?again, fun hd => ⟨fun rows' hperm => ?reordered,
    fun empty hbids hasks side p => ?replaced⟩⟩
  case last =>
    rw [amount?, side_applyDiffs, Ladder.get?_foldl_merge_eq (hb side)]
    cases Ladder.lastAt? (rows.side side) p with
    | none => rfl
    | some row => exact if_congr Decimal.isPositive_iff rfl rfl
  case again =>
    refine ext_sides (fun side => ?_) ?_
    · rw [side_applyDiffs, side_applyDiffs, Ladder.foldl_merge_idem (hb side)]
    · have hmax : max (max b.appliedId updateId) updateId = max b.appliedId updateId :=
        UInt64.le_antisymm (Std.max_le_iff.mpr ⟨UInt64.le_refl _, Std.right_le_max⟩)
          Std.left_le_max
      simp only [b', applyDiffs, hmax]
  case reordered =>
    refine ext_sides (fun side => ?_) rfl
    rw [side_applyDiffs, side_applyDiffs, Ladder.foldl_merge_perm (hb side) (hperm side) (hd side)]
  case replaced =>
    have hempty : empty.side side = [] := by cases side <;> assumption
    rw [amount?, amount?, side_applySnapshot, side_applyDiffs, hempty,
      Ladder.foldl_fill_eq_foldl_merge (hd side)]

/-- Over a book with `10.0`: that price is mentioned twice and keeps its spelling, `9` is taken away
and comes back as `9.0`, and of two rows with one new price the last one, without an amount, wins.
Rows of distinct prices may then come in any order. -/
theorem applyDiffs_merges_respelled :
    let tenth (n : Nat) (h : n < Decimal.bound := by decide) : Decimal :=
      { magnitude := n, scale := 1, magnitude_lt := h }
    let b := (empty "BTC-USDT").writeAll
      [.snapshot [⟨tenth 100, .ofNat 1, 1⟩, ⟨.ofNat 9, .ofNat 2, 1⟩] [⟨.ofNat 11, .ofNat 3, 1⟩] 1]
    let rows : BookRows := ⟨[⟨.ofNat 10, .ofNat 4, 2⟩, ⟨.ofNat 9, .zero, 2⟩,
      ⟨.ofNat 10, .ofNat 5, 2⟩, ⟨tenth 90, .ofNat 6, 2⟩], [⟨.ofNat 12, .ofNat 7, 2⟩,
      ⟨tenth 120, .zero, 2⟩]⟩
    let single : BookRows := ⟨[⟨.ofNat 10, .ofNat 4, 2⟩, ⟨.ofNat 8, .ofNat 1, 2⟩], []⟩
    let turned : BookRows := ⟨[⟨.ofNat 8, .ofNat 1, 2⟩, ⟨.ofNat 10, .ofNat 4, 2⟩], []⟩
    let b' := b.applyDiffs rows.bids rows.asks 2
    b.Ordered ∧ b'.bids = [(tenth 100, .ofNat 5), (tenth 90, .ofNat 6)] ∧
      b'.amount? .bid (.ofNat 9) = some (.ofNat 6) ∧ b'.amount? .ask (.ofNat 12) = none ∧
      b'.amount? .ask (.ofNat 11) = some (.ofNat 3) ∧
      b'.applyDiffs rows.bids rows.asks 2 = b' ∧
      (∀ side, Ladder.DistinctPrices (single.side side)) ∧
      (∀ side, (single.side side).Perm (turned.side side)) ∧
      b.applyDiffs turned.bids turned.asks 2 = b.applyDiffs single.bids single.asks 2 := by
  intro tenth b rows single turned b'
  have hb : b.Ordered := (sound_writeAll _ _).ordered
  obtain ⟨hlast, hagain, -⟩ := applyDiffs_merges b hb rows 2
  have hd : ∀ side, Ladder.DistinctPrices (single.side side) := by
    intro side
    cases side <;> decide +kernel
  have hperm : ∀ side, (single.side side).Perm (turned.side side) := by
    intro side
    cases side
    · exact .swap ..
    · exact .refl _
  have hturned := ((applyDiffs_merges b hb single 2).2.2 hd).1 turned hperm
  exact ⟨hb, by decide +kernel, (hlast .bid _).trans (by decide +kernel),
    (hlast .ask _).trans (by decide +kernel), (hlast .ask _).trans (by decide +kernel), hagain, hd,
    hperm, hturned⟩

end Book

end BookFeed
