import BookFeed.Proofs.Orders.Sums

/-!
# The rows of a diff

A diff of events answers a row for each price that an event has touched, however often that was, with
the total that is there after all of them.

* `pairwise_touchedRows`: each price has one row, and the better prices come first;
* `exists_row_of_aggregate_ne`: a total that is not as before has a row;
* `Book.Holds`: the levels of a book are the totals. Rows carry this from the totals before to those
  after (`Holds.applyDiffs`);
* **`applyDiff_rows`**: all of this after any messages that were accepted.
-/

namespace BookFeed

open Decimal (isPositive_iff)

/-- The book has a level at exactly the prices with a positive total, and that total there. -/
structure Book.Holds (b : Book) (t : RestingOrders) : Prop where
  strict : ∀ side, (b.side side).Strict side
  amounts : ∀ side p, (b.amount? side p).map Decimal.value =
    if 0 < (t.aggregate side p).value then some (t.aggregate side p).value else none

namespace RestingOrders

variable {t t' : RestingOrders} {side : Side} {m : Message} {es : List OrderEvent}
  {rows : BookRows} {touched : List Touched} {b : Book}

/-! ## Touched prices -/

theorem pairwise_touchedPrices (side : Side) (touched : List Touched) :
    (touchedPrices side touched).Pairwise fun p q => side.order p q = .lt := by
  unfold touchedPrices
  generalize touched.filter (·.1 = side) = here
  induction here using List.reverseRecOn with
  | nil => exact List.Pairwise.nil
  | append_singleton here x ih =>
    rw [List.foldl_append]
    exact Sorted.pairwise_insertKey ih x.2

/-- **Each price has one row, and the better prices come first.** -/
theorem pairwise_touchedRows (t : RestingOrders) (side : Side) (touched : List Touched)
    (updateId : UInt64) : (t.touchedRows side touched updateId).Pairwise fun r r' =>
      side.order r.price r'.price = .lt :=
  List.pairwise_map.mpr (pairwise_touchedPrices side touched)

theorem aggregate_noteApplied (t : RestingOrders) (m : Message) (side : Side) (p : Decimal) :
    (t.noteApplied m).aggregate side p = t.aggregate side p := by
  rw [aggregate, totals_noteApplied]
  rfl

/-- The rows of a diff are those of the prices it has touched. One that comes again has touched
none. -/
theorem exists_touchedRows (hc : m.content = .events es) (hd : t.applyDiff m = (t', .ok rows)) :
    ∃ touched, ∀ side, rows.side side = t'.touchedRows side touched m.updateId := by
  unfold applyDiff at hd
  split at hd
  · obtain ⟨-, hrows⟩ := Prod.ext_iff.mp hd
    obtain rfl := Except.ok.inj hrows
    exact ⟨[], fun side => by cases side <;> rfl⟩
  · rw [hc] at hd
    simp only at hd
    generalize t.applyEvents es = done at hd
    obtain ⟨t₁, e | touched⟩ := done
    · exact absurd (congrArg Prod.snd hd) (by simp)
    · obtain ⟨rfl, hrows⟩ := Prod.ext_iff.mp hd
      obtain rfl := Except.ok.inj hrows
      refine ⟨touched, fun side => ?_⟩
      simp only [touchedRows, aggregate_noteApplied]
      cases side <;> rfl

/-! ## Totals before and after -/

theorem get?_foldl_merge_totals (hs : t.Sound) (hc : m.content = .events es)
    (hd : t.applyDiff m = (t', .ok rows)) (side : Side) (p : Decimal) :
    Ladder.get? side p ((rows.side side).foldl (Ladder.merge side) (t.totals side)) =
      (t'.totals side).get? side p :=
  (applyDiff_events hs hc hd).2 side (t.totals side) (hs.strict side) (fun _ => rfl) p

/-- **A total that is not as before has a row**, also where it is only spelled differently. -/
theorem exists_row_of_aggregate_ne (hs : t.Sound) (hc : m.content = .events es)
    (hd : t.applyDiff m = (t', .ok rows)) {p : Decimal}
    (hne : t'.aggregate side p ≠ t.aggregate side p) :
    ∃ row ∈ rows.side side, row.price.value = p.value := by
  have hafter := get?_foldl_merge_totals hs hc hd side p
  rw [Ladder.get?_foldl_merge (hs.strict side)] at hafter
  cases hfind : (rows.side side).reverse.find? fun row => side.order p row.price == .eq with
  | some row =>
    have hmem := List.mem_reverse.mp (List.mem_of_find?_eq_some hfind)
    have heq : side.order p row.price = .eq := by simpa using List.find?_some hfind
    exact ⟨row, hmem, (Side.order_eq_iff.mp heq).symm⟩
  | none =>
    -- no row has the price, so the total is the one before
    rw [hfind] at hafter
    exact absurd (congrArg (fun total : Option Decimal => total.getD .zero) hafter.symm) hne

/-! ## Books under the rows -/

/-- Where totals are sound there is one exactly where the aggregate is positive. -/
theorem Sound.map_get?_totals (hs : t.Sound) (side : Side) (p : Decimal) :
    ((t.totals side).get? side p).map Decimal.value =
      if 0 < (t.aggregate side p).value then some (t.aggregate side p).value else none := by
  unfold aggregate
  cases hg : (t.totals side).get? side p with
  | none => rw [Option.getD_none, Decimal.value_zero, if_neg (lt_irrefl _), Option.map_none]
  | some total =>
    obtain ⟨e, he, -, rfl⟩ := Sorted.mem_of_get? hg
    rw [Option.getD_some, if_pos (isPositive_iff.mp (hs.positive side e he)), Option.map_some]

/-- A book whose levels are the totals holds them. -/
theorem Sound.holds (hs : t.Sound) (hb : ∀ side, b.side side = t.totals side) : b.Holds t := by
  refine ⟨fun side => ?_, fun side p => ?_⟩
  · rw [hb]
    exact hs.strict side
  · rw [Book.amount?, hb]
    exact hs.map_get?_totals side p

theorem side_applyDiffs (b : Book) (rows : BookRows) (updateId : UInt64) (side : Side) :
    (b.applyDiffs rows.bids rows.asks updateId).side side =
      (rows.side side).foldl (Ladder.merge side) (b.side side) := by
  cases side <;> rfl

/-- **The rows of a diff carry a book from the totals before to those after.** -/
theorem Holds.applyDiffs (hs : t.Sound) (hc : m.content = .events es)
    (hd : t.applyDiff m = (t', .ok rows)) (hb : b.Holds t) :
    (b.applyDiffs rows.bids rows.asks m.updateId).Holds t' := by
  refine ⟨fun side => ?_, fun side p => ?_⟩
  · rw [side_applyDiffs]
    exact Ladder.strict_foldl_merge (hb.strict side) _
  · have hbefore : ∀ q, ((b.side side).get? side q).map Decimal.value =
        ((t.totals side).get? side q).map Decimal.value := fun q =>
      (hb.amounts side q).trans (hs.map_get?_totals side q).symm
    rw [Book.amount?, side_applyDiffs,
      Ladder.map_get?_foldl_merge _ (hb.strict side) (hs.strict side) hbefore,
      get?_foldl_merge_totals hs hc hd]
    exact (applyDiff_events hs hc hd).1.map_get?_totals side p

/-! ## After any messages -/

theorem Sound.update (hs : t.Sound) {u : Update} (hu : t.update u = (t', .ok rows)) :
    t'.Sound := by
  cases u with
  | snapshot m =>
    have hclear : t.cleared.Sound := sound_of_nil fun side => by cases side <;> rfl
    cases hc : m.content with
    | orders => exact (applySnapshot_orders hc hu).1
    | levels =>
      simp only [RestingOrders.update, applySnapshot, hc] at hu
      obtain rfl := congrArg Prod.fst hu
      exact hclear.of_totals fun side => by cases side <;> rfl
    | events | trade =>
      simp only [RestingOrders.update, applySnapshot, hc] at hu
      exact absurd (congrArg Prod.snd hu) (by simp)
  | diff m =>
    cases hc : m.content with
    | events => exact (applyDiff_events hs hc hu).1
    | levels =>
      simp only [RestingOrders.update, applyDiff, hc] at hu
      split at hu <;> obtain rfl := congrArg Prod.fst hu
      · exact hs
      · exact hs.of_totals (totals_noteApplied t m)
    | orders | trade =>
      simp only [RestingOrders.update, applyDiff, hc] at hu
      split at hu
      · obtain rfl := congrArg Prod.fst hu
        exact hs
      · exact absurd (congrArg Prod.snd hu) (by simp)

theorem Sound.run? {us : List Update} (hs : t.Sound) (hrun : t.run? us = some t') : t'.Sound := by
  induction us generalizing t with
  | nil => exact Option.some.inj hrun ▸ hs
  | cons u us ih =>
    unfold RestingOrders.run? at hrun
    cases hu : t.update u with
    | mk t₁ r =>
      rw [hu] at hrun
      cases r with
      | error e => exact absurd hrun (by simp)
      | ok rows => exact ih (hs.update hu) hrun

/-- **The rows of a diff are the levels it changes.** After any snapshots and diffs that were all
accepted, the rows of a diff of events that is accepted: bids fall and asks rise strictly in price;
each row has the update of the diff and the total that is at its price after the diff, which is zero
where nothing rests; every total that is not as before has a row; and a book that holds the totals
before holds those after once the rows are merged into it. -/
theorem applyDiff_rows (us : List Update) (t t' : RestingOrders) (m : Message)
    (es : List OrderEvent) (rows : BookRows) (hrun : empty.run? us = some t)
    (hc : m.content = .events es) (hd : t.applyDiff m = (t', .ok rows)) :
    (rows.bids.Pairwise fun r r' => r'.price.value < r.price.value) ∧
      (rows.asks.Pairwise fun r r' => r.price.value < r'.price.value) ∧
      (∀ side, ∀ row ∈ rows.side side,
        row.updateId = m.updateId ∧ row.amount = t'.aggregate side row.price) ∧
      (∀ side p, t'.aggregate side p ≠ t.aggregate side p →
        ∃ row ∈ rows.side side, row.price.value = p.value) ∧
      ∀ b : Book, b.Holds t → (b.applyDiffs rows.bids rows.asks m.updateId).Holds t' := by
  have hs : t.Sound := balanced_empty.sound.run? hrun
  obtain ⟨touched, hrows⟩ := exists_touchedRows hc hd
  have hbids := pairwise_touchedRows t' .bid touched m.updateId
  have hasks := pairwise_touchedRows t' .ask touched m.updateId
  rw [← hrows] at hbids hasks
  refine ⟨hbids.imp Side.order_bid_lt_iff.mp, hasks.imp Side.order_ask_lt_iff.mp,
    fun side row hrow => ?_, fun side p hne => exists_row_of_aggregate_ne hs hc hd hne,
    fun b hb => Holds.applyDiffs hs hc hd hb⟩
  rw [hrows] at hrow
  obtain ⟨p, -, rfl⟩ := List.mem_map.mp hrow
  exact ⟨rfl, rfl⟩

/-- An order is matched in part and moves to the other side, one is closed and comes back under
another spelling of its price, and one only passes through. -/
theorem applyDiff_rows_moved :
    let message (kind : MessageKind) (updateId : UInt64) (content : Content) : Message :=
      ⟨kind, .ofNat 10, "BTC-USDT", updateId, none, content⟩
    let respelled : Decimal := { magnitude := 1000, scale := 1 }
    let us : List Update := [.snapshot (message .snapshot 1 (.orders
      [⟨"A", .ofNat 100, .ofNat 3, .bid⟩, ⟨"B", .ofNat 100, .ofNat 1, .bid⟩,
        ⟨"C", .ofNat 101, .ofNat 1, .ask⟩, ⟨"D", .ofNat 99, .ofNat 5, .bid⟩]))]
    let es : List OrderEvent := [⟨.matched, "A", .zero, .ofNat 1, .bid⟩,
      ⟨.opened, "A", .ofNat 102, .ofNat 2, .ask⟩, ⟨.done, "B", .zero, .zero, .bid⟩,
      ⟨.opened, "B", respelled, .ofNat 4, .bid⟩, ⟨.changed, "C", .zero, .zero, .ask⟩,
      ⟨.opened, "E", .ofNat 98, .ofNat 1, .bid⟩, ⟨.done, "E", .zero, .zero, .bid⟩]
    let m := message .diff 2 (.events es)
    let t := (empty.run? us).getD empty
    let t' := (t.applyDiff m).1
    let rows : BookRows := ⟨[⟨.ofNat 100, .ofNat 4, 2⟩, ⟨.ofNat 98, .zero, 2⟩],
      [⟨.ofNat 101, .zero, 2⟩, ⟨.ofNat 102, .ofNat 2, 2⟩]⟩
    let b : Book := { pair := "BTC-USDT", bids := t.bids, asks := t.asks }
    empty.run? us = some t ∧ m.content = .events es ∧ t.applyDiff m = (t', .ok rows) ∧
      b.Holds t ∧ (b.applyDiffs rows.bids rows.asks m.updateId).Holds t' := by
  intro message respelled us es m t t' rows b
  have hrun : empty.run? us = some t := by decide +kernel
  have hd : t.applyDiff m = (t', .ok rows) := by decide +kernel
  have hb : b.Holds t := (balanced_empty.sound.run? hrun).holds fun side => by cases side <;> rfl
  exact ⟨hrun, rfl, hd, hb, (applyDiff_rows us t t' m es rows hrun rfl hd).2.2.2.2 b hb⟩

end RestingOrders

end BookFeed
