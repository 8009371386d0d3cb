import BookFeed.Proofs.Orders.Rows

/-!
# The orders of a snapshot

A snapshot may list an id several times. Each entry closes what the id had before and comes to rest
itself if it has an amount, so in the end the last entry counts (`survivor?`), on whatever side and at
whatever price the earlier ones were.

* `orders_close`, `orders_rest`, `orders_replace`: what an operation that succeeds does to the orders,
  whatever becomes of the totals;
* `order?_addEntries`: which orders the entries of a snapshot leave;
* `exists_mem_allRows_iff`: the rows of a snapshot are the totals, each at its price;
* **`applySnapshot_rebuilds`**: orders and rows after a snapshot, from any state before.
-/

namespace BookFeed

open Decimal (Representable)

/-- The order that an entry leaves: one without a positive amount does not come to rest. -/
def OrderEntry.order? (e : OrderEntry) : Option RestingOrder :=
  if e.amount.isPositive then some ⟨e.price, e.amount, e.side⟩ else none

namespace RestingOrders

/-- The last entry with an id. -/
def lastListed? (entries : List OrderEntry) (id : String) : Option OrderEntry :=
  (entries.filter (·.orderId = id)).getLast?

/-- What the entries of a snapshot leave under an id. -/
def survivor? (entries : List OrderEntry) (id : String) : Option RestingOrder :=
  (lastListed? entries id).bind OrderEntry.order?

variable {t t' : RestingOrders} {id : String} {o : RestingOrder} {touched : List Touched}
  {side : Side} {entries : List OrderEntry} {m : Message} {rows : BookRows}

/-! ## Orders under single operations -/

theorem orders_close (h : t.close id = (t', .ok touched)) :
    t'.orders = Sorted.erase compare id t.orders := by
  unfold close at h
  split at h
  · rename_i hnone
    obtain rfl := congrArg Prod.fst h
    exact (Sorted.erase_of_get?_eq_none hnone).symm
  · simp only at h
    split at h
    · rename_i hw
      obtain rfl := congrArg Prod.fst h
      exact orders_withdraw hw
    · exact absurd (congrArg Prod.snd h) (by simp)

theorem orders_rest (h : t.rest id o = (t', .ok touched)) :
    t'.orders = if o.amount.isPositive then Sorted.insert compare id o t.orders else t.orders := by
  unfold rest at h
  split at h
  · rename_i hpos
    rw [if_pos hpos]
    split at h
    · rename_i hd
      obtain rfl := congrArg Prod.fst h
      exact congrArg (Sorted.insert compare id o) (orders_deposit hd)
    · exact absurd (congrArg Prod.snd h) (by simp)
  · rename_i hpos
    rw [if_neg hpos]
    exact congrArg (·.1.orders) h.symm

theorem orders_replace (h : t.replace id o = (t', .ok touched)) :
    t'.orders = if o.amount.isPositive then
      Sorted.insert compare id o (Sorted.erase compare id t.orders)
    else Sorted.erase compare id t.orders := by
  unfold replace at h
  split at h
  · exact absurd (congrArg Prod.snd h) (by simp)
  · rename_i t₁ closed hclose
    split at h
    · exact absurd (congrArg Prod.snd h) (by simp)
    · rename_i t₂ opened hrest
      obtain rfl : t₂ = t' := congrArg Prod.fst h
      rw [orders_rest hrest, orders_close hclose]

theorem strict_orders_replace (hs : Sorted.Strict compare t.orders)
    (h : t.replace id o = (t', .ok touched)) : Sorted.Strict compare t'.orders := by
  rw [orders_replace h]
  split
  · exact Sorted.strict_insert (Sorted.strict_erase hs id) id o
  · exact Sorted.strict_erase hs id

/-- **What was under the id is gone, whatever the entry is, and the others are as before.** -/
theorem order?_replace {e : OrderEntry} (hs : Sorted.Strict compare t.orders)
    (h : t.replace e.orderId ⟨e.price, e.amount, e.side⟩ = (t', .ok touched)) (id : String) :
    t'.order? id = if id = e.orderId then e.order? else t.order? id := by
  rw [order?, orders_replace h, OrderEntry.order?]
  by_cases hpos : e.amount.isPositive = true
  · rw [if_pos hpos, if_pos hpos, Sorted.get?_insert, Sorted.get?_erase hs]
    simp only [Std.LawfulEqCmp.compare_eq_iff_eq]
    split <;> rfl
  · rw [if_neg hpos, if_neg hpos, Sorted.get?_erase hs]
    simp only [Std.LawfulEqCmp.compare_eq_iff_eq]
    rfl

/-! ## Orders under the entries of a snapshot -/

theorem lastListed?_cons (e : OrderEntry) (es : List OrderEntry) (id : String) :
    lastListed? (e :: es) id = (lastListed? es id).or (if id = e.orderId then some e else none) := by
  unfold lastListed?
  by_cases hid : id = e.orderId
  · rw [List.filter_cons_of_pos (by simp [hid]), List.getLast?_cons, if_pos hid]
    cases (es.filter (·.orderId = id)).getLast? <;> rfl
  · rw [List.filter_cons_of_neg (by simpa using Ne.symm hid), if_neg hid, Option.or_none]

theorem strict_orders_addEntries (hs : Sorted.Strict compare t.orders)
    (h : t.addEntries entries = (t', .ok ())) : Sorted.Strict compare t'.orders := by
  induction entries generalizing t with
  | nil =>
    obtain rfl := congrArg Prod.fst h
    exact hs
  | cons e es ih =>
    unfold addEntries at h
    split at h
    · exact absurd (congrArg Prod.snd h) (by simp)
    · rename_i hfirst
      exact ih (strict_orders_replace hs hfirst) h

/-- **The last entry with an id counts.** Ids without an entry keep their orders. -/
theorem order?_addEntries (hs : Sorted.Strict compare t.orders)
    (h : t.addEntries entries = (t', .ok ())) (id : String) :
    t'.order? id = match lastListed? entries id with
      | some e => e.order?
      | none => t.order? id := by
  induction entries generalizing t with
  | nil =>
    obtain rfl := congrArg Prod.fst h
    rfl
  | cons e es ih =>
    unfold addEntries at h
    split at h
    · exact absurd (congrArg Prod.snd h) (by simp)
    · rename_i hfirst
      rw [ih (strict_orders_replace hs hfirst) h, lastListed?_cons, order?_replace hs hfirst]
      cases lastListed? es id with
      | some last => rfl
      | none => by_cases hid : id = e.orderId <;> simp [hid]

/-- A snapshot that is accepted has taken in its entries. -/
theorem exists_addEntries (hc : m.content = .orders entries)
    (hd : t.applySnapshot m = (t', .ok rows)) :
    ∃ added, t.cleared.addEntries entries = (added, .ok ()) ∧ t'.orders = added.orders := by
  unfold applySnapshot at hd
  simp only [hc] at hd
  split at hd
  · exact absurd (congrArg Prod.snd hd) (by simp)
  · rename_i added _ ha
    exact ⟨added, ha, congrArg (·.1.orders) hd.symm⟩

/-! ## The rows of a snapshot -/

/-- The rows have each price once, the better ones first. -/
theorem pairwise_allRows (hs : t.Sound) (side : Side) (updateId : UInt64) :
    (t.allRows side updateId).Pairwise fun r r' => side.order r.price r'.price = .lt :=
  List.pairwise_map.mpr (hs.strict side)

/-- A row has the total at its price. -/
theorem amount_of_mem_allRows {row : Row} {updateId : UInt64} (hs : t.Sound)
    (h : row ∈ t.allRows side updateId) :
    row.updateId = updateId ∧ row.amount = t.aggregate side row.price := by
  obtain ⟨e, he, rfl⟩ := List.mem_map.mp h
  have hget : (t.totals side).get? side e.1 = some e.2 :=
    Sorted.get?_of_mem (hs.strict side) he Std.ReflCmp.compare_self
  exact ⟨rfl, by rw [aggregate, hget]; rfl⟩

/-- There is a row for each price that has a total. -/
theorem exists_mem_allRows_iff (hs : t.Sound) (side : Side) (updateId : UInt64) (price : Decimal) :
    (∃ row ∈ t.allRows side updateId, row.price.value = price.value) ↔
      ((t.totals side).get? side price).isSome = true := by
  constructor
  · rintro ⟨row, hrow, hvalue⟩
    obtain ⟨e, he, rfl⟩ := List.mem_map.mp hrow
    have hget := Sorted.get?_of_mem (hs.strict side) he (Side.order_eq_iff.mpr hvalue.symm)
    exact Option.isSome_of_eq_some hget
  · intro hsome
    obtain ⟨total, hget⟩ := Option.isSome_iff_exists.mp hsome
    obtain ⟨e, he, heq, -⟩ := Sorted.mem_of_get? hget
    exact ⟨_, List.mem_map_of_mem he, (Side.order_eq_iff.mp heq).symm⟩

/-- **A snapshot of orders is read from the message alone.** From any state, where it is accepted:
state and rows are those that it gives from no orders; under each id rests what the last entry with
the id lists, if its amount is positive, and nothing otherwise; bids fall and asks rise strictly in
price, and each row has the update of the snapshot. If moreover all totals computed on the way are
decimals as they are, without rounding: there is a row for exactly the prices at which an order rests,
and its amount is the sum of the amounts that rest there. -/
theorem applySnapshot_rebuilds (t t' : RestingOrders) (m : Message) (entries : List OrderEntry)
    (rows : BookRows) (hc : m.content = .orders entries)
    (hd : t.applySnapshot m = (t', .ok rows)) :
    empty.applySnapshot m = (t', .ok rows) ∧
      ((t'.orders.map (·.1)).Nodup ∧ ∀ id, t'.order? id = survivor? entries id) ∧
      ((rows.bids.Pairwise fun r r' => r'.price.value < r.price.value) ∧
        (rows.asks.Pairwise fun r r' => r.price.value < r'.price.value) ∧
        ∀ side, ∀ row ∈ rows.side side, row.updateId = m.updateId) ∧
      ((∀ q ∈ empty.entriesTotals entries, Representable q) → ∀ side,
        (∀ row ∈ rows.side side, row.amount.value = resting t'.orders side row.price) ∧
        ∀ price, (∃ row ∈ rows.side side, row.price.value = price.value) ↔
          ∃ e ∈ t'.orders, e.2.isAt side price = true) := by
  have hempty : empty.applySnapshot m = (t', .ok rows) := applySnapshot_ok hd
  obtain ⟨hsound, hrows⟩ := applySnapshot_orders hc hempty
  obtain ⟨added, hadded, horders⟩ := exists_addEntries hc hempty
  have hnone : Sorted.Strict compare empty.cleared.orders := List.Pairwise.nil
  have hids : Sorted.Strict compare t'.orders :=
    horders ▸ strict_orders_addEntries hnone hadded
  have hbalanced (hexact : ∀ q ∈ empty.entriesTotals entries, Representable q) : t'.Balanced := by
    refine balanced_applySnapshot ?_ hempty
    simp only [updateTotals, hc]
    exact hexact
  have hbids := pairwise_allRows hsound .bid m.updateId
  have hasks := pairwise_allRows hsound .ask m.updateId
  rw [← hrows] at hbids hasks
  refine ⟨hempty, ⟨hids.nodup, fun id => ?_⟩, ⟨hbids.imp Side.order_bid_lt_iff.mp,
    hasks.imp Side.order_ask_lt_iff.mp, fun side row hrow => ?_⟩, fun hexact side =>
      ⟨fun row hrow => ?_, fun price => ?_⟩⟩
  · rw [RestingOrders.order?, horders]
    refine (order?_addEntries hnone hadded id).trans ?_
    unfold survivor?
    cases lastListed? entries id <;> rfl
  · exact (amount_of_mem_allRows hsound (hrows side ▸ hrow)).1
  · rw [(amount_of_mem_allRows hsound (hrows side ▸ hrow)).2, (hbalanced hexact).sums]
  · rw [hrows, exists_mem_allRows_iff hsound, (hbalanced hexact).isSome_iff]

/-- Over other orders: `A` moves to the other side, `B` comes twice under two spellings of its price,
`C` has no amount, and `D` loses the order it had. -/
theorem applySnapshot_rebuilds_repeated :
    let respelled : Decimal := { magnitude := 1000, scale := 1 }
    let entries : List OrderEntry := [⟨"A", .ofNat 100, .ofNat 2, .bid⟩,
      ⟨"B", respelled, .ofNat 1, .bid⟩, ⟨"D", .ofNat 99, .ofNat 5, .bid⟩,
      ⟨"A", .ofNat 101, .ofNat 4, .ask⟩, ⟨"C", .ofNat 102, .zero, .ask⟩,
      ⟨"D", .ofNat 99, .zero, .bid⟩, ⟨"B", .ofNat 100, .ofNat 3, .bid⟩,
      ⟨"E", .ofNat 98, .ofNat 1, .bid⟩, ⟨"F", respelled, .ofNat 2, .bid⟩]
    let m : Message := ⟨.snapshot, .ofNat 10, "BTC-USDT", 7, none, .orders entries⟩
    let t : RestingOrders :=
      { orders := [("Z", ⟨.ofNat 50, .ofNat 1, .bid⟩)], bids := [(.ofNat 50, .ofNat 1)],
        lastUpdateId := some 9, applied := [⟨9, 9⟩] }
    let t' := (t.applySnapshot m).1
    let rows : BookRows := ⟨[⟨.ofNat 100, .ofNat 5, 7⟩, ⟨.ofNat 98, .ofNat 1, 7⟩],
      [⟨.ofNat 101, .ofNat 4, 7⟩]⟩
    m.content = .orders entries ∧ t.applySnapshot m = (t', .ok rows) ∧
      (∀ q ∈ empty.entriesTotals entries, Representable q) ∧
      empty.applySnapshot m = (t', .ok rows) ∧
      t'.order? "A" = some ⟨.ofNat 101, .ofNat 4, .ask⟩ ∧ t'.order? "D" = none ∧
      ∀ row ∈ rows.bids, row.amount.value = resting t'.orders .bid row.price := by
  intro respelled entries m t t' rows
  have hd : t.applySnapshot m = (t', .ok rows) := by decide +kernel
  have hexact : ∀ q ∈ empty.entriesTotals entries, Representable q := by decide +kernel
  obtain ⟨hempty, ⟨-, horders⟩, -, hsums⟩ := applySnapshot_rebuilds t t' m entries rows rfl hd
  exact ⟨rfl, hd, hexact, hempty, (horders "A").trans (by decide +kernel),
    (horders "D").trans (by decide +kernel), (hsums hexact .bid).1⟩

end RestingOrders

end BookFeed
