import BookFeed.Proofs.Decimal.Exact
import BookFeed.Proofs.Orders.Residue
import Mathlib.Algebra.BigOperators.Group.List.Basic
import Mathlib.Algebra.Order.BigOperators.Group.List

/-!
# Totals are the sums of what rests

Totals are kept by adding and taking away amounts as orders come and go. `resting` adds the amounts
up anew, without rounding. The totals that are computed on the way, also those between the two halves
of a change, are listed by `runTotals` as they are before they are rounded. As long as all of these
are decimals nothing is ever rounded, and each total is the sum of the orders that rest there.

* `deposit_value`, `withdraw_value`: one total goes up or down by one amount, no other changes;
* `Balanced` is kept by every operation on an order. Between taking an order away and putting it back
  the totals count the other orders only;
* **`run?_balanced`**: totals, orders and levels after any messages that were all accepted.
-/

namespace BookFeed

open Decimal (Representable value_add? value_sub? isPositive_iff)

namespace RestingOrder

/-- The order rests on the side, at the price in any spelling. -/
def isAt (side : Side) (price : Decimal) (o : RestingOrder) : Bool :=
  decide (o.side = side ∧ o.price.compare price = .eq)

/-- What the order adds to the total at a price. -/
def share (o : RestingOrder) (side : Side) (price : Decimal) : ℚ :=
  if o.isAt side price then o.amount.value else 0

variable {o : RestingOrder} {side : Side} {p : Decimal}

theorem isAt_iff : o.isAt side p = true ↔ side = o.side ∧ o.side.order p o.price = .eq := by
  rw [isAt, decide_eq_true_eq, Decimal.compare_eq_eq_iff, Side.order_eq_iff]
  exact and_congr eq_comm eq_comm

theorem isAt_self (o : RestingOrder) : o.isAt o.side o.price = true :=
  isAt_iff.mpr ⟨rfl, Side.order_eq_iff.mpr rfl⟩

end RestingOrder

namespace RestingOrders

/-- The amounts that rest at a price, added up without rounding. -/
def resting (orders : List (String × RestingOrder)) (side : Side) (price : Decimal) : ℚ :=
  ((orders.filter (·.2.isAt side price)).map (·.2.amount.value)).sum

/-! ## The totals on the way -/

/-- What a total becomes when an amount is added, before it is rounded. -/
def raised (t : RestingOrders) (side : Side) (price amount : Decimal) : ℚ :=
  (t.aggregate side price).value + amount.value

/-- What a total becomes when an amount is taken away, before it is rounded. -/
def lowered (t : RestingOrders) (side : Side) (price amount : Decimal) : ℚ :=
  (t.aggregate side price).value - amount.value

/-- The totals that `rest` computes, before they are rounded. -/
def restTotals (t : RestingOrders) (o : RestingOrder) : List ℚ :=
  if o.amount.isPositive then [t.raised o.side o.price o.amount] else []

@[inherit_doc restTotals]
def closeTotals (t : RestingOrders) (id : String) : List ℚ :=
  match t.order? id with
  | none => []
  | some o => [t.lowered o.side o.price o.amount]

@[inherit_doc restTotals]
def resizeTotals (t : RestingOrders) (id : String) (o : RestingOrder) (amount : Decimal) :
    List ℚ :=
  if amount.isPositive then
    t.lowered o.side o.price o.amount ::
      match t.withdraw o.side o.price o.amount with
      | .error _ => []
      | .ok t => [t.raised o.side o.price amount]
  else t.closeTotals id

@[inherit_doc restTotals]
def replaceTotals (t : RestingOrders) (id : String) (o : RestingOrder) : List ℚ :=
  t.closeTotals id ++ (t.close id).1.restTotals o

@[inherit_doc restTotals]
def eventTotals (t : RestingOrders) (e : OrderEvent) : List ℚ :=
  match e.kind with
  | .opened => t.replaceTotals e.orderId ⟨e.price, e.amount, e.side⟩
  | .changed =>
    match t.order? e.orderId with
    | some o => t.resizeTotals e.orderId o e.amount
    | none => []
  | .matched =>
    match t.order? e.orderId with
    | some o =>
      match difference o.amount e.amount with
      | .ok remaining => t.resizeTotals e.orderId o remaining
      | .error _ => []
    | none => []
  | .done => t.closeTotals e.orderId

/-- The totals that events compute one after the other. -/
def eventsTotals (t : RestingOrders) : List OrderEvent → List ℚ
  | [] => []
  | e :: es => t.eventTotals e ++ (t.applyEvent e).1.eventsTotals es

/-- The totals that the orders of a snapshot compute one after the other. -/
def entriesTotals (t : RestingOrders) : List OrderEntry → List ℚ
  | [] => []
  | e :: es =>
    t.replaceTotals e.orderId ⟨e.price, e.amount, e.side⟩ ++
      (t.replace e.orderId ⟨e.price, e.amount, e.side⟩).1.entriesTotals es

/-- A message for the orders. -/
inductive Update where
  | snapshot (m : Message)
  | diff (m : Message)

def update (t : RestingOrders) : Update → RestingOrders × Except Error BookRows
  | .snapshot m => t.applySnapshot m
  | .diff m => t.applyDiff m

/-- The totals that a message computes. -/
def updateTotals (t : RestingOrders) : Update → List ℚ
  | .snapshot m =>
    match m.content with
    | .orders entries => t.cleared.entriesTotals entries
    | _ => []
  | .diff m =>
    if t.applied.contains (keyOf m) then []
    else
      match m.content with
      | .events events => t.eventsTotals events
      | _ => []

/-- The orders after messages, if all of them are accepted. -/
def run? (t : RestingOrders) : List Update → Option RestingOrders
  | [] => some t
  | u :: us =>
    match t.update u with
    | (t, .ok _) => t.run? us
    | (_, .error _) => none

/-- All totals that messages compute, before they are rounded. -/
def runTotals (t : RestingOrders) : List Update → List ℚ
  | [] => []
  | u :: us => t.updateTotals u ++ (t.update u).1.runTotals us

variable {t t' : RestingOrders} {orders orders' : List (String × RestingOrder)} {side : Side}
  {p price amount : Decimal} {id : String} {o : RestingOrder}

/-! ## Adding up -/

theorem resting_perm (h : orders.Perm orders') (side : Side) (p : Decimal) :
    resting orders side p = resting orders' side p :=
  ((h.filter _).map _).sum_eq

theorem resting_cons (id : String) (o : RestingOrder) (orders : List (String × RestingOrder))
    (side : Side) (p : Decimal) :
    resting ((id, o) :: orders) side p = o.share side p + resting orders side p := by
  unfold resting RestingOrder.share
  rw [List.filter_cons]
  split
  · rw [List.map_cons, List.sum_cons]
  · rw [zero_add]

theorem resting_erase (h : Sorted.get? compare id orders = some o) (side : Side) (p : Decimal) :
    resting orders side p = o.share side p + resting (Sorted.erase compare id orders) side p := by
  rw [resting_perm (Sorted.perm_erase h), resting_cons]

theorem resting_insert (hl : Sorted.Strict compare orders) (id : String) (o : RestingOrder)
    (side : Side) (p : Decimal) :
    resting (Sorted.insert compare id o orders) side p =
      o.share side p + resting (Sorted.erase compare id orders) side p := by
  rw [resting_perm (Sorted.perm_insert hl id o), resting_cons]

theorem resting_nonneg (h : ∀ e ∈ orders, e.2.amount.isPositive = true) (side : Side)
    (p : Decimal) : 0 ≤ resting orders side p := by
  refine List.sum_nonneg fun q hq => ?_
  obtain ⟨e, he, rfl⟩ := List.mem_map.mp hq
  exact (isPositive_iff.mp (h e (List.mem_of_mem_filter he))).le

/-- Something rests at a price exactly if the sum there is positive. -/
theorem resting_pos_iff (h : ∀ e ∈ orders, e.2.amount.isPositive = true) :
    0 < resting orders side p ↔ ∃ e ∈ orders, e.2.isAt side p = true := by
  constructor
  · intro hpos
    by_contra hnone
    have hempty : orders.filter (·.2.isAt side p) = [] :=
      List.filter_eq_nil_iff.mpr fun e he hat => hnone ⟨e, he, hat⟩
    rw [resting, hempty] at hpos
    exact lt_irrefl _ hpos
  · rintro ⟨e, he, hat⟩
    have hmem : e.2.amount.value ∈ (orders.filter (·.2.isAt side p)).map (·.2.amount.value) :=
      List.mem_map_of_mem (List.mem_filter.mpr ⟨he, hat⟩)
    refine (isPositive_iff.mp (h e he)).trans_le (List.single_le_sum (fun q hq => ?_) _ hmem)
    obtain ⟨e', he', rfl⟩ := List.mem_map.mp hq
    exact (isPositive_iff.mp (h e' (List.mem_of_mem_filter he'))).le

/-! ## One total -/

theorem aggregate_congr (h : side.order p price = .eq) :
    t.aggregate side p = t.aggregate side price :=
  congrArg (fun total : Option Decimal => total.getD .zero) (Sorted.get?_congr h _)

theorem aggregate_insert (t : RestingOrders) (side side' : Side) (price total p : Decimal) :
    (t.setTotals side (Sorted.insert side.order price total (t.totals side))).aggregate side' p =
      if side' = side ∧ side.order p price = .eq then total else t.aggregate side' p := by
  unfold aggregate Ladder.get?
  rw [totals_setTotals]
  by_cases hs : side' = side
  · subst hs
    rw [if_pos rfl, Sorted.get?_insert]
    by_cases hp : side'.order p price = .eq <;> simp [hp]
  · rw [if_neg hs, if_neg fun h => hs h.1]

theorem aggregate_erase (ht : t.Sound) (side side' : Side) (price p : Decimal) :
    (t.setTotals side (Sorted.erase side.order price (t.totals side))).aggregate side' p =
      if side' = side ∧ side.order p price = .eq then .zero else t.aggregate side' p := by
  unfold aggregate Ladder.get?
  rw [totals_setTotals]
  by_cases hs : side' = side
  · subst hs
    rw [if_pos rfl, Sorted.get?_erase (ht.strict side')]
    by_cases hp : side'.order p price = .eq <;> simp [hp]
  · rw [if_neg hs, if_neg fun h => hs h.1]

/-- **A deposit adds what an order of that amount would count**, where nothing is rounded. -/
theorem deposit_value (hd : t.deposit o.side o.price o.amount = .ok t')
    (hr : Representable (t.raised o.side o.price o.amount)) (side : Side) (p : Decimal) :
    (t'.aggregate side p).value = (t.aggregate side p).value + o.share side p := by
  unfold deposit at hd
  split at hd
  · rename_i total hsum
    obtain rfl := Except.ok.inj hd
    unfold sum at hsum
    split at hsum
    · rename_i c hc
      obtain rfl := Except.ok.inj hsum
      have hvalue : c.value = t.raised o.side o.price o.amount := value_add? hc hr
      rw [aggregate_insert, RestingOrder.share]
      by_cases hat : o.isAt side p = true
      · have hplace := RestingOrder.isAt_iff.mp hat
        rw [if_pos hplace, if_pos hat, hvalue, raised, hplace.1, aggregate_congr hplace.2]
      · rw [if_neg (mt RestingOrder.isAt_iff.mpr hat), if_neg hat, add_zero]
    · exact absurd hsum (by simp)
  · exact absurd hd (by simp)

theorem value_difference {a b c : Decimal} (h : difference a b = .ok c)
    (hr : Representable (a.value - b.value)) : c.value = a.value - b.value := by
  unfold difference at h
  split at h
  · rename_i d hd
    obtain rfl := Except.ok.inj h
    exact value_sub? hd hr
  · exact absurd h (by simp)

/-- **A withdrawal takes away what the order counts**, where nothing is rounded and the total
counts the order. -/
theorem withdraw_value (ht : t.Sound) (hw : t.withdraw o.side o.price o.amount = .ok t')
    (hr : Representable (t.lowered o.side o.price o.amount)) (hpos : o.amount.isPositive = true)
    (hle : o.amount.value ≤ (t.aggregate o.side o.price).value) (side : Side) (p : Decimal) :
    (t'.aggregate side p).value = (t.aggregate side p).value - o.share side p := by
  unfold withdraw at hw
  cases hg : (t.totals o.side).get? o.side o.price with
  | none =>
    -- there is a total, since it counts the order
    have hzero : t.aggregate o.side o.price = .zero := by rw [aggregate, hg]; rfl
    rw [hzero, Decimal.value_zero] at hle
    exact absurd (isPositive_iff.mp hpos) (not_lt.mpr hle)
  | some total =>
    have htotal : t.aggregate o.side o.price = total := by rw [aggregate, hg]; rfl
    simp only [hg] at hw
    cases hdiff : difference total o.amount with
    | error e =>
      rw [hdiff] at hw
      exact absurd hw (by simp)
    | ok rest =>
      simp only [hdiff] at hw
      have hvalue : rest.value = (t.aggregate o.side o.price).value - o.amount.value :=
        htotal ▸ value_difference hdiff (htotal ▸ hr)
      have hat : ∀ {x : Decimal}, x.value = rest.value →
          ((if side = o.side ∧ o.side.order p o.price = .eq then x
            else t.aggregate side p) : Decimal).value =
              (t.aggregate side p).value - o.share side p := by
        intro x hx
        rw [RestingOrder.share]
        by_cases hat : o.isAt side p = true
        · have hplace := RestingOrder.isAt_iff.mp hat
          rw [if_pos hplace, if_pos hat, hx, hvalue, hplace.1, aggregate_congr hplace.2]
        · rw [if_neg (mt RestingOrder.isAt_iff.mpr hat), if_neg hat, sub_zero]
      split at hw
      · obtain rfl := Except.ok.inj hw
        rw [aggregate_insert]
        exact hat rfl
      · rename_i hnot
        obtain rfl := Except.ok.inj hw
        rw [aggregate_erase ht]
        -- what is left is not negative, so nothing is left
        have hle' : rest.value ≤ 0 := not_lt.mp (mt isPositive_iff.mpr hnot)
        have hzero : rest.value = 0 := le_antisymm hle' (hvalue ▸ sub_nonneg.mpr hle)
        exact hat (Decimal.value_zero.trans hzero.symm)

/-! ## Every operation -/

/-- The totals are the sums of what rests. -/
structure Balanced (t : RestingOrders) : Prop where
  sound : t.Sound
  ids : Sorted.Strict compare t.orders
  positive : ∀ e ∈ t.orders, e.2.amount.isPositive = true
  sums : ∀ side p, (t.aggregate side p).value = resting t.orders side p

/-- The totals of `t` count the orders that rest in `t₀`, that of `id` apart. -/
def CountsWithout (t t₀ : RestingOrders) (id : String) : Prop :=
  ∀ side p, (t.aggregate side p).value = resting (Sorted.erase compare id t₀.orders) side p

theorem order?_eq_some_positive (h : t.Balanced) (ho : t.order? id = some o) :
    o.amount.isPositive = true := by
  obtain ⟨e, he, -, rfl⟩ := Sorted.mem_of_get? ho
  exact h.positive e he

theorem aggregate_setOrders (t : RestingOrders) (orders : List (String × RestingOrder))
    (side : Side) (p : Decimal) :
    ({ t with orders } : RestingOrders).aggregate side p = t.aggregate side p := by
  rw [aggregate, totals_setOrders]
  rfl

/-- A total is at least the amount of each order that it counts. -/
theorem Balanced.amount_le_aggregate (h : t.Balanced) (ho : t.order? id = some o) :
    o.amount.value ≤ (t.aggregate o.side o.price).value := by
  rw [h.sums, resting_erase ho, RestingOrder.share, if_pos o.isAt_self]
  refine le_add_of_nonneg_right (resting_nonneg (fun e he => ?_) _ _)
  exact h.positive e ((Sorted.erase_sublist _ _).subset he)

/-- Where the amount of an order is withdrawn, the totals count the others. Whether it is still
listed does not matter. -/
theorem Balanced.withdraw (h : t.Balanced) (ho : t.order? id = some o)
    (hw : ({ t with orders } : RestingOrders).withdraw o.side o.price o.amount = .ok t')
    (hr : Representable (t.lowered o.side o.price o.amount)) : t'.CountsWithout t id := by
  intro side p
  have hsum := resting_erase ho
  have hpos := order?_eq_some_positive h ho
  have hle := h.amount_le_aggregate ho
  have hvalue := withdraw_value (h.sound.setOrders orders) hw
    (by rwa [lowered, aggregate_setOrders]) hpos (by rwa [aggregate_setOrders]) side p
  rw [hvalue, aggregate_setOrders, h.sums, hsum, add_sub_cancel_left]

theorem orders_deposit (h : t.deposit side price amount = .ok t') : t'.orders = t.orders := by
  unfold deposit at h
  split at h
  · obtain rfl := Except.ok.inj h
    cases side <;> rfl
  · exact absurd h (by simp)

/-- Where the totals count all orders but one, they are balanced once the amount of that order has
been deposited and the order is listed. -/
theorem CountsWithout.deposit {t₀ : RestingOrders} (h : t.CountsWithout t₀ id)
    (ht₀ : t₀.Balanced) (ht : t.Sound) (horders : t.orders = t₀.orders)
    (hpos : o.amount.isPositive = true) (hd : t.deposit o.side o.price o.amount = .ok t')
    (hr : Representable (t.raised o.side o.price o.amount)) : (t'.setOrder id o).Balanced := by
  have heq : t'.orders = t₀.orders := (orders_deposit hd).trans horders
  refine ⟨(deposit_ok ht hpos hd).1.setOrders _, ?_, fun e he => ?_, fun side p => ?_⟩
  · rw [setOrder, heq]
    exact Sorted.strict_insert ht₀.ids _ _
  · rw [setOrder, heq] at he
    rcases Sorted.mem_insert he with ⟨rfl, -⟩ | he
    · exact hpos
    · exact ht₀.positive e he
  · rw [setOrder, heq, resting_insert ht₀.ids, aggregate_setOrders, deposit_value hd hr, h side p,
      add_comm]

/-- An order that is closed is gone, and so is its amount. -/
theorem Balanced.close {touched : List Touched} (h : t.Balanced)
    (hr : ∀ q ∈ t.closeTotals id, Representable q) (hc : t.close id = (t', .ok touched)) :
    t'.Balanced ∧ t'.order? id = none := by
  have hsound := (close_touches h.sound id).sound
  rw [hc] at hsound
  unfold closeTotals at hr
  unfold RestingOrders.close at hc
  cases ho : t.order? id with
  | none =>
    rw [ho] at hc
    obtain rfl := congrArg Prod.fst hc
    exact ⟨h, ho⟩
  | some o =>
    simp only [ho] at hc hr
    cases hw : ({ t with orders := Sorted.erase compare id t.orders } : RestingOrders).withdraw
        o.side o.price o.amount with
    | error e =>
      rw [hw] at hc
      exact absurd (congrArg Prod.snd hc) (by simp)
    | ok t₁ =>
      rw [hw] at hc
      obtain rfl := congrArg Prod.fst hc
      have heq : t₁.orders = Sorted.erase compare id t.orders := orders_withdraw hw
      refine ⟨⟨hsound, ?_, fun e he => ?_, fun side p => ?_⟩, ?_⟩
      · rw [heq]
        exact Sorted.strict_erase h.ids id
      · rw [heq] at he
        exact h.positive e ((Sorted.erase_sublist _ _).subset he)
      · rw [heq]
        exact h.withdraw ho hw (hr _ List.mem_cons_self) side p
      · rw [order?, heq, Sorted.get?_erase h.ids, if_pos Std.ReflCmp.compare_self]

theorem Balanced.rest {touched : List Touched} (h : t.Balanced) (hid : t.order? id = none)
    (hr : ∀ q ∈ t.restTotals o, Representable q) (hd : t.rest id o = (t', .ok touched)) :
    t'.Balanced := by
  unfold restTotals at hr
  unfold RestingOrders.rest at hd
  split at hd
  · rename_i hpos
    rw [if_pos hpos] at hr
    cases hdep : t.deposit o.side o.price o.amount with
    | error e =>
      rw [hdep] at hd
      exact absurd (congrArg Prod.snd hd) (by simp)
    | ok t₁ =>
      rw [hdep] at hd
      obtain rfl := congrArg Prod.fst hd
      have hcounts : t.CountsWithout t id := fun side p => by
        rw [Sorted.erase_of_get?_eq_none hid]
        exact h.sums side p
      exact hcounts.deposit h h.sound rfl hpos hdep (hr _ List.mem_cons_self)
  · obtain rfl := congrArg Prod.fst hd
    exact h

theorem Balanced.resize {touched : List Touched} (h : t.Balanced) (ho : t.order? id = some o)
    (hr : ∀ q ∈ t.resizeTotals id o amount, Representable q)
    (hd : t.resize id o amount = (t', .ok touched)) : t'.Balanced := by
  unfold resizeTotals at hr
  unfold RestingOrders.resize at hd
  split at hd
  · rename_i hpos
    rw [if_pos hpos] at hr
    cases hw : t.withdraw o.side o.price o.amount with
    | error e =>
      rw [hw] at hd
      exact absurd (congrArg Prod.snd hd) (by simp)
    | ok t₁ =>
      simp only [hw] at hd hr
      cases hdep : t₁.deposit o.side o.price amount with
      | error e =>
        rw [hdep] at hd
        exact absurd (congrArg Prod.snd hd) (by simp)
      | ok t₂ =>
        rw [hdep] at hd
        obtain rfl := congrArg Prod.fst hd
        obtain ⟨hlowered, hraised⟩ := List.forall_mem_cons.mp hr
        have hcounts := h.withdraw ho hw hlowered
        exact hcounts.deposit (o := { o with amount }) h (withdraw_ok h.sound hw).1
          (orders_withdraw hw) hpos hdep (hraised _ List.mem_cons_self)
  · rename_i hpos
    rw [if_neg hpos] at hr
    exact (h.close hr hd).1

theorem Balanced.replace {touched : List Touched} (h : t.Balanced)
    (hr : ∀ q ∈ t.replaceTotals id o, Representable q)
    (hd : t.replace id o = (t', .ok touched)) : t'.Balanced := by
  obtain ⟨hclose, hrest⟩ := List.forall_mem_append.mp hr
  unfold RestingOrders.replace at hd
  cases hc : t.close id with
  | mk t₁ r =>
    rw [hc] at hd hrest
    cases r with
    | error e => exact absurd (congrArg Prod.snd hd) (by simp)
    | ok closed =>
      obtain ⟨h₁, hid⟩ := h.close hclose hc
      simp only at hd
      cases hopen : t₁.rest id o with
      | mk t₂ r =>
        rw [hopen] at hd
        cases r with
        | error e => exact absurd (congrArg Prod.snd hd) (by simp)
        | ok opened =>
          obtain rfl := congrArg Prod.fst hd
          exact h₁.rest hid hrest hopen

theorem Balanced.applyEvent {e : OrderEvent} {touched : List Touched} (h : t.Balanced)
    (hr : ∀ q ∈ t.eventTotals e, Representable q) (hd : t.applyEvent e = (t', .ok touched)) :
    t'.Balanced := by
  unfold eventTotals at hr
  unfold RestingOrders.applyEvent at hd
  cases hkind : e.kind with
  | opened =>
    simp only [hkind] at hd hr
    exact h.replace hr hd
  | changed =>
    simp only [hkind] at hd hr
    cases ho : t.order? e.orderId with
    | none =>
      rw [ho] at hd
      obtain rfl := congrArg Prod.fst hd
      exact h
    | some o =>
      simp only [ho] at hd hr
      exact h.resize ho hr hd
  | matched =>
    simp only [hkind] at hd hr
    cases ho : t.order? e.orderId with
    | none =>
      rw [ho] at hd
      obtain rfl := congrArg Prod.fst hd
      exact h
    | some o =>
      simp only [ho] at hd hr
      cases hrem : difference o.amount e.amount with
      | error err =>
        rw [hrem] at hd
        exact absurd (congrArg Prod.snd hd) (by simp)
      | ok remaining =>
        simp only [hrem] at hd hr
        exact h.resize ho hr hd
  | done =>
    simp only [hkind] at hd hr
    exact (h.close hr hd).1

/-! ## Every message -/

theorem Balanced.applyEvents {es : List OrderEvent} {touched : List Touched} (h : t.Balanced)
    (hr : ∀ q ∈ t.eventsTotals es, Representable q)
    (hd : t.applyEvents es = (t', .ok touched)) : t'.Balanced := by
  induction es generalizing t touched with
  | nil =>
    obtain rfl := congrArg Prod.fst hd
    exact h
  | cons e es ih =>
    obtain ⟨hfirst, hrest⟩ := List.forall_mem_append.mp hr
    unfold RestingOrders.applyEvents at hd
    cases he : t.applyEvent e with
    | mk t₁ r =>
      rw [he] at hd hrest
      cases r with
      | error err => exact absurd (congrArg Prod.snd hd) (by simp)
      | ok a =>
        simp only at hd
        cases hes : t₁.applyEvents es with
        | mk t₂ r =>
          rw [hes] at hd
          cases r with
          | error err => exact absurd (congrArg Prod.snd hd) (by simp)
          | ok b =>
            obtain rfl := congrArg Prod.fst hd
            exact ih (h.applyEvent hfirst he) hrest hes

theorem Balanced.addEntries {es : List OrderEntry} (h : t.Balanced)
    (hr : ∀ q ∈ t.entriesTotals es, Representable q) (hd : t.addEntries es = (t', .ok ())) :
    t'.Balanced := by
  induction es generalizing t with
  | nil =>
    obtain rfl := congrArg Prod.fst hd
    exact h
  | cons e es ih =>
    obtain ⟨hfirst, hrest⟩ := List.forall_mem_append.mp hr
    unfold RestingOrders.addEntries at hd
    cases he : t.replace e.orderId ⟨e.price, e.amount, e.side⟩ with
    | mk t₁ r =>
      rw [he] at hd hrest
      cases r with
      | error err => exact absurd (congrArg Prod.snd hd) (by simp)
      | ok a => exact ih (h.replace hfirst he) hrest hd

/-- The notes do not count. -/
theorem Balanced.of_orders (h : t.Balanced) (ho : t'.orders = t.orders)
    (ht : ∀ side, t'.totals side = t.totals side) : t'.Balanced := by
  refine ⟨h.sound.of_totals ht, ho ▸ h.ids, ho ▸ h.positive, fun side p => ?_⟩
  rw [aggregate, ht, ho]
  exact h.sums side p

theorem balanced_of_nil (ho : t.orders = []) (ht : ∀ side, t.totals side = []) : t.Balanced := by
  refine ⟨sound_of_nil ht, ?_, fun e he => ?_, fun side p => ?_⟩
  · rw [ho]
    exact List.Pairwise.nil
  · rw [ho] at he
    exact absurd he List.not_mem_nil
  · rw [aggregate, ht, ho]
    exact Decimal.value_zero

theorem balanced_empty : empty.Balanced := balanced_of_nil rfl fun side => by cases side <;> rfl

theorem balanced_cleared (t : RestingOrders) : t.cleared.Balanced :=
  balanced_of_nil rfl fun side => by cases side <;> rfl

theorem balanced_applySnapshot {m : Message} {rows : BookRows}
    (hr : ∀ q ∈ t.updateTotals (.snapshot m), Representable q)
    (hd : t.applySnapshot m = (t', .ok rows)) : t'.Balanced := by
  have hclear := balanced_cleared t
  unfold updateTotals at hr
  unfold applySnapshot at hd
  cases hc : m.content with
  | orders entries =>
    simp only [hc] at hd hr
    cases ha : t.cleared.addEntries entries with
    | mk t₁ r =>
      rw [ha] at hd
      cases r with
      | error e => exact absurd (congrArg Prod.snd hd) (by simp)
      | ok _ =>
        obtain rfl := congrArg Prod.fst hd
        exact (hclear.addEntries hr ha).of_orders rfl fun side => by cases side <;> rfl
  | levels bids asks =>
    rw [hc] at hd
    obtain rfl := congrArg Prod.fst hd
    exact hclear.of_orders rfl fun side => by cases side <;> rfl
  | events | trade =>
    rw [hc] at hd
    exact absurd (congrArg Prod.snd hd) (by simp)

theorem Balanced.applyDiff {m : Message} {rows : BookRows} (h : t.Balanced)
    (hr : ∀ q ∈ t.updateTotals (.diff m), Representable q)
    (hd : t.applyDiff m = (t', .ok rows)) : t'.Balanced := by
  unfold updateTotals at hr
  unfold RestingOrders.applyDiff at hd
  split at hd
  · obtain rfl := congrArg Prod.fst hd
    exact h
  · rename_i hnew
    simp only [if_neg hnew] at hr
    cases hc : m.content with
    | events events =>
      simp only [hc] at hd hr
      cases ha : t.applyEvents events with
      | mk t₁ r =>
        rw [ha] at hd
        cases r with
        | error e => exact absurd (congrArg Prod.snd hd) (by simp)
        | ok touched =>
          obtain rfl := congrArg Prod.fst hd
          exact (h.applyEvents hr ha).of_orders rfl (totals_noteApplied t₁ m)
    | levels bids asks =>
      rw [hc] at hd
      obtain rfl := congrArg Prod.fst hd
      exact h.of_orders rfl (totals_noteApplied t m)
    | orders | trade =>
      rw [hc] at hd
      exact absurd (congrArg Prod.snd hd) (by simp)

theorem Balanced.run? {us : List Update} (h : t.Balanced)
    (hr : ∀ q ∈ t.runTotals us, Representable q) (hd : t.run? us = some t') : t'.Balanced := by
  induction us generalizing t with
  | nil => exact Option.some.inj hd ▸ h
  | cons u us ih =>
    obtain ⟨hfirst, hrest⟩ := List.forall_mem_append.mp hr
    unfold RestingOrders.run? at hd
    cases hu : t.update u with
    | mk t₁ r =>
      rw [hu] at hd hrest
      cases r with
      | error e => exact absurd hd (by simp)
      | ok rows =>
        have h₁ : t₁.Balanced := by
          cases u with
          | snapshot m => exact balanced_applySnapshot hfirst hu
          | diff m => exact h.applyDiff hfirst hu
        exact ih h₁ hrest hd

/-- A total is there exactly if something rests at its price. -/
theorem Balanced.isSome_iff (h : t.Balanced) (side : Side) (p : Decimal) :
    ((t.totals side).get? side p).isSome = true ↔ ∃ e ∈ t.orders, e.2.isAt side p = true := by
  rw [← resting_pos_iff h.positive, ← h.sums, aggregate]
  cases hg : (t.totals side).get? side p with
  | none => simp
  | some total =>
    obtain ⟨e, he, -, rfl⟩ := Sorted.mem_of_get? hg
    simpa using isPositive_iff.mp (h.sound.positive side e he)

/-- **Totals are the sums of what rests.** After any snapshots and diffs that were all accepted, if
all totals computed on the way are decimals as they are, without rounding: no order is listed twice
and each has a positive amount, the total at a price is the sum of the amounts of the orders that
rest there, and there is a total exactly if there is such an order. -/
theorem run?_balanced (us : List Update) (t : RestingOrders) (hrun : empty.run? us = some t)
    (hexact : ∀ q ∈ empty.runTotals us, Representable q) :
    (t.orders.map (·.1)).Nodup ∧ (∀ e ∈ t.orders, e.2.amount.isPositive = true) ∧
      ∀ side price, (t.aggregate side price).value = resting t.orders side price ∧
        (((t.totals side).get? side price).isSome = true ↔
          ∃ e ∈ t.orders, e.2.isAt side price = true) := by
  have hempty : empty.Balanced := balanced_of_nil rfl fun side => by cases side <;> rfl
  have h : t.Balanced := hempty.run? hexact hrun
  exact ⟨h.ids.nodup, h.positive, fun side price => ⟨h.sums side price, h.isSome_iff side price⟩⟩

/-- Two spellings of one price, an order that comes without an amount, one that is matched in part
and moves to the other side, and one that is matched with more than it has. -/
theorem run?_balanced_moved :
    let half : Decimal := { magnitude := 5, scale := 1 }
    let respelled : Decimal := { magnitude := 1000, scale := 1 }
    let message (kind : MessageKind) (updateId : UInt64) (content : Content) : Message :=
      ⟨kind, .ofNat 10, "BTC-USDT", updateId, none, content⟩
    let us : List Update :=
      [.snapshot (message .snapshot 1 (.orders [⟨"A", .ofNat 100, .ofNat 2, .bid⟩,
          ⟨"B", respelled, half, .bid⟩, ⟨"C", .ofNat 101, .zero, .ask⟩])),
        .diff (message .diff 2 (.events [⟨.matched, "A", .zero, half, .bid⟩,
          ⟨.changed, "B", .zero, .ofNat 3, .bid⟩, ⟨.opened, "C", .ofNat 101, .ofNat 1, .ask⟩,
          ⟨.opened, "A", .ofNat 101, .ofNat 4, .ask⟩])),
        .diff (message .diff 3 (.events [⟨.matched, "C", .zero, .ofNat 5, .ask⟩]))]
    (∀ q ∈ empty.runTotals us, Representable q) ∧ ∃ t, empty.run? us = some t ∧
      t.orders.map (·.1) = ["A", "B"] ∧ (t.aggregate .bid (.ofNat 100)).value = 3 ∧
      (t.orders.map (·.1)).Nodup ∧ (∀ e ∈ t.orders, e.2.amount.isPositive = true) ∧
      ∀ side price, (t.aggregate side price).value = resting t.orders side price ∧
        (((t.totals side).get? side price).isSome = true ↔
          ∃ e ∈ t.orders, e.2.isAt side price = true) := by
  intro half respelled message us
  have hexact : ∀ q ∈ empty.runTotals us, Representable q := by decide +kernel
  have hlast : (empty.run? us).any (fun t => t.orders.map (·.1) = ["A", "B"] ∧
      (t.aggregate .bid (.ofNat 100)).value = 3) = true := by
    decide +kernel
  cases hrun : empty.run? us with
  | none =>
    rw [hrun] at hlast
    exact absurd hlast Bool.false_ne_true
  | some t =>
    rw [hrun, Option.any_some, decide_eq_true_eq] at hlast
    exact ⟨hexact, t, rfl, hlast.1, hlast.2, run?_balanced us t hrun hexact⟩

end RestingOrders

end BookFeed
