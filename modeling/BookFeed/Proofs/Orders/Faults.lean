import BookFeed.Proofs.Orders.Sums

/-!
# Sums after an event that fails

A total that becomes too large ends a diff, and nothing takes back what has been done. The totals are
still the sums of what rests if an order could not come to rest: what it would have replaced is gone,
with its amount. An order that could not be given a new size is left as it was, but its amount has
been taken from the total by then and is missing there.

* `WellFormed` is kept by every message, also by one that fails (`wellFormed_after`);
* `Balanced.exists_withdraw`: taking away what is counted never fails, so only an amount that is
  added can make an event fail;
* `Balanced.applyEvent_error`: what an event leaves that fails;
* **`addsUp_after_error_iff`**: after which messages that fail the totals are still the sums, and what
  is missing otherwise.
-/

namespace BookFeed

open Decimal (Representable isPositive_iff)

namespace RestingOrders

/-- Each total is the sum of the amounts that rest at its price. -/
def AddsUp (t : RestingOrders) : Prop :=
  ∀ side p, (t.aggregate side p).value = resting t.orders side p

/-- The orders after messages, whether or not these were accepted. -/
def after (us : List Update) : RestingOrders := us.foldl (fun t u => (t.update u).1) empty

/-- The event at which a list of events fails, with the state that it meets. -/
def fault? (t : RestingOrders) : List OrderEvent → Option (RestingOrders × OrderEvent)
  | [] => none
  | e :: es =>
    match t.applyEvent e with
    | (_, .error _) => some (t, e)
    | (t', .ok _) => t'.fault? es

/-- The totals that events compute until one of them fails. The last total of the failing one is that
which is too large. -/
def totalsBeforeFault (t : RestingOrders) : List OrderEvent → List ℚ
  | [] => []
  | e :: es =>
    match t.applyEvent e with
    | (_, .error _) => (t.eventTotals e).dropLast
    | (t', .ok _) => t.eventTotals e ++ t'.totalsBeforeFault es

/-- The event has a new size for a resting order. A match has none if what would be left of the order
is too large to be a decimal. -/
def resizes (t : RestingOrders) (e : OrderEvent) : Bool :=
  match e.kind with
  | .opened | .done => false
  | .changed => (t.order? e.orderId).isSome
  | .matched => (t.order? e.orderId).any fun o => (o.amount.sub? e.amount).isSome

variable {t t' : RestingOrders} {id : String} {o : RestingOrder} {e : OrderEvent}
  {es : List OrderEvent} {err : Error}

/-! ## What every message keeps -/

/-- No order is listed twice, amounts are positive, and the totals are in order and positive. -/
structure WellFormed (t : RestingOrders) : Prop where
  sound : t.Sound
  ids : Sorted.Strict compare t.orders
  positive : ∀ e ∈ t.orders, e.2.amount.isPositive = true

theorem WellFormed.balanced (h : t.WellFormed) (hsums : t.AddsUp) : t.Balanced :=
  ⟨h.sound, h.ids, h.positive, hsums⟩

theorem Balanced.wellFormed (h : t.Balanced) : t.WellFormed :=
  ⟨h.sound, h.ids, h.positive⟩

theorem WellFormed.of_orders (h : t.WellFormed) (ho : t'.orders = t.orders) (hs : t'.Sound) :
    t'.WellFormed := by
  constructor
  · exact hs
  · exact ho ▸ h.ids
  · exact ho ▸ h.positive

/-- An order with a positive amount is listed. -/
theorem WellFormed.of_insert (h : t.WellFormed) (hs : t'.Sound)
    (ho : t'.orders = Sorted.insert compare id o t.orders) (hpos : o.amount.isPositive = true) :
    t'.WellFormed := by
  constructor
  · exact hs
  · rw [ho]
    exact Sorted.strict_insert h.ids id o
  · rw [ho]
    intro x hx
    rcases Sorted.mem_insert hx with ⟨rfl, -⟩ | hx
    · exact hpos
    · exact h.positive x hx

theorem WellFormed.of_erase (h : t.WellFormed) (hs : t'.Sound)
    (ho : t'.orders = Sorted.erase compare id t.orders) : t'.WellFormed := by
  constructor
  · exact hs
  · rw [ho]
    exact Sorted.strict_erase h.ids id
  · rw [ho]
    intro x hx
    exact h.positive x ((Sorted.erase_sublist _ _).subset hx)

theorem WellFormed.close (h : t.WellFormed) (id : String) : (t.close id).1.WellFormed := by
  have hs := (close_touches h.sound id).sound
  unfold RestingOrders.close at hs ⊢
  split at hs
  · exact h
  · simp only at hs ⊢
    split at hs
    · rename_i hw
      exact h.of_erase hs (orders_withdraw hw)
    · exact h.of_erase hs rfl

theorem WellFormed.rest (h : t.WellFormed) (id : String) (o : RestingOrder) :
    (t.rest id o).1.WellFormed := by
  have hs := (rest_touches h.sound id o).sound
  unfold RestingOrders.rest at hs ⊢
  split at hs
  · rename_i hpos
    rw [if_pos hpos]
    split at hs
    · rename_i hd
      exact h.of_insert hs (congrArg _ (orders_deposit hd)) hpos
    · exact h
  · rename_i hpos
    rw [if_neg hpos]
    exact h

theorem WellFormed.resize (h : t.WellFormed) (id : String) (o : RestingOrder) (amount : Decimal) :
    (t.resize id o amount).1.WellFormed := by
  have hs := (resize_touches h.sound id o amount).sound
  unfold RestingOrders.resize at hs ⊢
  by_cases hpos : amount.isPositive = true
  · rw [if_pos hpos] at hs ⊢
    split at hs
    · exact h
    · rename_i t₁ hw
      split at hs
      · exact h.of_orders (orders_withdraw hw) hs
      · rename_i hd
        have horders := (orders_deposit hd).trans (orders_withdraw hw)
        exact h.of_insert (o := { o with amount }) hs (congrArg (Sorted.insert compare id _) horders)
          hpos
  · rw [if_neg hpos]
    exact h.close id

theorem WellFormed.replace (h : t.WellFormed) (id : String) (o : RestingOrder) :
    (t.replace id o).1.WellFormed := by
  have hclose := h.close id
  unfold RestingOrders.replace
  generalize t.close id = closed at hclose ⊢
  obtain ⟨t₁, err | touched⟩ := closed
  · exact hclose
  · have hrest := hclose.rest id o
    simp only at hrest ⊢
    generalize t₁.rest id o = opened at hrest ⊢
    obtain ⟨t₂, err | more⟩ := opened <;> exact hrest

theorem WellFormed.applyEvent (h : t.WellFormed) (e : OrderEvent) :
    (t.applyEvent e).1.WellFormed := by
  unfold RestingOrders.applyEvent
  cases e.kind with
  | opened => exact h.replace _ _
  | changed =>
    simp only
    split
    · exact h.resize _ _ _
    · exact h
  | matched =>
    simp only
    split
    · split
      · exact h.resize _ _ _
      · exact h
    · exact h
  | done => exact h.close _

theorem WellFormed.applyEvents (es : List OrderEvent) : ∀ {t : RestingOrders}, t.WellFormed →
    (t.applyEvents es).1.WellFormed := by
  induction es with
  | nil => exact fun h => h
  | cons e es ih =>
    intro t h
    have hfirst := h.applyEvent e
    simp only [RestingOrders.applyEvents]
    generalize t.applyEvent e = first at hfirst ⊢
    obtain ⟨t₁, err | touched⟩ := first
    · exact hfirst
    · have hmore := ih hfirst
      simp only at hmore ⊢
      generalize t₁.applyEvents es = more at hmore ⊢
      obtain ⟨t₂, err | touched'⟩ := more <;> exact hmore

theorem WellFormed.addEntries (es : List OrderEntry) : ∀ {t : RestingOrders}, t.WellFormed →
    (t.addEntries es).1.WellFormed := by
  induction es with
  | nil => exact fun h => h
  | cons e es ih =>
    intro t h
    have hfirst := h.replace e.orderId ⟨e.price, e.amount, e.side⟩
    simp only [RestingOrders.addEntries]
    generalize t.replace e.orderId ⟨e.price, e.amount, e.side⟩ = first at hfirst ⊢
    obtain ⟨t₁, err | touched⟩ := first
    · exact hfirst
    · exact ih hfirst

theorem WellFormed.applySnapshot (t : RestingOrders) (m : Message) :
    (t.applySnapshot m).1.WellFormed := by
  have hclear : t.cleared.WellFormed := (balanced_cleared t).wellFormed
  unfold RestingOrders.applySnapshot
  split
  · rename_i entries _
    have hall := hclear.addEntries entries
    generalize t.cleared.addEntries entries = done at hall ⊢
    obtain ⟨t₁, err | _⟩ := done
    · exact hall
    · exact hall.of_orders rfl (hall.sound.of_totals fun side => by cases side <;> rfl)
  · exact hclear.of_orders rfl (hclear.sound.of_totals fun side => by cases side <;> rfl)
  · exact hclear

theorem WellFormed.applyDiff (h : t.WellFormed) (m : Message) : (t.applyDiff m).1.WellFormed := by
  unfold RestingOrders.applyDiff
  split
  · exact h
  · split
    · rename_i events _
      have hall := h.applyEvents events
      generalize t.applyEvents events = done at hall ⊢
      obtain ⟨t₁, err | touched⟩ := done
      · exact hall
      · exact hall.of_orders rfl (hall.sound.of_totals (totals_noteApplied t₁ m))
    · exact h.of_orders rfl (h.sound.of_totals (totals_noteApplied t m))
    · exact h

theorem WellFormed.update (h : t.WellFormed) (u : Update) : (t.update u).1.WellFormed := by
  cases u with
  | snapshot m => exact applySnapshot t m
  | diff m => exact h.applyDiff m

theorem wellFormed_after (us : List Update) : (after us).WellFormed := by
  have h : empty.WellFormed := balanced_empty.wellFormed
  unfold after
  generalize empty = t at h ⊢
  induction us generalizing t with
  | nil => exact h
  | cons u us ih => exact ih _ (h.update u)

/-! ## What can fail -/

/-- **What a total counts can be taken from it**, whether or not the order is still listed. -/
theorem Balanced.exists_withdraw (h : t.Balanced) (ho : t.order? id = some o)
    (orders : List (String × RestingOrder)) :
    ∃ t', ({ t with orders } : RestingOrders).withdraw o.side o.price o.amount = .ok t' := by
  have hle := h.amount_le_aggregate ho
  have hpos := isPositive_iff.mp (order?_eq_some_positive h ho)
  unfold RestingOrders.withdraw
  rw [totals_setOrders]
  cases hg : (t.totals o.side).get? o.side o.price with
  | none => exact ⟨_, rfl⟩
  | some total =>
    have htotal : t.aggregate o.side o.price = total := by rw [aggregate, hg]; rfl
    obtain ⟨left, hleft⟩ := Option.isSome_iff_exists.mp
      (Decimal.isSome_sub? hpos.le (htotal ▸ hle))
    simp only [difference, hleft]
    split <;> exact ⟨_, rfl⟩

theorem Balanced.exists_close (h : t.Balanced) (id : String) :
    ∃ t' touched, t.close id = (t', .ok touched) := by
  unfold RestingOrders.close
  cases ho : t.order? id with
  | none => exact ⟨_, _, rfl⟩
  | some o =>
    obtain ⟨t₁, hw⟩ := h.exists_withdraw ho (Sorted.erase compare id t.orders)
    simp only [hw]
    exact ⟨_, _, rfl⟩

/-- Where an order cannot come to rest, what it was to replace is gone. -/
theorem Balanced.replace_error (h : t.Balanced)
    (hr : ∀ q ∈ (t.replaceTotals id o).dropLast, Representable q)
    (hd : t.replace id o = (t', .error err)) : t'.Balanced := by
  obtain ⟨t₁, closed, hc⟩ := h.exists_close id
  unfold RestingOrders.replace at hd
  rw [hc] at hd
  simp only at hd
  have hrest : t₁.rest id o = (t', .error err) := by
    generalize t₁.rest id o = opened at hd
    obtain ⟨t₂, err' | more⟩ := opened
    · exact hd
    · exact absurd (congrArg Prod.snd hd) (by simp)
  -- the total that was too large is the only one of the second half
  have hpos : o.amount.isPositive = true := by
    by_contra hpos
    rw [RestingOrders.rest, if_neg hpos] at hrest
    exact absurd (congrArg Prod.snd hrest) (by simp)
  rw [replaceTotals, restTotals, if_pos hpos, List.dropLast_concat] at hr
  obtain rfl := rest_error hrest
  exact (h.close hr hc).1

/-- Where an order cannot be given a new size it is left as it was, and the totals count only the
others. -/
theorem Balanced.resize_error {amount : Decimal} (h : t.Balanced) (ho : t.order? id = some o)
    (hr : ∀ q ∈ (t.resizeTotals id o amount).dropLast, Representable q)
    (hd : t.resize id o amount = (t', .error err)) :
    t'.orders = t.orders ∧ t'.CountsWithout t id := by
  unfold RestingOrders.resize at hd
  by_cases hpos : amount.isPositive = true
  · obtain ⟨t₁, hw⟩ := h.exists_withdraw ho t.orders
    rw [if_pos hpos] at hd
    have hw' : t.withdraw o.side o.price o.amount = .ok t₁ := hw
    simp only [hw'] at hd
    rw [resizeTotals, if_pos hpos] at hr
    simp only [hw'] at hr
    split at hd
    · obtain rfl := congrArg Prod.fst hd
      exact ⟨orders_withdraw hw', h.withdraw ho hw (hr _ List.mem_cons_self)⟩
    · exact absurd (congrArg Prod.snd hd) (by simp)
  · obtain ⟨t₁, closed, hc⟩ := h.exists_close id
    rw [if_neg hpos, hc] at hd
    exact absurd (congrArg Prod.snd hd) (by simp)

/-- An event that fails has left the totals balanced, or has left an order without its amount. -/
theorem Balanced.applyEvent_error (h : t.Balanced)
    (hr : ∀ q ∈ (t.eventTotals e).dropLast, Representable q)
    (hd : t.applyEvent e = (t', .error err)) :
    (t.resizes e = false ∧ t'.Balanced) ∨
      (t.resizes e = true ∧ t'.orders = t.orders ∧ t'.CountsWithout t e.orderId ∧
        ∃ o, t.order? e.orderId = some o) := by
  unfold eventTotals at hr
  unfold RestingOrders.applyEvent at hd
  unfold resizes
  cases hkind : e.kind with
  | opened =>
    simp only [hkind] at hd hr
    exact .inl ⟨rfl, h.replace_error hr hd⟩
  | changed =>
    simp only [hkind] at hd hr
    cases ho : t.order? e.orderId with
    | none =>
      rw [ho] at hd
      exact absurd (congrArg Prod.snd hd) (by simp)
    | some o =>
      simp only [ho] at hd hr
      obtain ⟨horders, hcounts⟩ := h.resize_error ho hr hd
      exact .inr ⟨rfl, horders, hcounts, o, rfl⟩
  | matched =>
    simp only [hkind] at hd hr
    cases ho : t.order? e.orderId with
    | none =>
      rw [ho] at hd
      exact absurd (congrArg Prod.snd hd) (by simp)
    | some o =>
      simp only [ho, difference] at hd hr
      cases hleft : o.amount.sub? e.amount with
      | none =>
        -- nothing has been done yet
        rw [hleft] at hd
        obtain rfl := congrArg Prod.fst hd
        exact .inl ⟨by simp [hleft], h⟩
      | some left =>
        simp only [hleft] at hd hr
        obtain ⟨horders, hcounts⟩ := h.resize_error ho hr hd
        exact .inr ⟨by simp [hleft], horders, hcounts, o, rfl⟩
  | done =>
    obtain ⟨t₁, closed, hc⟩ := h.exists_close e.orderId
    simp only [hkind, hc] at hd
    exact absurd (congrArg Prod.snd hd) (by simp)

/-! ## Diffs that fail -/

/-- The totals count every order but that of `id`, which is still listed. -/
def Lacks (id : String) (t : RestingOrders) : Prop :=
  ∃ o, t.order? id = some o ∧ 0 < o.amount.value ∧
    ∀ side p, (t.aggregate side p).value = resting t.orders side p - o.share side p

/-- An amount is missing where its order rests. -/
theorem Lacks.not_addsUp (h : Lacks id t) : ¬ t.AddsUp := by
  obtain ⟨o, -, hpos, hlacks⟩ := h
  intro hsums
  have hself := (hsums o.side o.price).symm.trans (hlacks o.side o.price)
  rw [RestingOrder.share, if_pos o.isAt_self] at hself
  exact (sub_lt_self _ hpos).ne hself.symm

theorem Balanced.lacks (h : t.Balanced) (ho : t.order? id = some o)
    (horders : t'.orders = t.orders) (hcounts : t'.CountsWithout t id) : Lacks id t' := by
  refine ⟨o, ?_, isPositive_iff.mp (order?_eq_some_positive h ho), ?_⟩
  · rw [order?, horders]
    exact ho
  · intro side p
    rw [hcounts, horders, resting_erase ho, add_sub_cancel_left]

theorem Balanced.applyEvents_error (h : t.Balanced)
    (hr : ∀ q ∈ t.totalsBeforeFault es, Representable q)
    (hd : t.applyEvents es = (t', .error err)) :
    ∃ t₁ e, t.fault? es = some (t₁, e) ∧
      ((t₁.resizes e = false ∧ t'.AddsUp) ∨ (t₁.resizes e = true ∧ Lacks e.orderId t')) := by
  induction es generalizing t with
  | nil => exact absurd (congrArg Prod.snd hd) (by simp [RestingOrders.applyEvents])
  | cons e es ih =>
    unfold RestingOrders.applyEvents at hd
    unfold totalsBeforeFault at hr
    unfold fault?
    cases he : t.applyEvent e with
    | mk t₁ r =>
      rw [he] at hd hr
      cases r with
      | error err' =>
        obtain rfl : t₁ = t' := congrArg Prod.fst hd
        refine ⟨t, e, rfl, ?_⟩
        rcases h.applyEvent_error hr he with ⟨hkind, hb⟩ | ⟨hkind, horders, hcounts, o, ho⟩
        · exact .inl ⟨hkind, hb.sums⟩
        · exact .inr ⟨hkind, h.lacks ho horders hcounts⟩
      | ok touched =>
        obtain ⟨hfirst, hrest⟩ := List.forall_mem_append.mp hr
        simp only at hd ⊢
        cases hes : t₁.applyEvents es with
        | mk t₂ r =>
          rw [hes] at hd
          cases r with
          | error err' =>
            obtain rfl : t₂ = t' := congrArg Prod.fst hd
            exact ih (h.applyEvent hfirst he) hrest (hes.trans (Prod.ext rfl (congrArg Prod.snd hd)))
          | ok more => exact absurd (congrArg Prod.snd hd) (by simp)

theorem Balanced.applyDiff_error {m : Message} (h : t.Balanced)
    (hr : ∀ es, m.content = .events es → ∀ q ∈ t.totalsBeforeFault es, Representable q)
    (hd : t.applyDiff m = (t', .error err)) :
    (t' = t ∧ ∀ es, m.content ≠ .events es) ∨
      ∃ es t₁ e, m.content = .events es ∧ t.fault? es = some (t₁, e) ∧
        ((t₁.resizes e = false ∧ t'.AddsUp) ∨ (t₁.resizes e = true ∧ Lacks e.orderId t')) := by
  unfold RestingOrders.applyDiff at hd
  split at hd
  · exact absurd (congrArg Prod.snd hd) (by simp)
  · cases hc : m.content with
    | events es =>
      rw [hc] at hd
      simp only at hd
      cases hes : t.applyEvents es with
      | mk t₁ r =>
        rw [hes] at hd
        cases r with
        | error err' =>
          obtain rfl : t₁ = t' := congrArg Prod.fst hd
          obtain ⟨t₂, e, hfault, hleft⟩ := h.applyEvents_error (hr es hc) hes
          exact .inr ⟨es, t₂, e, rfl, hfault, hleft⟩
        | ok touched => exact absurd (congrArg Prod.snd hd) (by simp)
    | levels bids asks =>
      rw [hc] at hd
      exact absurd (congrArg Prod.snd hd) (by simp)
    | orders | trade =>
      rw [hc] at hd
      exact .inl ⟨(congrArg Prod.fst hd).symm, by simp⟩

/-- **Sums after a diff that fails.** Let the totals be the sums of what rests, after any messages,
and let a diff fail then while nothing is rounded but the total at which it fails. The totals are
still the sums exactly if the diff has no event that fails at giving an order a new size. If it has,
that order is still listed, with a positive amount, and its amount is missing in the total at its
price; all other totals are the sums. -/
theorem addsUp_after_error_iff (us : List Update) (m : Message) (t' : RestingOrders) (err : Error)
    (hsums : (after us).AddsUp) (hd : (after us).applyDiff m = (t', .error err))
    (hexact : ∀ es, m.content = .events es →
      ∀ q ∈ (after us).totalsBeforeFault es, Representable q) :
    (t'.AddsUp ↔ ∀ es t₁ e, m.content = .events es → (after us).fault? es = some (t₁, e) →
      t₁.resizes e = false) ∧
      ∀ es t₁ e, m.content = .events es → (after us).fault? es = some (t₁, e) →
        t₁.resizes e = true → ∃ o, t'.order? e.orderId = some o ∧ 0 < o.amount.value ∧
          ∀ side p, (t'.aggregate side p).value = resting t'.orders side p - o.share side p := by
  have hbalanced : (after us).Balanced := (wellFormed_after us).balanced hsums
  rcases hbalanced.applyDiff_error hexact hd with ⟨rfl, hnone⟩ | ⟨es, t₁, e, hc, hfault, hleft⟩
  · constructor
    · exact ⟨fun _ es _ _ hc _ => absurd hc (hnone es), fun _ => hsums⟩
    · intro es _ _ hc
      exact absurd hc (hnone es)
  · -- the failing event is the one that is asked about
    have hsame : ∀ {es' t₁' e'}, m.content = .events es' →
        (after us).fault? es' = some (t₁', e') → t₁' = t₁ ∧ e' = e := by
      intro es' t₁' e' hc' hfault'
      obtain rfl : es = es' := Content.events.inj (hc.symm.trans hc')
      exact Prod.mk.inj (Option.some.inj (hfault'.symm.trans hfault))
    constructor
    · constructor
      · intro hadds es' t₁' e' hc' hfault'
        obtain ⟨rfl, rfl⟩ := hsame hc' hfault'
        rcases hleft with ⟨hkind, -⟩ | ⟨-, hlacks⟩
        · exact hkind
        · exact absurd hadds hlacks.not_addsUp
      · intro hkind
        rcases hleft with ⟨-, hadds⟩ | ⟨hresizes, -⟩
        · exact hadds
        · exact absurd (hkind es t₁ e hc hfault) (by simp [hresizes])
    · intro es' t₁' e' hc' hfault' hresizes
      obtain ⟨rfl, rfl⟩ := hsame hc' hfault'
      rcases hleft with ⟨hkind, -⟩ | ⟨-, hlacks⟩
      · exact absurd hresizes (by simp [hkind])
      · exact hlacks

/-- Two bids at a price whose total is the largest that fits. One cannot grow; in its place a new
order cannot come to rest. -/
theorem addsUp_after_error_iff_full :
    let message (updateId : UInt64) (es : List OrderEvent) : Message :=
      ⟨.diff, .ofNat 10, "BTC-USDT", updateId, none, .events es⟩
    let us : List Update := [.diff (message 1 [⟨.opened, "A", .ofNat 100, .ofNat 1, .bid⟩,
      ⟨.opened, "B", .ofNat 100, .ofNat 79228162514264337593543950334, .bid⟩])]
    let err : Error :=
      .orderBook "aggregate overflow adding 2 to 79228162514264337593543950334"
    let left (kind : EventKind) : RestingOrders :=
      ((after us).applyDiff (message 2 [⟨kind, "A", .ofNat 100, .ofNat 2, .bid⟩])).1
    let fails (kind : EventKind) : Prop :=
      (after us).applyDiff (message 2 [⟨kind, "A", .ofNat 100, .ofNat 2, .bid⟩]) =
        (left kind, .error err)
    (after us).AddsUp ∧ fails .opened ∧ (left .opened).AddsUp ∧ fails .changed ∧
      ¬ (left .changed).AddsUp := by
  intro message us err left fails
  have hexact : ∀ q ∈ empty.runTotals us, Representable q := by decide +kernel
  have hrun : empty.run? us = some (after us) := by decide +kernel
  have hsums : (after us).AddsUp := (balanced_empty.run? hexact hrun).sums
  have hopened : fails .opened := by decide +kernel
  have hchanged : fails .changed := by decide +kernel
  refine ⟨hsums, hopened, ?_, hchanged, ?_⟩
  · have h := addsUp_after_error_iff us _ _ err hsums hopened fun es hc => by
      obtain rfl := Content.events.inj hc
      decide +kernel
    refine h.1.mpr fun es t₁ e hc hfault => ?_
    obtain rfl := Content.events.inj hc
    have hfault' : (after us).fault? [⟨.opened, "A", .ofNat 100, .ofNat 2, .bid⟩] =
        some (after us, ⟨.opened, "A", .ofNat 100, .ofNat 2, .bid⟩) := by decide +kernel
    obtain ⟨ht₁, he⟩ := Prod.mk.inj (Option.some.inj (hfault.symm.trans hfault'))
    rw [ht₁, he]
    rfl
  · have h := addsUp_after_error_iff us _ _ err hsums hchanged fun es hc => by
      obtain rfl := Content.events.inj hc
      decide +kernel
    intro hadds
    have hresizes := h.1.mp hadds _ (after us) ⟨.changed, "A", .ofNat 100, .ofNat 2, .bid⟩ rfl
      (by decide +kernel)
    exact absurd hresizes (by decide +kernel)

/-- A resting order whose change of size overflows is left as it was, without its amount in the
total: the total falls short of the amounts that rest. -/
theorem total_short_of_changed_order :
    let message (updateId : UInt64) (es : List OrderEvent) : Message :=
      ⟨.diff, .ofNat 10, "BTC-USDT", updateId, none, .events es⟩
    let us : List Update := [.diff (message 1 [⟨.opened, "A", .ofNat 100, .ofNat 1, .bid⟩,
      ⟨.opened, "B", .ofNat 100, .ofNat 79228162514264337593543950334, .bid⟩])]
    let m := message 2 [⟨.changed, "A", .ofNat 100, .ofNat 2, .bid⟩]
    let t' := ((after us).applyDiff m).1
    (after us).AddsUp ∧ ((after us).applyDiff m).2.isOk = false ∧
      t'.order? "A" = some ⟨.ofNat 100, .ofNat 1, .bid⟩ ∧
      t'.aggregate .bid (.ofNat 100) = .ofNat 79228162514264337593543950334 ∧
      resting t'.orders .bid (.ofNat 100) = 79228162514264337593543950335 ∧ ¬ t'.AddsUp := by
  intro message us m t'
  have hexact : ∀ q ∈ empty.runTotals us, Representable q := by decide +kernel
  have hrun : empty.run? us = some (after us) := by decide +kernel
  have htotal : t'.aggregate .bid (.ofNat 100) = .ofNat 79228162514264337593543950334 := by
    decide +kernel
  have hresting : resting t'.orders .bid (.ofNat 100) = 79228162514264337593543950335 := by
    decide +kernel
  refine ⟨(balanced_empty.run? hexact hrun).sums, by decide +kernel, by decide +kernel, htotal, hresting, ?_⟩
  intro hadds
  have hvalue := hadds .bid (.ofNat 100)
  rw [htotal, hresting] at hvalue
  exact absurd hvalue (by decide +kernel)

end RestingOrders

end BookFeed
