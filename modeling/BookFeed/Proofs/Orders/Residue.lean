import BookFeed.Proofs.Orders.Snapshot
import BookFeed.Proofs.Orders.Totals

/-!
# What events leave that fail

Events are applied one by one, and nothing takes them back. So a list of events that fails leaves
what the events before the failing one have done. The failing one may have got somewhere, too, but
not far: `Spares id t t'` says that `t'` is `t` up to the order `id` and the total at the price
where that order rested.

* `spares_applyEvent`: an event that fails spares everything but its own order;
* **`residue_of_applyEvents`**: what a list of events leaves that fails.
-/

namespace BookFeed

theorem Sorted.get?_erase_of_ne {α β : Type} {cmp : α → α → Ordering} [Std.TransCmp cmp] {k k' : α}
    (h : cmp k' k ≠ .eq) (l : List (α × β)) : get? cmp k' (erase cmp k l) = get? cmp k' l := by
  induction l with
  | nil => rfl
  | cons e l ih =>
    simp only [erase, get?]
    split
    · rename_i hk
      rw [if_neg fun hk' => h (Std.TransCmp.eq_trans hk' (Std.OrientedCmp.eq_symm hk))]
    · rw [get?, ih]

namespace RestingOrders

/-- `t'` has the orders of `t` and their totals, except for one order and the total at the price
where it rested. -/
structure Spares (id : String) (t t' : RestingOrders) : Prop where
  orders : ∀ id', id' ≠ id → t'.order? id' = t.order? id'
  totals : ∀ o, t.order? id = some o → AgreesOff [(o.side, o.price)] t t'
  /-- an order that did not rest leaves nothing behind -/
  unknown : t.order? id = none → t' = t

variable {t t' : RestingOrders} {id : String} {o : RestingOrder} {e : OrderEvent}
  {es : List OrderEvent} {err : Error}

theorem Spares.refl (id : String) (t : RestingOrders) : Spares id t t :=
  ⟨fun _ _ => rfl, fun _ _ => .refl _ t, fun _ => rfl⟩

theorem orders_withdraw {side : Side} {price amount : Decimal}
    (h : t.withdraw side price amount = .ok t') : t'.orders = t.orders := by
  have hset : ∀ l, (t.setTotals side l).orders = t.orders := fun l => by cases side <;> rfl
  unfold withdraw at h
  split at h
  · exact congrArg orders (Except.ok.inj h).symm
  · split at h
    · cases h
    · split at h <;> exact (congrArg orders (Except.ok.inj h).symm).trans (hset _)

theorem agreesOff_withdraw {side : Side} {price amount : Decimal}
    (h : t.withdraw side price amount = .ok t') : AgreesOff [(side, price)] t t' := by
  unfold withdraw at h
  split at h
  · obtain rfl := Except.ok.inj h
    exact .refl _ t
  · split at h
    · cases h
    · split at h
      · obtain rfl := Except.ok.inj h
        exact agreesOff_insert t side price _
      · obtain rfl := Except.ok.inj h
        exact agreesOff_setTotals fun p hp => Sorted.get?_erase_of_ne hp _

/-- Closing an order spares the others, whether or not it succeeds. -/
theorem spares_close {r : Except Error (List Touched)} (h : t.close id = (t', r)) :
    Spares id t t' := by
  unfold close at h
  split at h
  · obtain rfl := congrArg Prod.fst h
    exact .refl id t
  · rename_i o ho
    -- the order is gone before its amount is taken from the total
    have hothers : ∀ id', id' ≠ id →
        Sorted.get? compare id' (Sorted.erase compare id t.orders) = t.order? id' :=
      fun id' hne => Sorted.get?_erase_of_ne
        (fun heq => hne (Std.LawfulEqCmp.eq_of_compare heq)) t.orders
    have hknown : t.order? id = none → t' = t := fun hn => absurd (hn.symm.trans ho) (by simp)
    simp only at h
    split at h
    · rename_i t₁ hw
      obtain rfl := congrArg Prod.fst h
      refine ⟨fun id' hne => ?_, fun o' ho' => ?_, hknown⟩
      · rw [order?, orders_withdraw hw]
        exact hothers id' hne
      · obtain rfl := Option.some.inj (ho.symm.trans ho')
        exact (agreesOff_setOrders t _).trans (agreesOff_withdraw hw)
    · obtain rfl := congrArg Prod.fst h
      refine ⟨hothers, fun o' _ side p _ => ?_, hknown⟩
      exact agreesOff_setOrders t _ side p fun _ hq => absurd hq List.not_mem_nil

/-- A change of size that fails spares the others. -/
theorem spares_resize {amount : Decimal} (ho : t.order? id = some o)
    (h : t.resize id o amount = (t', .error err)) : Spares id t t' := by
  unfold resize at h
  split at h
  · split at h
    · obtain rfl := congrArg Prod.fst h
      exact .refl id t
    · rename_i t₁ hw
      split at h
      · obtain rfl := congrArg Prod.fst h
        refine ⟨fun id' _ => congrArg (Sorted.get? compare id') (orders_withdraw hw),
          fun o' ho' => ?_, fun hn => absurd (hn.symm.trans ho) (by simp)⟩
        obtain rfl := Option.some.inj (ho.symm.trans ho')
        exact agreesOff_withdraw hw
      · cases h
  · exact spares_close h

/-- An order that cannot come to rest leaves nothing. -/
theorem rest_error (h : t.rest id o = (t', .error err)) : t' = t := by
  unfold rest at h
  split at h
  · split at h
    · cases h
    · exact (congrArg Prod.fst h).symm
  · cases h

/-- The order that was to be replaced may be gone. -/
theorem spares_replace (h : t.replace id o = (t', .error err)) : Spares id t t' := by
  unfold replace at h
  split at h
  · rename_i t₁ _ hclose
    obtain rfl := congrArg Prod.fst h
    exact spares_close hclose
  · rename_i t₁ touched hclose
    split at h
    · rename_i t₂ _ hrest
      obtain rfl : t₂ = t' := congrArg Prod.fst h
      exact rest_error hrest ▸ spares_close hclose
    · cases h

/-- **An event that fails spares everything but its own order.** -/
theorem spares_applyEvent (h : t.applyEvent e = (t', .error err)) : Spares e.orderId t t' := by
  unfold applyEvent at h
  split at h
  · exact spares_replace h
  · split at h
    · rename_i o ho
      exact spares_resize ho h
    · cases h
  · split at h
    · rename_i o ho
      split at h
      · exact spares_resize ho h
      · obtain rfl := congrArg Prod.fst h
        exact .refl _ t
    · cases h
  · exact spares_close h

/-- What is left of events that failed: what those before the failing one have done, apart from the
order of the failing one. -/
def Residue (t : RestingOrders) (es : List OrderEvent) (t' : RestingOrders) : Prop :=
  ∃ done failing rest t₁ touched, es = done ++ failing :: rest ∧
    t.applyEvents done = (t₁, .ok touched) ∧ (t₁.applyEvent failing).2.isOk = false ∧
    Spares failing.orderId t₁ t'

/-- **Events that fail leave what those before the failing one have done.** -/
theorem residue_of_applyEvents (h : t.applyEvents es = (t', .error err)) : t.Residue es t' := by
  induction es generalizing t with
  | nil => exact absurd (congrArg Prod.snd h) (by simp [applyEvents])
  | cons e es ih =>
    simp only [applyEvents] at h
    cases hfirst : t.applyEvent e with
    | mk t₁ r =>
      rw [hfirst] at h
      cases r with
      | error e' =>
        obtain rfl : t₁ = t' := congrArg Prod.fst h
        exact ⟨[], e, es, t, [], rfl, rfl, by rw [hfirst]; rfl, spares_applyEvent hfirst⟩
      | ok touched =>
        simp only at h
        generalize hmore : t₁.applyEvents es = more at h
        obtain ⟨t₂, e' | _⟩ := more
        · obtain rfl : t₂ = t' := congrArg Prod.fst h
          obtain ⟨done, failing, rest, t₃, touched', rfl, hdone, hfail, hspares⟩ :=
            ih (hmore.trans (Prod.ext rfl (congrArg Prod.snd h)))
          refine ⟨e :: done, failing, rest, t₃, touched ++ touched', rfl, ?_, hfail, hspares⟩
          simp only [applyEvents, hfirst, hdone]
        · cases h

end RestingOrders

end BookFeed
