import BookFeed.Orders.Resting

/-!
# A snapshot says all there is

Resting orders carry notes beside the orders and their totals: the highest update and the diffs
that are remembered. What happens to single orders neither reads nor writes these notes
(`applyEvents_withNotes`, `addEntries_withNotes`). A snapshot clears everything else, so where it
succeeds, the state it leaves and the rows it answers are the same from every state before
(`applySnapshot_ok_iff`).
-/

namespace BookFeed.RestingOrders

/-- The same orders and totals under other notes. -/
def withNotes (t : RestingOrders) (last : Option UInt64) (applied : List DiffKey) :
    RestingOrders :=
  { t with lastUpdateId := last, applied }

variable (t : RestingOrders) (u : Option UInt64) (ks : List DiffKey)

theorem setTotals_withNotes (side : Side) (l : Ladder) :
    (t.withNotes u ks).setTotals side l = (t.setTotals side l).withNotes u ks := by
  cases side <;> rfl

theorem totals_withNotes (side : Side) : (t.withNotes u ks).totals side = t.totals side := by
  cases side <;> rfl

theorem deposit_withNotes (side : Side) (price amount : Decimal) :
    (t.withNotes u ks).deposit side price amount =
      (t.deposit side price amount).map (·.withNotes u ks) := by
  unfold deposit
  rw [totals_withNotes]
  cases sum (((t.totals side).get? side price).getD .zero) amount with
  | error e => rfl
  | ok total => simp only [Except.map, setTotals_withNotes]

theorem withdraw_withNotes (side : Side) (price amount : Decimal) :
    (t.withNotes u ks).withdraw side price amount =
      (t.withdraw side price amount).map (·.withNotes u ks) := by
  unfold withdraw
  rw [totals_withNotes]
  cases (t.totals side).get? side price with
  | none => rfl
  | some total =>
    simp only
    cases difference total amount with
    | error e => rfl
    | ok rest =>
      simp only [setTotals_withNotes]
      split <;> simp only [Except.map, *]

theorem rest_withNotes (id : String) (o : RestingOrder) :
    (t.withNotes u ks).rest id o = ((t.rest id o).1.withNotes u ks, (t.rest id o).2) := by
  unfold rest
  split
  · rw [deposit_withNotes]
    cases t.deposit o.side o.price o.amount <;> rfl
  · rfl

theorem close_withNotes (id : String) :
    (t.withNotes u ks).close id = ((t.close id).1.withNotes u ks, (t.close id).2) := by
  unfold close
  rw [show (t.withNotes u ks).order? id = t.order? id from rfl]
  cases t.order? id with
  | none => rfl
  | some o =>
    have h := withdraw_withNotes { t with orders := Sorted.erase compare id t.orders } u ks
      o.side o.price o.amount
    simp only [withNotes] at h ⊢
    rw [h]
    cases ({ t with orders := Sorted.erase compare id t.orders } : RestingOrders).withdraw
      o.side o.price o.amount <;> rfl

theorem resize_withNotes (id : String) (o : RestingOrder) (amount : Decimal) :
    (t.withNotes u ks).resize id o amount =
      ((t.resize id o amount).1.withNotes u ks, (t.resize id o amount).2) := by
  unfold resize
  split
  · rw [withdraw_withNotes]
    cases t.withdraw o.side o.price o.amount with
    | error e => rfl
    | ok t' =>
      simp only [Except.map]
      rw [deposit_withNotes]
      cases t'.deposit o.side o.price amount <;> rfl
  · exact close_withNotes t u ks id

theorem replace_withNotes (id : String) (o : RestingOrder) :
    (t.withNotes u ks).replace id o = ((t.replace id o).1.withNotes u ks, (t.replace id o).2) := by
  unfold replace
  rw [close_withNotes]
  obtain ⟨t', closed⟩ := t.close id
  cases closed with
  | error e => rfl
  | ok closed =>
    simp only
    rw [rest_withNotes]
    obtain ⟨t'', opened⟩ := t'.rest id o
    cases opened <;> rfl

theorem applyEvent_withNotes (e : OrderEvent) :
    (t.withNotes u ks).applyEvent e = ((t.applyEvent e).1.withNotes u ks, (t.applyEvent e).2) := by
  unfold applyEvent
  rw [show (t.withNotes u ks).order? e.orderId = t.order? e.orderId from rfl]
  cases e.kind with
  | opened => exact replace_withNotes t u ks _ _
  | changed =>
    cases t.order? e.orderId with
    | none => rfl
    | some o => exact resize_withNotes t u ks _ _ _
  | matched =>
    cases t.order? e.orderId with
    | none => rfl
    | some o =>
      simp only
      cases difference o.amount e.amount with
      | error _ => rfl
      | ok remaining => exact resize_withNotes t u ks _ _ _
  | done => exact close_withNotes t u ks _

theorem applyEvents_withNotes (es : List OrderEvent) : ∀ t : RestingOrders,
    (t.withNotes u ks).applyEvents es =
      ((t.applyEvents es).1.withNotes u ks, (t.applyEvents es).2) := by
  induction es with
  | nil => exact fun _ => rfl
  | cons e es ih =>
    intro t
    simp only [applyEvents]
    rw [applyEvent_withNotes]
    obtain ⟨t', touched⟩ := t.applyEvent e
    cases touched with
    | error e => rfl
    | ok touched =>
      simp only
      rw [ih t']
      obtain ⟨t'', more⟩ := t'.applyEvents es
      cases more <;> rfl

theorem addEntries_withNotes (es : List OrderEntry) : ∀ t : RestingOrders,
    (t.withNotes u ks).addEntries es =
      ((t.addEntries es).1.withNotes u ks, (t.addEntries es).2) := by
  induction es with
  | nil => exact fun _ => rfl
  | cons e es ih =>
    intro t
    simp only [addEntries]
    rw [replace_withNotes]
    obtain ⟨t', touched⟩ := t.replace e.orderId ⟨e.price, e.amount, e.side⟩
    cases touched with
    | error e => rfl
    | ok touched => exact ih t'

/-- Events leave the remembered diffs alone. -/
theorem applied_applyEvents (es : List OrderEvent) : (t.applyEvents es).1.applied = t.applied := by
  have h := congrArg (·.1.applied) (applyEvents_withNotes t.lastUpdateId t.applied es t)
  exact h

/-- Of cleared orders only the highest update is left. -/
theorem cleared_eq : t.cleared = empty.withNotes t.lastUpdateId [] := rfl

/-- A snapshot does to any orders what it does to none, but a failure leaves their highest
update. -/
theorem applySnapshot_eq (m : Message) : t.applySnapshot m =
    match empty.applySnapshot m with
    | (r, .ok rows) => (r, .ok rows)
    | (r, .error e) => (r.withNotes t.lastUpdateId [], .error e) := by
  unfold applySnapshot
  cases m.content with
  | orders entries =>
    simp only [cleared_eq, addEntries_withNotes]
    obtain ⟨added, _ | _⟩ := empty.addEntries entries <;> rfl
  | levels bids asks => rfl
  | events es => rfl
  | trade t => rfl

/-- A snapshot makes all diffs forgotten. -/
theorem applied_applySnapshot (m : Message) : (t.applySnapshot m).1.applied = [] := by
  unfold applySnapshot
  cases m.content with
  | orders entries =>
    simp only [cleared_eq, addEntries_withNotes]
    obtain ⟨added, _ | _⟩ := empty.addEntries entries <;> rfl
  | levels bids asks => rfl
  | events es => rfl
  | trade t => rfl

variable {t}

theorem applySnapshot_ok {t t' r : RestingOrders} {m : Message} {rows : BookRows}
    (h : t.applySnapshot m = (r, .ok rows)) : t'.applySnapshot m = (r, .ok rows) := by
  rw [applySnapshot_eq] at h ⊢
  generalize empty.applySnapshot m = done at h ⊢
  obtain ⟨r', _ | _⟩ := done
  · exact absurd (congrArg Prod.snd h) (by simp)
  · exact h

/-- Where a snapshot has failed, it fails again and changes nothing more. -/
theorem applySnapshot_again {t t' : RestingOrders} {m : Message} {e : Error}
    (h : t.applySnapshot m = (t', .error e)) : t'.applySnapshot m = (t', .error e) := by
  rw [applySnapshot_eq] at h ⊢
  generalize empty.applySnapshot m = done at h ⊢
  obtain ⟨r, _ | _⟩ := done
  · obtain ⟨rfl, he⟩ := Prod.mk.inj h
    exact congrArg _ he
  · exact absurd (congrArg Prod.snd h) (by simp)

/-- **A snapshot is read from the message alone.** Where it succeeds, the state before does not
count. -/
theorem applySnapshot_ok_iff {t t' r : RestingOrders} {m : Message} {rows : BookRows} :
    t.applySnapshot m = (r, .ok rows) ↔ t'.applySnapshot m = (r, .ok rows) :=
  ⟨applySnapshot_ok, applySnapshot_ok⟩

/-- A diff is remembered, unless it is already or cannot be applied. -/
theorem applied_applyDiff (t : RestingOrders) (m : Message) :
    (t.applyDiff m).1.applied = (t.noteApplied m).applied ∨
      (t.applyDiff m).1.applied = t.applied ∧
        (keyOf m ∈ t.applied ∨ ∃ e, (t.applyDiff m).2 = .error e) := by
  have hnote : ∀ t' : RestingOrders, t'.applied = t.applied →
      (t'.noteApplied m).applied = (t.noteApplied m).applied := by
    intro t' ht'
    simp only [noteApplied, remember, ht']
  unfold applyDiff
  split
  · rename_i hmem
    exact .inr ⟨rfl, .inl (List.contains_iff_mem.mp hmem)⟩
  · split
    · rename_i es _
      have happ := applied_applyEvents t es
      generalize t.applyEvents es = events at happ
      obtain ⟨t', e | touched⟩ := events
      · exact .inr ⟨happ, .inr ⟨e, rfl⟩⟩
      · exact .inl (hnote t' happ)
    · exact .inl rfl
    · exact .inr ⟨rfl, .inr ⟨_, rfl⟩⟩

/-- A diff adds its own key to those remembered, at most. -/
theorem mem_applied_applyDiff {m : Message} {k : DiffKey} (h : k ∈ (t.applyDiff m).1.applied) :
    k ∈ t.applied ∨ k = keyOf m := by
  rcases applied_applyDiff t m with heq | ⟨heq, -⟩
  · rw [heq] at h
    simp only [noteApplied, remember, List.mem_append, List.mem_singleton] at h
    refine h.imp_left fun hk => ?_
    split at hk
    · exact List.mem_of_mem_drop hk
    · exact hk
  · exact .inl (heq ▸ h)

end BookFeed.RestingOrders
