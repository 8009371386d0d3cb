import BookFeed.Orders.Resting
import BookFeed.Proofs.Book.Ladder

/-!
# Totals change where orders are touched

What happens to single orders answers the prices it has touched. `Touches` says what these answers
are worth: the totals stay in order and positive (`Sound`), also where an operation fails, and where
it succeeds every total off the touched prices is as before (`AgreesOff`). There is one lemma for
each operation on an order, up to **`applyEvents_touches`** and `addEntries_sound`.

For a diff this means that its rows, merged into a ladder with the totals before, give one with the
totals after (**`applyDiff_events`**). A snapshot of orders answers its totals as they are
(`applySnapshot_orders`).
-/

namespace BookFeed

def BookRows.side (rows : BookRows) : Side → List Row
  | .bid => rows.bids
  | .ask => rows.asks

namespace RestingOrders

/-- On each side every price stands once, in order, with a positive total. -/
structure Sound (t : RestingOrders) : Prop where
  strict : ∀ side, Ladder.Strict side (t.totals side)
  positive : ∀ side, ∀ e ∈ t.totals side, e.2.isPositive = true

/-- The totals of `t'` are those of `t`, except at the touched prices. -/
def AgreesOff (touched : List Touched) (t t' : RestingOrders) : Prop :=
  ∀ side p, (∀ q, (side, q) ∈ touched → side.order p q ≠ .eq) →
    (t'.totals side).get? side p = (t.totals side).get? side p

/-- The operation keeps the totals sound. If it succeeds it has answered the prices it touched. -/
structure Touches (t : RestingOrders) (done : RestingOrders × Except Error (List Touched)) :
    Prop where
  sound : done.1.Sound
  off : ∀ {touched : List Touched}, done.2 = .ok touched → AgreesOff touched t done.1

variable {t t' t'' : RestingOrders} {side : Side} {price amount : Decimal} {l : Ladder}
  {a b : List Touched} {e : Error}

theorem AgreesOff.refl (a : List Touched) (t : RestingOrders) : AgreesOff a t t :=
  fun _ _ _ => rfl

theorem AgreesOff.trans (h : AgreesOff a t t') (h' : AgreesOff b t' t'') :
    AgreesOff (a ++ b) t t'' := fun side p hp =>
  (h' side p fun q hq => hp q (List.mem_append_right a hq)).trans
    (h side p fun q hq => hp q (List.mem_append_left b hq))

/-! ## Orders beside the totals -/

theorem totals_setTotals (t : RestingOrders) (side side' : Side) (l : Ladder) :
    (t.setTotals side l).totals side' = if side' = side then l else t.totals side' := by
  cases side <;> cases side' <;> rfl

theorem totals_setOrders (t : RestingOrders) (orders : List (String × RestingOrder))
    (side : Side) : ({ t with orders } : RestingOrders).totals side = t.totals side := by
  cases side <;> rfl

/-- Only the totals count. -/
theorem Sound.of_totals (h : t.Sound) (he : ∀ side, t'.totals side = t.totals side) :
    t'.Sound := by
  constructor
  · intro side
    rw [he]
    exact h.strict side
  · intro side
    rw [he]
    exact h.positive side

theorem Sound.setOrders (h : t.Sound) (orders : List (String × RestingOrder)) :
    ({ t with orders } : RestingOrders).Sound :=
  h.of_totals (totals_setOrders t orders)

theorem agreesOff_setOrders (t : RestingOrders) (orders : List (String × RestingOrder)) :
    AgreesOff [] t { t with orders } := fun side p _ => by rw [totals_setOrders]

theorem Sound.setTotals (h : t.Sound) (hs : Ladder.Strict side l)
    (hp : ∀ e ∈ l, e.2.isPositive = true) : (t.setTotals side l).Sound := by
  constructor
  · intro side'
    rw [totals_setTotals]
    split
    · rename_i heq
      exact heq ▸ hs
    · exact h.strict side'
  · intro side'
    rw [totals_setTotals]
    split
    · exact hp
    · exact h.positive side'

theorem agreesOff_setTotals
    (h : ∀ p, side.order p price ≠ .eq → l.get? side p = (t.totals side).get? side p) :
    AgreesOff [(side, price)] t (t.setTotals side l) := by
  intro side' p hp
  rw [totals_setTotals]
  split
  · rename_i heq
    subst heq
    exact h p (hp price (List.mem_singleton_self _))
  · rfl

/-! ## One total -/

/-- The total at a price is not negative, whether or not there is one. -/
theorem Sound.isNonneg_get? (h : t.Sound) (side : Side) (p : Decimal) :
    (((t.totals side).get? side p).getD .zero).isNonneg = true := by
  cases hg : (t.totals side).get? side p with
  | none => rfl
  | some total =>
    obtain ⟨e, he, -, rfl⟩ := Sorted.mem_of_get? hg
    exact Decimal.isNonneg_of_isPositive (h.positive side e he)

theorem Sound.insert (h : t.Sound) (hp : amount.isPositive = true) :
    (t.setTotals side (Sorted.insert side.order price amount (t.totals side))).Sound := by
  refine h.setTotals (Sorted.strict_insert (h.strict side) _ _) fun e he => ?_
  rcases Sorted.mem_insert he with ⟨rfl, -⟩ | he
  · exact hp
  · exact h.positive side e he

theorem agreesOff_insert (t : RestingOrders) (side : Side) (price amount : Decimal) :
    AgreesOff [(side, price)] t
      (t.setTotals side (Sorted.insert side.order price amount (t.totals side))) :=
  agreesOff_setTotals fun _ hp => (Sorted.get?_insert _ _ _ _).trans (if_neg hp)

theorem deposit_ok (h : t.Sound) (hp : amount.isPositive = true)
    (hd : t.deposit side price amount = .ok t') : t'.Sound ∧ AgreesOff [(side, price)] t t' := by
  unfold deposit at hd
  split at hd
  · rename_i total hsum
    obtain rfl := Except.ok.inj hd
    unfold sum at hsum
    split at hsum
    · rename_i c hc
      obtain rfl := Except.ok.inj hsum
      have hpos := Decimal.isPositive_add? (h.isNonneg_get? side price) hp hc
      exact ⟨h.insert hpos, agreesOff_insert t side price c⟩
    · exact absurd hsum (by simp)
  · exact absurd hd (by simp)

theorem withdraw_ok (h : t.Sound) (hw : t.withdraw side price amount = .ok t') :
    t'.Sound ∧ AgreesOff [(side, price)] t t' := by
  unfold withdraw at hw
  split at hw
  · obtain rfl := Except.ok.inj hw
    exact ⟨h, .refl _ _⟩
  · split at hw
    · exact absurd hw (by simp)
    · split at hw
      · rename_i rest _ hpos
        obtain rfl := Except.ok.inj hw
        exact ⟨h.insert hpos, agreesOff_insert t side price rest⟩
      · obtain rfl := Except.ok.inj hw
        have hstrict := h.strict side
        refine ⟨h.setTotals (Sorted.strict_erase hstrict _) fun e he => ?_,
          agreesOff_setTotals fun _ hp => (Sorted.get?_erase hstrict _ _).trans (if_neg hp)⟩
        exact h.positive side e ((Sorted.erase_sublist _ _).subset he)

/-! ## One order -/

theorem Touches.unchanged (h : t.Sound) (r : Except Error (List Touched)) : Touches t (t, r) :=
  ⟨h, fun _ => .refl _ t⟩

theorem Touches.failed (h : t'.Sound) (e : Error) : Touches t (t', .error e) :=
  ⟨h, fun he => absurd he (by simp)⟩

/-- One operation after another answers what both have touched. -/
theorem Touches.andThen {done : RestingOrders × Except Error (List Touched)}
    (h : Touches t (t', .ok a)) (h' : Touches t' done) :
    Touches t (done.1, done.2.map (a ++ ·)) := by
  refine ⟨h'.sound, fun {touched} heq => ?_⟩
  cases hd : done.2 with
  | error e => exact absurd (hd ▸ heq) (by simp [Except.map])
  | ok b =>
    have heq : Except.map (a ++ ·) (.ok b) = .ok touched := hd ▸ heq
    obtain rfl := Except.ok.inj heq
    exact (h.off rfl).trans (h'.off hd)

theorem rest_touches (h : t.Sound) (id : String) (o : RestingOrder) :
    Touches t (t.rest id o) := by
  unfold rest
  split
  · rename_i hp
    split
    · rename_i t' hd
      obtain ⟨hs, hoff⟩ := deposit_ok h hp hd
      exact ⟨hs.setOrders _, fun heq => Except.ok.inj heq ▸ hoff.trans (agreesOff_setOrders t' _)⟩
    · exact .failed h _
  · exact .unchanged h _

theorem close_touches (h : t.Sound) (id : String) : Touches t (t.close id) := by
  unfold close
  split
  · exact .unchanged h _
  · simp only
    split
    · rename_i t' hw
      obtain ⟨hs, hoff⟩ := withdraw_ok (h.setOrders _) hw
      exact ⟨hs, fun heq => Except.ok.inj heq ▸ (agreesOff_setOrders t _).trans hoff⟩
    · exact .failed (h.setOrders _) _

theorem resize_touches (h : t.Sound) (id : String) (o : RestingOrder) (amount : Decimal) :
    Touches t (t.resize id o amount) := by
  unfold resize
  split
  · rename_i hp
    split
    · exact .failed h _
    · rename_i t' hw
      obtain ⟨hs, hoff⟩ := withdraw_ok h hw
      split
      · exact .failed hs _
      · rename_i t'' hd
        obtain ⟨hs', hoff'⟩ := deposit_ok hs hp hd
        refine ⟨hs'.setOrders _, fun heq side p hne => ?_⟩
        obtain rfl := Except.ok.inj heq
        -- both steps touch the one price of the order
        refine ((hoff.trans hoff').trans (agreesOff_setOrders t'' _)) side p fun q hq => hne q ?_
        simpa using hq
  · exact close_touches h id

theorem replace_touches (h : t.Sound) (id : String) (o : RestingOrder) :
    Touches t (t.replace id o) := by
  have hclose := close_touches h id
  unfold replace
  generalize t.close id = closed at hclose ⊢
  obtain ⟨t', e | a⟩ := closed
  · exact .failed hclose.sound e
  · have hrest := hclose.andThen (rest_touches hclose.sound id o)
    simp only at hrest ⊢
    generalize t'.rest id o = opened at hrest ⊢
    obtain ⟨t'', e | b⟩ := opened <;> exact hrest

theorem applyEvent_touches (h : t.Sound) (e : OrderEvent) : Touches t (t.applyEvent e) := by
  unfold applyEvent
  cases e.kind with
  | opened => exact replace_touches h _ _
  | changed =>
    simp only
    split
    · exact resize_touches h _ _ _
    · exact .unchanged h _
  | matched =>
    simp only
    split
    · split
      · exact resize_touches h _ _ _
      · exact .unchanged h _
    · exact .unchanged h _
  | done => exact close_touches h _

/-- **Events answer every price whose total they change.** -/
theorem applyEvents_touches (es : List OrderEvent) : ∀ {t : RestingOrders}, t.Sound →
    Touches t (t.applyEvents es) := by
  induction es with
  | nil => exact fun h => .unchanged h _
  | cons e es ih =>
    intro t h
    have hfirst := applyEvent_touches h e
    simp only [applyEvents]
    generalize t.applyEvent e = first at hfirst ⊢
    obtain ⟨t', e | a⟩ := first
    · exact .failed hfirst.sound e
    · have hall := hfirst.andThen (ih hfirst.sound)
      simp only at hall ⊢
      generalize t'.applyEvents es = rest at hall ⊢
      obtain ⟨t'', e | b⟩ := rest <;> exact hall

theorem addEntries_sound (es : List OrderEntry) : ∀ {t : RestingOrders}, t.Sound →
    (t.addEntries es).1.Sound := by
  induction es with
  | nil => exact fun h => h
  | cons e es ih =>
    intro t h
    have hfirst := replace_touches h e.orderId ⟨e.price, e.amount, e.side⟩
    simp only [addEntries]
    generalize t.replace e.orderId ⟨e.price, e.amount, e.side⟩ = first at hfirst ⊢
    obtain ⟨t', e | a⟩ := first
    · exact hfirst.sound
    · exact ih hfirst.sound

/-! ## The rows of a diff -/

/-- Every touched price of the side is listed, in some spelling. -/
theorem exists_mem_touchedPrices {q : Decimal} : ∀ {a : List Touched}, (side, q) ∈ a →
    ∃ q' ∈ touchedPrices side a, side.order q q' = .eq := by
  intro a
  induction a using List.reverseRecOn with
  | nil => exact fun h => absurd h List.not_mem_nil
  | append_singleton a x ih =>
    intro h
    unfold touchedPrices
    rw [List.filter_append, List.foldl_append]
    rcases List.mem_append.mp h with h | h
    · obtain ⟨q', hq', heq⟩ := ih h
      refine ⟨q', ?_, heq⟩
      by_cases hx : x.1 = side
      · rw [List.filter_cons_of_pos (by simpa using hx)]
        exact Sorted.mem_insertKey_of_mem hq'
      · rw [List.filter_cons_of_neg (by simpa using hx)]
        exact hq'
    · obtain rfl := List.mem_singleton.mp h
      rw [List.filter_cons_of_pos (by simp)]
      exact Sorted.exists_mem_insertKey q _

/-- A row with the present total leaves exactly that. -/
theorem Sound.leaves_aggregate (h : t.Sound) (side : Side) (p : Decimal) (updateId : UInt64) :
    Ladder.leaves ⟨p, t.aggregate side p, updateId⟩ = (t.totals side).get? side p := by
  unfold Ladder.leaves aggregate
  cases hg : (t.totals side).get? side p with
  | none => rfl
  | some total =>
    obtain ⟨e, he, -, rfl⟩ := Sorted.mem_of_get? hg
    exact if_pos (h.positive side e he)

/-- **The rows of touched prices carry a ladder from the old totals to the new ones.** -/
theorem get?_merge_touchedRows (hs : t'.Sound) (hoff : AgreesOff a t t') (hl : l.Strict side)
    (h : ∀ p, l.get? side p = (t.totals side).get? side p) (updateId : UInt64) (p : Decimal) :
    Ladder.get? side p ((t'.touchedRows side a updateId).foldl (Ladder.merge side) l) =
      (t'.totals side).get? side p := by
  rw [Ladder.get?_foldl_merge hl]
  cases hf : (t'.touchedRows side a updateId).reverse.find? fun row =>
      side.order p row.price == .eq with
  | some row =>
    have hmem := List.mem_reverse.mp (List.mem_of_find?_eq_some hf)
    have heq : side.order p row.price = .eq := by simpa using List.find?_some hf
    obtain ⟨q, -, rfl⟩ := List.mem_map.mp hmem
    exact (hs.leaves_aggregate side q updateId).trans (Sorted.get?_congr heq _).symm
  | none =>
    refine (h p).trans (hoff side p fun q hq heq => ?_).symm
    obtain ⟨q', hq', hqq'⟩ := exists_mem_touchedPrices hq
    have hrow := List.mem_map_of_mem (f := fun p => (⟨p, t'.aggregate side p, updateId⟩ : Row)) hq'
    have := List.find?_eq_none.mp hf _ (List.mem_reverse.mpr hrow)
    exact this (beq_iff_eq.mpr (Std.TransCmp.eq_trans heq hqq'))

/-! ## Messages -/

theorem totals_noteApplied (t : RestingOrders) (m : Message) (side : Side) :
    (t.noteApplied m).totals side = t.totals side := by
  cases side <;> rfl

/-- No orders have no totals. -/
theorem sound_of_nil (h : ∀ side, t.totals side = []) : t.Sound := by
  constructor
  · intro side
    rw [h]
    exact List.Pairwise.nil
  · intro side e he
    rw [h] at he
    exact absurd he List.not_mem_nil

/-- **A diff of events carries a ladder from the old totals to the new ones**, also where it comes
again and has no rows. -/
theorem applyDiff_events {m : Message} {es : List OrderEvent} {rows : BookRows} (hs : t.Sound)
    (hc : m.content = .events es) (ha : t.applyDiff m = (t', .ok rows)) :
    t'.Sound ∧ ∀ side (l : Ladder), l.Strict side →
      (∀ p, l.get? side p = (t.totals side).get? side p) →
      ∀ p, Ladder.get? side p ((rows.side side).foldl (Ladder.merge side) l) =
        (t'.totals side).get? side p := by
  unfold applyDiff at ha
  split at ha
  · obtain ⟨rfl, hrows⟩ := Prod.ext_iff.mp ha
    obtain rfl := Except.ok.inj hrows
    refine ⟨hs, fun side l _ h p => ?_⟩
    cases side <;> exact h p
  · rw [hc] at ha
    have htouches := applyEvents_touches es hs
    simp only at ha
    generalize t.applyEvents es = done at ha htouches
    obtain ⟨t₁, e | a⟩ := done
    · exact absurd (congrArg Prod.snd ha) (by simp)
    · obtain ⟨rfl, hrows⟩ := Prod.ext_iff.mp ha
      obtain rfl := Except.ok.inj hrows
      refine ⟨htouches.sound.of_totals (totals_noteApplied t₁ m), fun side l hl h p => ?_⟩
      rw [totals_noteApplied]
      cases side <;>
        exact get?_merge_touchedRows htouches.sound (htouches.off rfl) hl h m.updateId p

/-- **A snapshot of orders answers its totals.** -/
theorem applySnapshot_orders {m : Message} {es : List OrderEntry} {rows : BookRows}
    (hc : m.content = .orders es) (ha : t.applySnapshot m = (t', .ok rows)) :
    t'.Sound ∧ ∀ side, rows.side side = t'.allRows side m.updateId := by
  unfold applySnapshot at ha
  rw [hc] at ha
  have hs : (t.cleared.addEntries es).1.Sound :=
    addEntries_sound es (sound_of_nil fun side => by cases side <;> rfl)
  simp only at ha
  generalize t.cleared.addEntries es = done at ha hs
  obtain ⟨t₁, e | _⟩ := done
  · exact absurd (congrArg Prod.snd ha) (by simp)
  · obtain ⟨rfl, hrows⟩ := Prod.ext_iff.mp ha
    obtain rfl := Except.ok.inj hrows
    refine ⟨hs.of_totals fun side => by cases side <;> rfl, fun side => ?_⟩
    cases side <;> rfl

end RestingOrders

end BookFeed
