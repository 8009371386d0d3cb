import BookFeed.Proofs.Message.Made
import BookFeed.Proofs.Synchronizer.Duplicates

/-!
# What can fail

Orders and books check the content of what they apply once more. The messages there are have passed
that check, and so have those that a synchronizer keeps, so two failures are left: a message that is
for another pair, and a total too large for a decimal (`Error.IsOverflow`).

A total is counted for single orders only. `Error.OverflowAmong` therefore keeps, next to an
overflow, that one of the messages tells of orders (`Message.listsOrders`): it may be another one
than the message that fails, which may only have made a rebuild apply it again.

* `overflowAmong_of_process`: what an error of a step is, over messages that are well-formed;
* **`process_of_made`**: the same at every point of a run over messages as they are made. Trades do
  not fail, and where no message tells of orders nothing does.
-/

namespace BookFeed

/-- Adding or subtracting two decimals fails like this. -/
def Error.IsOverflow (e : Error) : Prop :=
  ∃ a b, RestingOrders.sum a b = .error e ∨ RestingOrders.difference a b = .error e

/-- The message tells of single orders. -/
def Message.listsOrders (m : Message) : Bool :=
  match m.content with
  | .orders _ | .events _ => true
  | .levels _ _ | .trade _ => false

/-- A total has become too large, and some of the messages tell of orders. -/
structure Error.OverflowAmong (ms : List Message) (e : Error) : Prop where
  overflow : e.IsOverflow
  cause : ∃ m ∈ ms, m.listsOrders = true

variable {e : Error} {m : Message} {ms : List Message}

theorem Error.IsOverflow.exists_orderBook (h : e.IsOverflow) : ∃ detail, e = .orderBook detail := by
  obtain ⟨a, b, h | h⟩ := h
  · unfold RestingOrders.sum at h
    split at h
    · exact absurd h (by simp)
    · exact ⟨_, (Except.error.inj h).symm⟩
  · unfold RestingOrders.difference at h
    split at h
    · exact absurd h (by simp)
    · exact ⟨_, (Except.error.inj h).symm⟩

/-! ## Orders -/

namespace RestingOrders

variable {t : RestingOrders} {side : Side} {price amount : Decimal} {id : String}
  {o : RestingOrder}

theorem isOverflow_of_deposit (h : t.deposit side price amount = .error e) : e.IsOverflow := by
  unfold deposit at h
  split at h
  · exact absurd h (by simp)
  · rename_i hsum
    obtain rfl := Except.error.inj h
    exact ⟨_, _, .inl hsum⟩

theorem isOverflow_of_withdraw (h : t.withdraw side price amount = .error e) : e.IsOverflow := by
  unfold withdraw at h
  split at h
  · exact absurd h (by simp)
  · split at h
    · rename_i hdifference
      obtain rfl := Except.error.inj h
      exact ⟨_, _, .inr hdifference⟩
    · split at h <;> exact absurd h (by simp)

theorem isOverflow_of_rest (h : (t.rest id o).2 = .error e) : e.IsOverflow := by
  unfold rest at h
  split at h
  · split at h
    · exact absurd h (by simp)
    · rename_i hdeposit
      obtain rfl := Except.error.inj h
      exact isOverflow_of_deposit hdeposit
  · exact absurd h (by simp)

theorem isOverflow_of_close (h : (t.close id).2 = .error e) : e.IsOverflow := by
  unfold close at h
  split at h
  · exact absurd h (by simp)
  · simp only at h
    split at h
    · exact absurd h (by simp)
    · rename_i hwithdraw
      obtain rfl := Except.error.inj h
      exact isOverflow_of_withdraw hwithdraw

theorem isOverflow_of_resize (h : (t.resize id o amount).2 = .error e) : e.IsOverflow := by
  unfold resize at h
  split at h
  · split at h
    · rename_i hwithdraw
      obtain rfl := Except.error.inj h
      exact isOverflow_of_withdraw hwithdraw
    · split at h
      · rename_i hdeposit
        obtain rfl := Except.error.inj h
        exact isOverflow_of_deposit hdeposit
      · exact absurd h (by simp)
  · exact isOverflow_of_close h

theorem isOverflow_of_replace (h : (t.replace id o).2 = .error e) : e.IsOverflow := by
  unfold replace at h
  split at h
  · rename_i hclose
    obtain rfl := Except.error.inj h
    exact isOverflow_of_close (congrArg Prod.snd hclose)
  · split at h
    · rename_i hrest
      obtain rfl := Except.error.inj h
      exact isOverflow_of_rest (congrArg Prod.snd hrest)
    · exact absurd h (by simp)

theorem isOverflow_of_applyEvent {event : OrderEvent}
    (h : (t.applyEvent event).2 = .error e) : e.IsOverflow := by
  unfold applyEvent at h
  split at h
  · exact isOverflow_of_replace h
  · split at h
    · exact isOverflow_of_resize h
    · exact absurd h (by simp)
  · split at h
    · split at h
      · exact isOverflow_of_resize h
      · rename_i hdifference
        obtain rfl := Except.error.inj h
        exact ⟨_, _, .inr hdifference⟩
    · exact absurd h (by simp)
  · exact isOverflow_of_close h

theorem isOverflow_of_applyEvents {events : List OrderEvent}
    (h : (t.applyEvents events).2 = .error e) : e.IsOverflow := by
  induction events generalizing t with
  | nil => exact absurd h (by simp [applyEvents])
  | cons event events ih =>
    simp only [applyEvents] at h
    split at h
    · rename_i hevent
      obtain rfl := Except.error.inj h
      exact isOverflow_of_applyEvent (congrArg Prod.snd hevent)
    · split at h
      · rename_i hrest
        obtain rfl := Except.error.inj h
        exact ih (congrArg Prod.snd hrest)
      · exact absurd h (by simp)

theorem isOverflow_of_addEntries {entries : List OrderEntry}
    (h : (t.addEntries entries).2 = .error e) : e.IsOverflow := by
  induction entries generalizing t with
  | nil => exact absurd h (by simp [addEntries])
  | cons entry entries ih =>
    simp only [addEntries] at h
    split at h
    · rename_i hreplace
      obtain rfl := Except.error.inj h
      exact isOverflow_of_replace (congrArg Prod.snd hreplace)
    · exact ih h

/-- A well-formed snapshot fails on an overflow only, and only if it lists orders. -/
theorem isOverflow_of_applySnapshot (hm : m.WellFormed) (hk : m.kind = .snapshot)
    (h : (t.applySnapshot m).2 = .error e) : e.IsOverflow ∧ m.listsOrders = true := by
  have hadmits := hm.content_ok
  rw [hk] at hadmits
  unfold applySnapshot at h
  unfold Message.listsOrders
  cases hc : m.content with
  | orders entries =>
    simp only [hc] at h
    split at h
    · rename_i hadd
      obtain rfl := Except.error.inj h
      exact ⟨isOverflow_of_addEntries (congrArg Prod.snd hadd), rfl⟩
    · exact absurd h (by simp)
  | levels bids asks =>
    simp only [hc] at h
    exact absurd h (by simp)
  | events | trade =>
    rw [hc] at hadmits
    exact absurd hadmits Bool.false_ne_true

/-- A well-formed diff fails on an overflow only, and only if it tells of orders. -/
theorem isOverflow_of_applyDiff (hm : m.WellFormed) (hk : m.kind = .diff)
    (h : (t.applyDiff m).2 = .error e) : e.IsOverflow ∧ m.listsOrders = true := by
  have hadmits := hm.content_ok
  rw [hk] at hadmits
  unfold applyDiff at h
  split at h
  · exact absurd h (by simp)
  · unfold Message.listsOrders
    cases hc : m.content with
    | events events =>
      simp only [hc] at h
      split at h
      · rename_i hevents
        obtain rfl := Except.error.inj h
        exact ⟨isOverflow_of_applyEvents (congrArg Prod.snd hevents), rfl⟩
      · exact absurd h (by simp)
    | levels bids asks =>
      simp only [hc] at h
      exact absurd h (by simp)
    | orders | trade =>
      rw [hc] at hadmits
      exact absurd hadmits Bool.false_ne_true

end RestingOrders

/-! ## Orders and book together -/

namespace Ledger

variable {l : Ledger} {ds : List Message} {base : Option Message}

theorem overflowAmong_of_applyDiff (hm : m.WellFormed) (hk : m.kind = .diff) (hmem : m ∈ ms)
    (h : (l.applyDiff m).2 = .error e) : e.OverflowAmong ms := by
  unfold applyDiff at h
  split at h
  · rename_i horders
    obtain rfl := Except.error.inj h
    obtain ⟨hoverflow, hlists⟩ :=
      RestingOrders.isOverflow_of_applyDiff hm hk (congrArg Prod.snd horders)
    exact ⟨hoverflow, m, hmem, hlists⟩
  · split at h <;> exact absurd h (by simp)

theorem overflowAmong_of_applyDiffs (hms : ∀ m ∈ ms, m.WellFormed)
    (hds : ∀ d ∈ ds, d ∈ ms ∧ d.kind = .diff) (h : (l.applyDiffs ds).2 = .error e) :
    e.OverflowAmong ms := by
  induction ds generalizing l with
  | nil => exact absurd h (by simp [applyDiffs])
  | cons d ds ih =>
    obtain ⟨hmem, hk⟩ := hds d List.mem_cons_self
    simp only [applyDiffs] at h
    split at h
    · rename_i hd
      obtain rfl := Except.error.inj h
      exact overflowAmong_of_applyDiff (hms d hmem) hk hmem (congrArg Prod.snd hd)
    · exact ih (fun d hd => hds d (List.mem_cons_of_mem _ hd)) h

theorem overflowAmong_of_restart (hms : ∀ m ∈ ms, m.WellFormed)
    (hbase : ∀ b ∈ base, b ∈ ms ∧ b.kind = .snapshot)
    (h : (l.restart base).2 = .error e) : e.OverflowAmong ms := by
  cases base with
  | none => exact absurd h (by simp [restart])
  | some snapshot =>
    obtain ⟨hmem, hk⟩ := hbase snapshot rfl
    simp only [restart] at h
    split at h
    · rename_i horders
      obtain rfl := Except.error.inj h
      obtain ⟨hoverflow, hlists⟩ :=
        RestingOrders.isOverflow_of_applySnapshot (hms snapshot hmem) hk
          (congrArg Prod.snd horders)
      exact ⟨hoverflow, snapshot, hmem, hlists⟩
    · exact absurd h (by simp)

end Ledger

/-! ## Synchronizers -/

namespace Synchronizer

variable {s s' : Synchronizer} {outcome : Except Error Applied}

/-- What a rebuild draws on is among the messages. -/
structure DrawsOn (ms : List Message) (s : Synchronizer) : Prop where
  window : ∀ d ∈ s.window, d ∈ ms
  base : ∀ b ∈ s.lastSnapshot, b ∈ ms

theorem Handled.drawsOn (h : Handled s m s' outcome) (hmem : m ∈ ms) (hd : s.DrawsOn ms) :
    s'.DrawsOn ms where
  window d hmem' := by
    rcases h.mem_window hmem' with rfl | hmem'
    · exact hmem
    · exact hd.window d hmem'
  base b hb := by
    rcases h.mem_lastSnapshot hb with rfl | hb
    · exact hmem
    · exact hd.base b hb

theorem run_drawsOn (pair : String) (capacity : Nat) (book : Book) {all : List Message}
    (hms : ∀ m ∈ ms, m ∈ all) :
    let s := (new pair capacity book).run ms
    s.Inv ∧ s.DrawsOn all ∧ s.pair = pair ∧ s.book.pair = book.pair := by
  refine run_keeps (P := fun s : Synchronizer => s.Inv ∧ s.DrawsOn all ∧ s.pair = pair ∧
    s.book.pair = book.pair) (fun s m hm ⟨hi, hd, hpair, hbook⟩ => ?_)
    ⟨inv_new pair capacity book, ⟨fun _ hd => absurd hd List.not_mem_nil,
      fun _ hb => absurd hb (by simp [new])⟩, rfl, rfl⟩
  have h := process_handled s m
  exact ⟨h.inv hi, h.drawsOn (hms m hm) hd, h.pair_eq.trans hpair, (h.bookPair_eq hi).trans hbook⟩

theorem overflowAmong_of_rebuild (hms : ∀ m ∈ ms, m.WellFormed) (hi : s.Inv) (hd : s.DrawsOn ms)
    (h : s.rebuild.2 = .error e) : e.OverflowAmong ms := by
  unfold rebuild at h
  split at h
  · rename_i hstart
    obtain rfl := Except.error.inj h
    exact Ledger.overflowAmong_of_restart hms (fun b hb => ⟨hd.base b hb, hi.base b hb⟩)
      (congrArg Prod.snd hstart)
  · split at h
    · rename_i hdiffs
      obtain rfl := Except.error.inj h
      refine Ledger.overflowAmong_of_applyDiffs hms (fun d hmem => ?_) (congrArg Prod.snd hdiffs)
      have hmem := mem_window_of_newer hmem
      exact ⟨hd.window d hmem, hi.diffs d hmem⟩
    · exact absurd h (by simp)

/-- **A step fails on an overflow only**, where its message is for this pair and it is, as those
that are kept, one of messages that are well-formed. -/
theorem overflowAmong_of_process (hms : ∀ m ∈ ms, m.WellFormed) (hi : s.Inv) (hd : s.DrawsOn ms)
    (hmem : m ∈ ms) (hr : s.Routed m) (h : (s.process m).2 = .error e) : e.OverflowAmong ms := by
  have hs := process_handled s m
  rw [h] at hs
  generalize (s.process m).1 = s' at hs
  generalize ho : (Except.error e : Except Error Applied) = outcome at hs
  cases hs with
  | misrouted _ hn => exact absurd hr hn
  | stale | duplicate | merged | rebuilt | noted => exact absurd ho (by simp)
  | refused hf _ ha =>
    obtain rfl := Except.error.inj ho
    exact Ledger.overflowAmong_of_applyDiff (hms m hmem) hf.kind hmem (congrArg Prod.snd ha)
  | reverted hf _ _ ha =>
    obtain rfl := Except.error.inj ho
    refine overflowAmong_of_rebuild hms (inv_grown hi hf.kind s.ledger)
      ⟨fun d hgrown => ?_, hd.base⟩ (congrArg Prod.snd ha)
    rcases mem_grown.mp hgrown with rfl | hold
    · exact hmem
    · exact hd.window d hold
  | @restarted _ r _ hk _ ha =>
    cases r with
    | ok n => exact absurd ho (by simp [Except.map])
    | error e' =>
      obtain rfl : e = e' := Except.error.inj ho
      refine overflowAmong_of_rebuild
        (s := { s with lastSnapshot := some m, truncated := false }) hms
        ⟨hi.ordered, hi.diffs, fun b hb => ?_⟩ ⟨hd.window, fun b hb => ?_⟩ (congrArg Prod.snd ha)
      · exact Option.mem_some_iff.mp hb ▸ hk
      · exact Option.mem_some_iff.mp hb ▸ hmem

theorem process_of_not_routed (h : ¬ s.Routed m) :
    s.process m = (s, .error
      (.orderBook (m.pair ++ " message routed to the " ++ s.pair ++ " synchronizer"))) := by
  unfold process
  rw [if_pos (by rwa [← not_and_or])]

/-- A well-formed trade is recorded. -/
theorem process_of_trade_wellFormed (hm : m.WellFormed) (hr : s.Routed m) (hk : m.kind = .trade) :
    ∃ t, m.content = .trade t ∧
      s.process m = ({ s with ledger.book := s.book.applyTrade t }, .ok .trade) := by
  have hadmits := hm.content_ok
  rw [hk] at hadmits
  rw [process_of_trade hr hk]
  unfold processTrade
  cases hc : m.content with
  | trade t => exact ⟨t, rfl, rfl⟩
  | orders | events | levels =>
    rw [hc] at hadmits
    exact absurd hadmits Bool.false_ne_true

end Synchronizer

end BookFeed
