import BookFeed.Proofs.Orders.Totals
import BookFeed.Proofs.Synchronizer.History
import BookFeed.Proofs.Synchronizer.Keeps

/-!
# The book shows the totals of the orders

On a feed of single orders the book never hears of an order: it receives the rows of the prices that
a diff touched, or every total after a snapshot. `Ledger.Agrees` says that it shows the totals all
the same. A diff keeps this where it succeeds, and a snapshot establishes it, so rebuilds, diffs
applied out of order, evictions and redeliveries keep it as well (`Handled.keeps_ok`).

* `Ledger.agrees_applyDiff`, `Ledger.agrees_restart`: the two things that write book and orders;
* **`book_alike_totals`**: after every run without a failure, each side of the book has the prices
  and the amounts of the totals, and all amounts are positive.
-/

namespace BookFeed

/-- The message reports single orders, if it reports anything for the book. -/
def Message.isOrderLevel (m : Message) : Bool :=
  match m.kind, m.content with
  | .snapshot, .orders _ => true
  | .diff, .events _ => true
  | .trade, _ => true
  | _, _ => false

variable {m : Message}

theorem Message.content_of_isOrderLevel_diff (h : m.isOrderLevel = true) (hk : m.kind = .diff) :
    ∃ es, m.content = .events es := by
  unfold isOrderLevel at h
  rw [hk] at h
  cases hc : m.content with
  | events es => exact ⟨es, rfl⟩
  | orders | levels | trade => rw [hc] at h; exact absurd h Bool.false_ne_true

theorem Message.content_of_isOrderLevel_snapshot (h : m.isOrderLevel = true)
    (hk : m.kind = .snapshot) :
    ∃ es, m.content = .orders es := by
  unfold isOrderLevel at h
  rw [hk] at h
  cases hc : m.content with
  | orders es => exact ⟨es, rfl⟩
  | events | levels | trade => rw [hc] at h; exact absurd h Bool.false_ne_true

namespace Ledger

/-- The book shows the totals of the orders. -/
structure Agrees (l : Ledger) : Prop where
  sound : l.orders.Sound
  strict : ∀ side, (l.book.side side).Strict side
  amounts : ∀ side p, l.book.amount? side p = (l.orders.totals side).get? side p

variable {l l' : Ledger} {base : Option Message}

/-- Merging rows, also where there are none. -/
theorem applyDiff_ok (h : l.applyDiff m = (l', .ok ())) :
    ∃ rows, l.orders.applyDiff m = (l'.orders, .ok rows) ∧
      ∀ side, l'.book.side side =
        (rows.side side).foldl (Ladder.merge side) (l.book.side side) := by
  unfold applyDiff at h
  generalize l.orders.applyDiff m = done at h ⊢
  obtain ⟨orders, e | rows⟩ := done
  · exact absurd (congrArg Prod.snd h) (by simp)
  · simp only at h
    split at h
    · rename_i hnil
      obtain rfl := congrArg Prod.fst h
      refine ⟨rows, rfl, fun side => ?_⟩
      rw [List.isEmpty_iff, List.isEmpty_iff] at hnil
      cases side
      · rw [BookRows.side, hnil.1]
        rfl
      · rw [BookRows.side, hnil.2]
        rfl
    · obtain rfl := congrArg Prod.fst h
      exact ⟨rows, rfl, fun side => by cases side <;> rfl⟩

/-- **A diff of events that succeeds keeps the agreement.** -/
theorem agrees_applyDiff (h : l.Agrees) {es : List OrderEvent} (hc : m.content = .events es)
    (ha : l.applyDiff m = (l', .ok ())) : l'.Agrees := by
  obtain ⟨rows, horders, hbook⟩ := applyDiff_ok ha
  obtain ⟨hs, hmerge⟩ := RestingOrders.applyDiff_events h.sound hc horders
  refine ⟨hs, fun side => ?_, fun side p => ?_⟩
  · rw [hbook]
    exact Ladder.strict_foldl_merge (h.strict side) _
  · rw [Book.amount?, hbook]
    exact hmerge side _ (h.strict side) (h.amounts side) p

/-- **Starting over establishes the agreement**, from a snapshot of orders or from nothing. -/
theorem agrees_restart (hc : ∀ b ∈ base, ∃ es, b.content = .orders es)
    (ha : l.restart base = (l', .ok ())) : l'.Agrees := by
  unfold restart at ha
  cases base with
  | none =>
    obtain rfl := congrArg Prod.fst ha
    refine ⟨RestingOrders.sound_of_nil fun side => by cases side <;> rfl, fun side => ?_,
      fun side p => by cases side <;> rfl⟩
    cases side <;> exact List.Pairwise.nil
  | some b =>
    obtain ⟨es, hes⟩ := hc b rfl
    simp only at ha
    cases hb : l.orders.applySnapshot b with
    | mk orders r =>
      rw [hb] at ha
      cases r with
      | error e => exact absurd (congrArg Prod.snd ha) (by simp)
      | ok rows =>
        obtain ⟨hs, hrows⟩ := RestingOrders.applySnapshot_orders hes hb
        obtain rfl := congrArg Prod.fst ha
        -- the rows are the totals, and filled in they give the totals again
        have hbook : ∀ side, (l.book.applySnapshot rows.bids rows.asks b.updateId).side side =
            orders.totals side := fun side =>
          calc _ = (rows.side side).foldl (Ladder.fill side) [] := by cases side <;> rfl
            _ = (orders.allRows side b.updateId).foldl (Ladder.fill side) [] := by rw [hrows]
            _ = orders.totals side :=
              Ladder.foldl_fill_eq (hs.strict side) (hs.positive side) b.updateId
        refine ⟨hs, fun side => ?_, fun side p => ?_⟩
        · rw [hbook]
          exact hs.strict side
        · rw [Book.amount?, hbook]

end Ledger

namespace Synchronizer

open Delivery (NoFault)

theorem agrees_run {pair bookPair : String} {capacity : Nat} {ms : List Message}
    (hlevel : ∀ m ∈ ms, m.isOrderLevel = true)
    (hok : NoFault ((initial pair bookPair capacity).history ms)) :
    ((initial pair bookPair capacity).run ms).ledger.Agrees := by
  induction ms using List.reverseRecOn with
  | nil =>
    -- a new ledger is one that has started over from nothing
    have hnew : (Ledger.mk .empty (.empty bookPair)).restart none =
        ((initial pair bookPair capacity).ledger, .ok ()) := rfl
    exact Ledger.agrees_restart (fun _ hb => absurd hb (Option.not_mem_none _)) hnew
  | append_singleton ms m ih =>
    rw [history_concat, Delivery.noFault_concat] at hok
    have hi := inv_run ms pair bookPair capacity
    have hbase := inv_run (ms ++ [m]) pair bookPair capacity
    have hstep := process_handled ((initial pair bookPair capacity).run ms) m
    rw [← run_concat] at hstep
    refine hstep.keeps_ok hok.2 hi (fun d hd hk l l' hl ha => ?_) (fun l l' ha => ?_)
      (fun _ l t hl => ?_) (ih (fun d hd => hlevel d (List.mem_append_left _ hd)) hok.1)
    · have hdm : d ∈ ms ++ [m] := by
        rcases mem_grown.mp hd with rfl | hd
        · exact List.mem_concat_self
        · exact List.mem_append_left _ (mem_of_window_run hd)
      obtain ⟨es, hes⟩ := Message.content_of_isOrderLevel_diff (hlevel d hdm) hk
      exact Ledger.agrees_applyDiff hl hes ha
    · refine Ledger.agrees_restart (fun b hb => ?_) ha
      exact Message.content_of_isOrderLevel_snapshot (hlevel b (mem_of_lastSnapshot_run hb))
        (hbase.base b hb)
    · exact ⟨hl.sound, hl.strict, hl.amounts⟩

/-- **The book shows the totals of the orders.** After every run without a failure in which
snapshots list orders and diffs report events of orders, whatever the capacity of the window and the
order of arrival: each side of the book has exactly the prices that have a total, with the same
amounts, and all of them are positive. -/
theorem book_alike_totals (pair bookPair : String) (capacity : Nat) (ms : List Message)
    (hlevel : ∀ m ∈ ms, m.isOrderLevel = true)
    (hok : NoFault ((initial pair bookPair capacity).history ms)) :
    let s := (initial pair bookPair capacity).run ms
    ∀ side : Side, Sorted.Alike side.order (s.book.side side) (s.orders.totals side) ∧
      (∀ level ∈ s.book.side side, level.2.isPositive = true) ∧
      ∀ price, s.book.amount? side price = (s.orders.totals side).get? side price := by
  intro s side
  have h : s.ledger.Agrees := agrees_run hlevel hok
  refine ⟨Sorted.alike_of_get?_eq (h.strict side) (h.sound.strict side) (h.amounts side),
    fun level hl => ?_, h.amounts side⟩
  have hfound := Sorted.get?_of_mem (h.strict side) hl Std.ReflCmp.compare_self
  obtain ⟨total, ht, -, heq⟩ := Sorted.mem_of_get? ((h.amounts side level.1).symm.trans hfound)
  exact heq ▸ h.sound.positive side total ht

/-- The window holds one diff: order B has left it when order C comes late, and comes again. -/
theorem book_alike_totals_evicted :
    let ms := [sampleOrders 10 1 "A" (.ofNat 100) (.ofNat 1),
      sampleOpening 20 2 "B" (.ofNat 100) (.ofNat 2),
      sampleOpening 40 4 "D" (.ofNat 102) (.ofNat 4),
      sampleOpening 30 3 "C" (.ofNat 101) (.ofNat 3), sampleTrade 45 5 (.ofNat 100) (.ofNat 1),
      sampleOpening 20 2 "B" (.ofNat 100) (.ofNat 2)]
    let s := (initial "BTC-USDT" "BTC-USDT" 1).run ms
    (∀ m ∈ ms, m.isOrderLevel = true) ∧
      NoFault ((initial "BTC-USDT" "BTC-USDT" 1).history ms) ∧ s.truncated = true ∧
      s.orders.bids = [(.ofNat 102, .ofNat 4), (.ofNat 101, .ofNat 3), (.ofNat 100, .ofNat 3)] ∧
      ∀ side : Side, Sorted.Alike side.order (s.book.side side) (s.orders.totals side) ∧
        (∀ level ∈ s.book.side side, level.2.isPositive = true) ∧
        ∀ price, s.book.amount? side price = (s.orders.totals side).get? side price := by
  intro ms s
  have hlevel : ∀ m ∈ ms, m.isOrderLevel = true := by decide
  have hok : NoFault ((initial "BTC-USDT" "BTC-USDT" 1).history ms) := by decide
  exact ⟨hlevel, hok, by decide, by decide,
    book_alike_totals "BTC-USDT" "BTC-USDT" 1 ms hlevel hok⟩

end Synchronizer

end BookFeed
