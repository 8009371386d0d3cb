import BookFeed.Proofs.Synchronizer.Base
import BookFeed.Proofs.Synchronizer.Replay

/-!
# A failed diff is undone

A diff can fail in the middle of its events, and a late one in the middle of a rebuild that has
replaced the book already. Nothing is rolled back: the synchronizer rebuilds from its window. While
the window is not truncated the ledger stands as the replay of the window, before the diff and after
the repair, so the repair cannot fail and leads back to where the diff came in.

* `Handled.undone`: a step that fails leaves the orders, both sides of the book, the window, the
  base and the mark as they were;
* **`failed_diff_undone`**: after any run in which no snapshot failed, only the two ids of the book
  that note applied updates can tell that there was a diff that failed.
-/

namespace BookFeed.Synchronizer

open Delivery (NoSnapshotFault)

variable {s s' : Synchronizer} {m : Message} {pair : String} {e : Error}

/-- `s'` is `s`, except for the ids of the last and of the highest update that its book has seen. -/
def SameButIds (s s' : Synchronizer) : Prop :=
  s' = { s with ledger.book :=
    { s.book with diffId := s'.book.diffId, appliedId := s'.book.appliedId } }

/-- A repair leads to the orders and levels that the window tells. -/
theorem Faithful.restore_eq (hf : s.Faithful pair) (hi : s.Inv) (ht : s.truncated = false)
    (l : Ledger) : ∃ b, ({ s with ledger := l } : Synchronizer).restore =
      { s with ledger.book := b } ∧ b.bids = s.book.bids ∧ b.asks = s.book.asks := by
  obtain ⟨l₀, hr, hs⟩ := hf ht
  rw [← newer_eq hi.ordered] at hr
  obtain ⟨⟨orders, book⟩, hl', hs'⟩ := rebuild_of_replay (s := { s with ledger := l }) hr
  obtain rfl : orders = s.ledger.orders := hs'.orders.trans hs.orders.symm
  refine ⟨book, ?_, hs'.bids.trans hs.bids.symm, hs'.asks.trans hs.asks.symm⟩
  unfold restore
  rw [if_neg (by rw [ht]; exact Bool.false_ne_true), hl']

/-- **A diff that fails while the window is whole changes nothing but fields of the book beside its
levels.** -/
theorem Handled.undone (h : Handled s m s' (.error e)) (hk : m.kind = .diff) (hi : s.Inv)
    (hf : s.Faithful pair) (ht : s.truncated = false) :
    ∃ b, s' = { s with ledger.book := b } ∧ b.bids = s.book.bids ∧ b.asks = s.book.asks := by
  generalize hr : (Except.error e : Except Error Applied) = r at h
  cases h with
  | misrouted => exact ⟨s.book, rfl, rfl, rfl⟩
  | stale | duplicate | merged | rebuilt | noted => exact absurd hr (by simp)
  | refused => exact hf.restore_eq hi ht _
  | reverted => exact hf.restore_eq hi ht _
  | restarted _ hk' => exact absurd (hk.symm.trans hk') (by decide)

/-- **A failed diff is fully undone while the window is complete.** After any run in which no
snapshot failed, if the window is not truncated, a diff that fails, by itself or by making a newer
diff of the window fail, leaves the whole synchronizer and its book exactly as they were, except for
the ids of the last and of the highest update that the book has seen. -/
theorem failed_diff_undone (pair bookPair : String) (capacity : Nat) (ms : List Message)
    (m : Message) (e : Error) (hok : NoSnapshotFault ((initial pair bookPair capacity).history ms))
    (ht : ((initial pair bookPair capacity).run ms).truncated = false) (hk : m.kind = .diff)
    (he : (((initial pair bookPair capacity).run ms).process m).2 = .error e) :
    let s := (initial pair bookPair capacity).run ms
    SameButIds s (s.process m).1 := by
  intro s
  have hi : s.Inv := inv_run ms pair bookPair capacity
  have hstep := process_handled s m
  have hbase : s.book.Shows s.lastSnapshot := run_shows hok
  have hbase' := hstep.shows hi hbase fun hs => absurd (hk.symm.trans hs) (by decide)
  have hpair := hstep.bookPair_eq hi
  have htrade := hstep.lastTrade_eq hi (by rw [hk]; decide)
  obtain ⟨b, heq, hbids, hasks⟩ := (he ▸ hstep).undone hk hi (faithful_run hok).1 ht
  rw [heq] at hpair htrade hbase' ⊢
  unfold SameButIds
  have hinit : b.initialized = s.book.initialized :=
    hbase'.initialized.trans hbase.initialized.symm
  have hid : b.snapshotId = s.book.snapshotId := hbase'.snapshotId.trans hbase.snapshotId.symm
  have hbook : b = { s.book with diffId := b.diffId, appliedId := b.appliedId } := by
    obtain ⟨bookPair', bids, asks, snapshotId, diffId, appliedId, initialized, lastTrade⟩ := b
    obtain rfl : bookPair' = s.book.pair := hpair
    obtain rfl : bids = s.book.bids := hbids
    obtain rfl : asks = s.book.asks := hasks
    obtain rfl : snapshotId = s.book.snapshotId := hid
    obtain rfl : initialized = s.book.initialized := hinit
    obtain rfl : lastTrade = s.book.lastTrade := htrade
    rfl
  exact congrArg (fun b => ({ s with ledger.book := b } : Synchronizer)) hbook

/-- A late diff that could be applied, and makes the total of the newer diff overflow. -/
theorem failed_diff_undone_late :
    let ms := [sampleOrders 10 1 "A" (.ofNat 100) (.ofNat 1),
      sampleOpening 30 3 "C" (.ofNat 100) (.ofNat 79228162514264337593543950334),
      sampleTrade 35 4 (.ofNat 100) (.ofNat 2)]
    let late := sampleOpening 20 2 "B" (.ofNat 100) (.ofNat 5)
    let start := initial "BTC-USDT" "BTC-USDT" 3
    let s := start.run ms
    NoSnapshotFault (start.history ms) ∧ s.truncated = false ∧ late.kind = .diff ∧
      (s.process late).2 = .error
        (.orderBook "aggregate overflow adding 79228162514264337593543950334 to 6") ∧
      SameButIds s (s.process late).1 := by
  intro ms late start s
  have hok : NoSnapshotFault (start.history ms) := by decide
  have ht : s.truncated = false := by decide
  have he : (s.process late).2 = .error
      (.orderBook "aggregate overflow adding 79228162514264337593543950334 to 6") := by
    decide +kernel
  exact ⟨hok, ht, rfl, he,
    failed_diff_undone "BTC-USDT" "BTC-USDT" 3 ms late _ hok ht rfl he⟩

end BookFeed.Synchronizer
