import BookFeed.Proofs.Orders.Residue
import BookFeed.Proofs.Synchronizer.Base

/-!
# What a failed diff leaves once the window is truncated

While the window is whole, a failed diff is undone by rebuilding from it. Once a diff has left the
window nothing can be rebuilt, and the synchronizer stays as it is until the next snapshot. The book
has not heard of the diff yet. The orders have: the events before the failing one stay, so the next
diff that touches their prices brings them into the book.

* `Handled.residue`: a diff that fails by itself in a truncated window writes orders only;
* `process_snapshot_congr`: a snapshot does not see them;
* **`failed_diff_residue`**: what a failed diff leaves after any run without a failure;
* `failed_diff_leaves_order`: an order that stays, and how it gets into the book.
-/

namespace BookFeed

namespace RestingOrders

variable {t t' : RestingOrders} {m : Message} {e : Error}

/-- The same updates were noted, whatever the orders and their totals are. -/
structure SameNotes (t t' : RestingOrders) : Prop where
  lastUpdateId : t'.lastUpdateId = t.lastUpdateId
  applied : t'.applied = t.applied

theorem sameNotes_applyEvents (t : RestingOrders) (es : List OrderEvent) :
    t.SameNotes (t.applyEvents es).1 := by
  have h := applyEvents_withNotes t.lastUpdateId t.applied es t
  exact ⟨congrArg (·.1.lastUpdateId) h, congrArg (·.1.applied) h⟩

/-- A diff that fails notes nothing, and leaves no more than its events have done. -/
theorem applyDiff_error (h : t.applyDiff m = (t', .error e)) :
    t.SameNotes t' ∧ (∀ es, m.content = .events es → t.Residue es t') ∧
      ((∀ es, m.content ≠ .events es) → t' = t) := by
  unfold applyDiff at h
  split at h
  · cases h
  · split at h
    · rename_i es hc
      have hnotes := sameNotes_applyEvents t es
      split at h
      · rename_i t₁ _ he
        obtain rfl := congrArg Prod.fst h
        rw [he] at hnotes
        refine ⟨hnotes, fun es' hc' => ?_, fun hn => absurd hc (hn es)⟩
        obtain rfl := Content.events.inj (hc.symm.trans hc')
        exact residue_of_applyEvents he
      · cases h
    · cases h
    · rename_i hc _
      obtain rfl := congrArg Prod.fst h
      exact ⟨⟨rfl, rfl⟩, fun es hes => absurd hes (hc es), fun _ => rfl⟩

/-- A snapshot reads no more than the highest update of the orders before it. -/
theorem applySnapshot_congr (h : t'.lastUpdateId = t.lastUpdateId) (m : Message) :
    t'.applySnapshot m = t.applySnapshot m := by
  rw [applySnapshot_eq, applySnapshot_eq t, h]

end RestingOrders

namespace Synchronizer

open Delivery (NoFault)

variable {s s' : Synchronizer} {m n : Message} {e : Error}

/-- `s'` is `s`, except for its orders. -/
def SameButOrders (s s' : Synchronizer) : Prop := s' = { s with ledger.orders := s'.orders }

/-- A diff that fails in a truncated window writes orders only. -/
theorem Handled.residue (h : Handled s m s' (.error e)) (hr : s.Routed m) (hk : m.kind = .diff)
    (ht : s.truncated = true) :
    ∃ orders, s' = { s with ledger.orders := orders } ∧
      s.orders.applyDiff m = (orders, .error e) := by
  generalize ho : (Except.error e : Except Error Applied) = r at h
  cases h with
  | misrouted _ hn => exact absurd hr hn
  | stale | duplicate | merged | rebuilt | noted => exact absurd ho (by simp)
  | @refused l e' _ _ ha =>
    obtain rfl := Except.error.inj ho
    have hstay : ({ s with ledger := l } : Synchronizer).restore = { s with ledger := l } :=
      if_pos ht
    unfold Ledger.applyDiff at ha
    split at ha
    · rename_i orders _ horders
      obtain ⟨rfl, he⟩ := Prod.mk.inj ha
      obtain rfl := Except.error.inj he
      exact ⟨orders, hstay, horders⟩
    · split at ha <;> exact absurd (congrArg Prod.snd ha) (by simp)
  | reverted _ _ hn => exact absurd (ht.symm.trans hn) (by decide)
  | restarted _ hk' => exact absurd (hk.symm.trans hk') (by decide)

theorem process_of_snapshot (hr : s.Routed n) (hk : n.kind = .snapshot) :
    s.process n = s.processSnapshot n := by
  unfold process
  rw [if_neg (not_or.mpr ⟨not_not.mpr hr.1, not_not.mpr hr.2⟩), hk]

/-- **A snapshot does not see what orders there were.** -/
theorem process_snapshot_congr {orders : RestingOrders} (hr : s.Routed n) (hk : n.kind = .snapshot)
    (hn : s.isBeforeSnapshot n = false) (h : orders.lastUpdateId = s.orders.lastUpdateId) :
    ({ s with ledger.orders := orders } : Synchronizer).process n = s.process n := by
  have hrestart : ({ s.ledger with orders } : Ledger).restart (some n) =
      s.ledger.restart (some n) := by
    simp only [Ledger.restart]
    rw [RestingOrders.applySnapshot_congr h]
    rfl
  have hr' : ({ s with ledger.orders := orders } : Synchronizer).Routed n := hr
  have hn' : ({ s with ledger.orders := orders } : Synchronizer).isBeforeSnapshot n = false := hn
  rw [process_of_snapshot hr hk, process_of_snapshot hr' hk]
  unfold processSnapshot rebuild
  rw [if_neg (by simp [hn']), if_neg (by simp [hn])]
  simp only
  rw [hrestart]
  rfl

/-- **A failed diff leaves what its events have done before the failing one**, once the window is
truncated. After any run without a failure the book, the window, the base, the highest update and
the diffs that are remembered stay as they were. Of the orders only those can differ, and the totals
at their prices, that the events before the failing one have touched, and the order of the failing
one. A diff that does not consist of events leaves nothing. The next snapshot does not see what was
left. -/
theorem failed_diff_residue (pair bookPair : String) (capacity : Nat) (ms : List Message)
    (m : Message) (e : Error) (hok : NoFault ((initial pair bookPair capacity).history ms))
    (ht : ((initial pair bookPair capacity).run ms).truncated = true) (hp : m.pair = pair)
    (hk : m.kind = .diff)
    (he : (((initial pair bookPair capacity).run ms).process m).2 = .error e) :
    let s := (initial pair bookPair capacity).run ms
    let s' := (s.process m).1
    SameButOrders s s' ∧ s.orders.SameNotes s'.orders ∧
      (∀ es, m.content = .events es → s.orders.Residue es s'.orders) ∧
      ((∀ es, m.content ≠ .events es) → s' = s) ∧
      ∀ n : Message, n.pair = pair → n.kind = .snapshot → s.isBeforeSnapshot n = false →
        s'.process n = s.process n := by
  intro s s'
  have hrouted : ∀ n : Message, n.pair = pair → s.Routed n := by
    intro n hn
    cases hms : ms with
    | nil =>
      -- nothing has left the window of a new synchronizer
      have : s.truncated = false := by simp only [s, hms]; rfl
      exact absurd (ht.symm.trans this) (by decide)
    | cons m₀ ms₀ =>
      have hfirst := routed_of_noFault hok (hms ▸ List.mem_cons_self)
      exact ⟨hn.trans pair_run.symm, hfirst.2⟩
  obtain ⟨orders, hs', hdiff⟩ := (he ▸ process_handled s m).residue (hrouted m hp) hk ht
  obtain ⟨hnotes, hevents, hother⟩ := RestingOrders.applyDiff_error hdiff
  have hs' : s' = { s with ledger.orders := orders } := hs'
  rw [hs']
  refine ⟨rfl, hnotes, hevents, fun hne => ?_, fun n hn hsnap hstale => ?_⟩
  · rw [hother hne]
    rfl
  · exact process_snapshot_congr (hrouted n hn) hsnap hstale hnotes.lastUpdateId

/-- A diff that opens two bid orders, E and F, of a price and an amount each. -/
def sampleOpenings (seconds : Nat) (updateId : UInt64) (e f : Decimal × Decimal) : Message :=
  ⟨.diff, .ofNat seconds, "BTC-USDT", updateId, none,
    .events [⟨.opened, "E", e.1, e.2, .bid⟩, ⟨.opened, "F", f.1, f.2, .bid⟩]⟩

/-- The window holds one diff, so that order B has left it. Order F is too much for its price. -/
theorem failed_diff_residue_overflow :
    let ms := [sampleOrders 10 1 "A" (.ofNat 100) (.ofNat 1),
      sampleOpening 20 2 "B" (.ofNat 101) (.ofNat 2),
      sampleOpening 30 3 "C" (.ofNat 102) (.ofNat 3)]
    let failing := sampleOpenings 40 4 (.ofNat 50, .ofNat 1)
      (.ofNat 100, .ofNat 79228162514264337593543950335)
    let snapshot := sampleOrders 50 5 "H" (.ofNat 100) (.ofNat 7)
    let start := initial "BTC-USDT" "BTC-USDT" 1
    let s := start.run ms
    let s' := (s.process failing).1
    NoFault (start.history ms) ∧ s.truncated = true ∧ failing.pair = "BTC-USDT" ∧
      failing.kind = .diff ∧
      (s.process failing).2 = .error
        (.orderBook "aggregate overflow adding 79228162514264337593543950335 to 1") ∧
      SameButOrders s s' ∧ s.orders.SameNotes s'.orders ∧
      (∀ es, failing.content = .events es → s.orders.Residue es s'.orders) ∧
      s'.process snapshot = s.process snapshot := by
  intro ms failing snapshot start s s'
  have hok : NoFault (start.history ms) := by decide
  have ht : s.truncated = true := by decide
  have he : (s.process failing).2 = .error
      (.orderBook "aggregate overflow adding 79228162514264337593543950335 to 1") := by
    decide +kernel
  have hstale : s.isBeforeSnapshot snapshot = false := by decide
  obtain ⟨hsame, hnotes, hevents, -, hnext⟩ :=
    failed_diff_residue "BTC-USDT" "BTC-USDT" 1 ms failing _ hok ht rfl rfl he
  exact ⟨hok, ht, rfl, rfl, he, hsame, hnotes, hevents, hnext snapshot rfl rfl hstale⟩

/-- Order E is not in the book after the diff that failed, but among the orders. When another order
comes to rest at its price, the book shows both. -/
theorem failed_diff_leaves_order :
    let ms := [sampleOrders 10 1 "A" (.ofNat 100) (.ofNat 1),
      sampleOpening 20 2 "B" (.ofNat 101) (.ofNat 2),
      sampleOpening 30 3 "C" (.ofNat 102) (.ofNat 3)]
    let failing := sampleOpenings 40 4 (.ofNat 50, .ofNat 1)
      (.ofNat 100, .ofNat 79228162514264337593543950335)
    let later := sampleOpening 50 5 "G" (.ofNat 50) (.ofNat 1)
    let start := initial "BTC-USDT" "BTC-USDT" 1
    let s := start.run ms
    let s' := (s.process failing).1
    NoFault (start.history ms) ∧ s.truncated = true ∧ failing.pair = "BTC-USDT" ∧
      failing.kind = .diff ∧
      (s.process failing).2 = .error
        (.orderBook "aggregate overflow adding 79228162514264337593543950335 to 1") ∧
      s'.orders ≠ s.orders ∧
      s.orders.order? "E" = none ∧
      s'.orders.order? "E" = some ⟨.ofNat 50, .ofNat 1, .bid⟩ ∧
      s.orders.aggregate .bid (.ofNat 50) = .zero ∧
      s'.orders.aggregate .bid (.ofNat 50) = .ofNat 1 ∧
      s'.book.amount? .bid (.ofNat 50) = none ∧
      (s'.process later).1.book.amount? .bid (.ofNat 50) = some (.ofNat 2) ∧
      (s.process later).1.book.amount? .bid (.ofNat 50) = some (.ofNat 1) := by
  decide +kernel

end Synchronizer

end BookFeed
