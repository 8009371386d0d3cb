import BookFeed.Proofs.Synchronizer.Base
import BookFeed.Proofs.Synchronizer.Replay

/-!
# What a failed snapshot leaves

A diff that fails is undone. A snapshot that fails is not: it is the last snapshot and the mark is
gone before the first order is read, and by the time a newer diff fails on top of it the book has
been replaced. So what orders before it is stale from then on, although nobody has seen it in the
book.

* `Ledger.redo_again`, `rebuild_again`: what a rebuild has left, a further rebuild leaves as it is,
  also where both fail;
* `failed_alike_iff`: so a failed snapshot leaves everything as it was exactly where the same
  snapshot has failed before and left it so;
* **`failed_snapshot_stays`**: what a failed snapshot leaves after any run, and that the first one
  of a run never leaves everything as it was;
* `failed_snapshot_outdates`: a newer diff cannot be applied again, and an older one is lost.
-/

namespace BookFeed

namespace Ledger

/-- The same orders and the same levels. -/
structure Alike (l l' : Ledger) : Prop where
  orders : l.orders = l'.orders
  bids : l.book.bids = l'.book.bids
  asks : l.book.asks = l'.book.asks

variable {l l' l'' : Ledger} {base : Option Message}

theorem Alike.refl (l : Ledger) : l.Alike l := ⟨rfl, rfl, rfl⟩

theorem Alike.symm (h : l.Alike l') : l'.Alike l := ⟨h.orders.symm, h.bids.symm, h.asks.symm⟩

theorem Alike.trans (h : l.Alike l') (h' : l'.Alike l'') : l.Alike l'' :=
  ⟨h.orders.trans h'.orders, h.bids.trans h'.bids, h.asks.trans h'.asks⟩

theorem StandsAs.alike (h : l.StandsAs l') : l.Alike l' := ⟨h.orders, h.bids, h.asks⟩

/-- Of two ledgers that are alike, one has seen updates at least as high. -/
theorem Alike.standsAs (h : l.Alike l') : l.StandsAs l' ∨ l'.StandsAs l :=
  (Std.le_total (a := l'.book.appliedId) (b := l.book.appliedId)).imp
    (⟨h.orders, h.bids, h.asks, ·⟩) (⟨h.orders.symm, h.bids.symm, h.asks.symm, ·⟩)

/-- Diffs do the same to ledgers that are alike. -/
theorem Alike.applyDiffs (h : l.Alike l') (ds : List Message) :
    (l.applyDiffs ds).2 = (l'.applyDiffs ds).2 ∧
      (l.applyDiffs ds).1.Alike (l'.applyDiffs ds).1 := by
  rcases h.standsAs with h | h
  · obtain ⟨hout, hs⟩ := StandsAs.applyDiffs ds h
    exact ⟨hout, hs.alike⟩
  · obtain ⟨hout, hs⟩ := StandsAs.applyDiffs ds h
    exact ⟨hout.symm, hs.alike.symm⟩

/-- Starting over does the same to ledgers that are alike, also where it fails. -/
theorem Alike.restart (h : l.Alike l') (base : Option Message) :
    (l.restart base).2 = (l'.restart base).2 ∧
      (l.restart base).1.Alike (l'.restart base).1 := by
  unfold Ledger.restart
  cases base with
  | none => exact ⟨rfl, rfl, rfl, rfl⟩
  | some snapshot =>
    simp only
    rw [h.orders]
    obtain ⟨orders, _ | rows⟩ := l'.orders.applySnapshot snapshot
    · exact ⟨rfl, rfl, h.bids, h.asks⟩
    · exact ⟨rfl, rfl, rfl, rfl⟩

/-- Where starting over succeeds, the ledger before does not count. -/
theorem restart_alike (h : (l.restart base).2 = .ok ()) (l' : Ledger) :
    (l'.restart base).2 = .ok () ∧ (l'.restart base).1.Alike (l.restart base).1 := by
  have hok := restart_ok l' h
  refine ⟨hok, ?_⟩
  rcases Std.le_total (a := l'.book.appliedId) (b := l.book.appliedId) with hle | hle
  · exact (restart_standsAs l' h hle).alike.symm
  · exact (restart_standsAs l hok hle).alike

/-- Where starting over has failed, it fails again and changes nothing more. -/
theorem restart_again {e : Error} (h : l.restart base = (l', .error e)) :
    l'.restart base = (l', .error e) := by
  unfold restart at h ⊢
  cases base with
  | none => exact absurd (congrArg Prod.snd h) (by simp)
  | some snapshot =>
    simp only at h ⊢
    cases ha : l.orders.applySnapshot snapshot with
    | mk orders r =>
      rw [ha] at h
      cases r with
      | ok rows => exact absurd (congrArg Prod.snd h) (by simp)
      | error e' =>
        obtain ⟨rfl, he⟩ := Prod.mk.inj h
        rw [RestingOrders.applySnapshot_again ha]
        exact congrArg _ he

/-! ## Doing it over -/

/-- Starts over and applies diffs. -/
def redo (l : Ledger) (base : Option Message) (ds : List Message) : Ledger × Except Error Unit :=
  match l.restart base with
  | (l, .error e) => (l, .error e)
  | (l, .ok _) => l.applyDiffs ds

theorem redo_of_restart (ds : List Message) (h : l.restart base = (l', .ok ())) :
    l.redo base ds = l'.applyDiffs ds := by
  rw [redo, h]

theorem redo_of_failed {e : Error} (ds : List Message) (h : l.restart base = (l', .error e)) :
    l.redo base ds = (l', .error e) := by
  rw [redo, h]

/-- Ledgers that are alike go the same way. -/
theorem Alike.redo (h : l.Alike l') (base : Option Message) (ds : List Message) :
    (l.redo base ds).2 = (l'.redo base ds).2 ∧ (l.redo base ds).1.Alike (l'.redo base ds).1 := by
  obtain ⟨hout, hl⟩ := h.restart base
  unfold Ledger.redo
  generalize l.restart base = started at hout hl ⊢
  generalize l'.restart base = started' at hout hl ⊢
  obtain ⟨l₁, r⟩ := started
  obtain ⟨l₁', r'⟩ := started'
  obtain rfl : r = r' := hout
  cases r with
  | error e => exact ⟨rfl, hl⟩
  | ok _ => exact hl.applyDiffs ds

/-- **What has been done once goes the same way again**, also where it fails. -/
theorem redo_again (l : Ledger) (base : Option Message) (ds : List Message) :
    ((l.redo base ds).1.redo base ds).2 = (l.redo base ds).2 ∧
      ((l.redo base ds).1.redo base ds).1.Alike (l.redo base ds).1 := by
  cases hstart : l.restart base with
  | mk l₁ r =>
    cases r with
    | error e =>
      rw [redo_of_failed ds hstart, redo_of_failed ds (restart_again hstart)]
      exact ⟨rfl, .refl l₁⟩
    | ok _ =>
      rw [redo_of_restart ds hstart]
      obtain ⟨hok, hl⟩ := restart_alike (congrArg Prod.snd hstart) (l₁.applyDiffs ds).1
      rw [hstart] at hl
      rw [redo_of_restart ds (Prod.ext rfl hok)]
      exact hl.applyDiffs ds

end Ledger

namespace Synchronizer

open Delivery (NoSnapshotFault)

/-- The same last snapshot, mark, window, orders and levels. -/
structure Alike (s s' : Synchronizer) : Prop where
  lastSnapshot : s.lastSnapshot = s'.lastSnapshot
  truncated : s.truncated = s'.truncated
  window : s.window = s'.window
  ledger : s.ledger.Alike s'.ledger

variable {s s' s'' : Synchronizer} {m : Message} {e : Error}

theorem Alike.symm (h : s.Alike s') : s'.Alike s :=
  ⟨h.lastSnapshot.symm, h.truncated.symm, h.window.symm, h.ledger.symm⟩

theorem Alike.trans (h : s.Alike s') (h' : s'.Alike s'') : s.Alike s'' :=
  ⟨h.lastSnapshot.trans h'.lastSnapshot, h.truncated.trans h'.truncated,
    h.window.trans h'.window, h.ledger.trans h'.ledger⟩

/-! ## Rebuilding what has been rebuilt -/

/-- A rebuild starts over and applies the newer diffs. -/
theorem rebuild_eq_redo (s : Synchronizer) : s.rebuild =
    ({ s with ledger := (s.ledger.redo s.lastSnapshot s.newer).1 },
      (s.ledger.redo s.lastSnapshot s.newer).2.map fun _ => s.newer.length) := by
  unfold rebuild Ledger.redo
  obtain ⟨l, _ | _⟩ := s.ledger.restart s.lastSnapshot
  · rfl
  · simp only
    obtain ⟨l', _ | _⟩ := l.applyDiffs s.newer <;> rfl

theorem newer_congr (hb : s.lastSnapshot = s'.lastSnapshot) (hw : s.window = s'.window) :
    s.newer = s'.newer := by
  rw [newer, newer, hb, hw]

/-- A rebuild leaves states that are alike alike. -/
theorem Alike.rebuild (h : s.Alike s') : s.rebuild.1.Alike s'.rebuild.1 := by
  rw [rebuild_eq_redo, rebuild_eq_redo]
  refine ⟨h.lastSnapshot, h.truncated, h.window, ?_⟩
  rw [newer_congr h.lastSnapshot h.window, h.lastSnapshot]
  exact (h.ledger.redo _ _).2

/-- **A rebuild after a rebuild changes nothing more**, also where both fail. -/
theorem rebuild_again (s : Synchronizer) : s.rebuild.1.rebuild.1.Alike s.rebuild.1 := by
  rw [rebuild_eq_redo s, rebuild_eq_redo]
  exact ⟨rfl, rfl, rfl, (Ledger.redo_again s.ledger s.lastSnapshot s.newer).2⟩

/-! ## One failed snapshot -/

/-- The state with the snapshot as its last one, before anything has been read from it. -/
def rebased (s : Synchronizer) (m : Message) : Synchronizer :=
  { s with lastSnapshot := some m, truncated := false }

/-- A failed snapshot has tried a rebuild. -/
theorem rebuild_of_failed (hr : s.Routed m) (hk : m.kind = .snapshot)
    (he : (s.process m).2 = .error e) : (s.rebased m).rebuild = ((s.process m).1, .error e) := by
  have h := process_handled s m
  generalize (s.process m).1 = s' at h ⊢
  rw [he] at h
  generalize ho : (Except.error e : Except Error Applied) = outcome at h
  cases h with
  | misrouted _ hn => exact absurd hr hn
  | stale | duplicate | merged | rebuilt | noted => exact absurd ho (by simp)
  | refused hf | reverted hf => exact absurd (hk.symm.trans hf.kind) (by decide)
  | @restarted l r _ _ _ ha =>
    cases r with
    | ok n => exact absurd ho (by simp [Except.map])
    | error e' =>
      obtain rfl : e = e' := by simpa [Except.map] using ho
      exact ha

/-- The snapshot stays, and the window is as it was. -/
theorem failed_eq (hr : s.Routed m) (hk : m.kind = .snapshot)
    (he : (s.process m).2 = .error e) :
    (s.process m).1 = { s.rebased m with ledger := (s.process m).1.ledger } := by
  have hs := rebuild_of_failed hr hk he
  rw [rebuild_eq] at hs
  have hstate := congrArg Prod.fst hs
  simp only at hstate
  rw [← hstate]

/-- **When a failed snapshot leaves everything as it was**: exactly where a failure of the same
snapshot has left it so before. -/
theorem failed_alike_iff (hr : s.Routed m) (hk : m.kind = .snapshot)
    (he : (s.process m).2 = .error e) : (s.process m).1.Alike s ↔
      ∃ s₀ : Synchronizer, s₀.Routed m ∧ (∃ e₀, (s₀.process m).2 = .error e₀) ∧
        (s₀.process m).1.Alike s := by
  constructor
  · intro ha
    exact ⟨s, hr, ⟨e, he⟩, ha⟩
  · rintro ⟨s₀, hr₀, ⟨e₀, he₀⟩, ha⟩
    have hagain := rebuild_again (s₀.rebased m)
    rw [rebuild_of_failed hr₀ hk he₀] at hagain
    have hbase : s.rebased m = s := by
      have hleft := failed_eq hr₀ hk he₀
      have hlast : s.lastSnapshot = some m := by rw [← ha.lastSnapshot, hleft]; rfl
      have hmark : s.truncated = false := by rw [← ha.truncated, hleft]; rfl
      rw [rebased, ← hlast, ← hmark]
    have hs := rebuild_of_failed hr hk he
    rw [hbase] at hs
    have hsame := ha.rebuild
    rw [hs] at hsame
    exact hsame.symm.trans (hagain.trans ha)

/-- What orders before the last snapshot is stale. -/
theorem process_of_stale (hr : s.Routed m) (hk : m.kind ≠ .trade)
    (hs : s.isBeforeSnapshot m = true) : s.process m = (s, .ok (.stale m.kind)) := by
  have h := process_handled s m
  generalize s.process m = done at h ⊢
  obtain ⟨s', outcome⟩ := done
  simp only at h
  cases h with
  | misrouted _ hn => exact absurd hr hn
  | stale => rfl
  | duplicate _ _ hn => exact absurd (hn.symm.trans hs) Bool.false_ne_true
  | merged hf | rebuilt hf | refused hf | reverted hf =>
    exact absurd (hf.not_stale.symm.trans hs) Bool.false_ne_true
  | restarted _ _ hn => exact absurd (hn.symm.trans hs) Bool.false_ne_true
  | noted _ hk' => exact absurd hk' hk

/-! ## Every run -/

/-- A window that has every diff since the last snapshot is rebuilt without a failure. -/
theorem Faithful.rebuild_ok {pair : String} (hf : s.Faithful pair) (hi : s.Inv)
    (ht : s.truncated = false) : ∃ n, s.rebuild.2 = .ok n := by
  obtain ⟨l₀, hr, -⟩ := hf ht
  rw [← newer_eq hi.ordered] at hr
  obtain ⟨l, hl, -⟩ := rebuild_of_replay hr
  exact ⟨_, congrArg Prod.snd hl⟩

/-- **A failed snapshot stays.** After any run, a snapshot of the pair that fails leaves the window
as it was, but it is the last snapshot from then on and the mark is gone, so everything that orders
before it is stale. The orders and levels that the window tells are lost too: a failed snapshot
leaves everything as it was exactly where the same snapshot has failed before and left it so, and
the first one that fails in a run never does. -/
theorem failed_snapshot_stays (pair : String) (capacity : Nat) (ms : List Message) (m : Message)
    (e : Error) (hp : m.pair = pair) (hk : m.kind = .snapshot)
    (he : (((initial pair pair capacity).run ms).process m).2 = .error e) :
    let start := initial pair pair capacity
    let s := start.run ms
    let s' := (s.process m).1
    (s'.lastSnapshot = some m ∧ s'.truncated = false ∧ s'.window = s.window) ∧
      (∀ d, d.pair = pair → d.kind ≠ .trade → d.before m = true →
        s'.process d = (s', .ok (.stale d.kind))) ∧
      (s'.Alike s ↔ ∃ s₀ : Synchronizer, s₀.Routed m ∧ (∃ e₀, (s₀.process m).2 = .error e₀) ∧
        (s₀.process m).1.Alike s) ∧
      (NoSnapshotFault (start.history ms) → ¬ s'.Alike s) := by
  intro start s s'
  have hbook : s.book.pair = pair := bookPair_run
  have hr : s.Routed m := ⟨hp.trans pair_run.symm, hbook.trans pair_run.symm⟩
  have heq : s' = { s.rebased m with ledger := s'.ledger } := failed_eq hr hk he
  have hlast : s'.lastSnapshot = some m := by rw [heq]; rfl
  refine ⟨⟨hlast, by rw [heq]; rfl, by rw [heq]; rfl⟩, fun d hd hkind hbefore => ?_,
    failed_alike_iff hr hk he, fun hok ha => ?_⟩
  · have hbook' : s'.book.pair = s.book.pair :=
      (process_handled s m).bookPair_eq (inv_run ms pair pair capacity)
    have hpair' : s'.pair = pair := by rw [heq]; exact pair_run
    refine process_of_stale ⟨hd.trans hpair'.symm, (hbook'.trans hbook).trans hpair'.symm⟩
      hkind ?_
    rw [isBeforeSnapshot, hlast]
    exact hbefore
  · -- were nothing changed, the rebuild would be the one that the window promises
    have hmark : s.truncated = false := by rw [← ha.truncated, heq]; rfl
    have hbase : s.rebased m = s := by
      rw [rebased, ← hlast, ha.lastSnapshot, ← hmark]
    obtain ⟨n, hn⟩ := (faithful_run hok).1.rebuild_ok (inv_run ms pair pair capacity) hmark
    have hs := rebuild_of_failed hr hk he
    rw [hbase] at hs
    exact absurd ((congrArg Prod.snd hs).symm.trans hn) (by simp)

/-- A snapshot that fails makes another one stale, which was newer than what the book shows. -/
theorem failed_snapshot_stays_over_snapshot :
    let failing := sampleOrders 30 30 "B" (.ofNat 100) (.ofNat 79228162514264337593543950335)
    let older := sampleOrders 20 20 "D" (.ofNat 101) (.ofNat 2)
    let start := initial "BTC-USDT" "BTC-USDT" 4
    let ms := [sampleOrders 10 10 "A" (.ofNat 100) (.ofNat 1),
      sampleOpening 40 40 "C" (.ofNat 100) (.ofNat 1)]
    let s := start.run ms
    let s' := (s.process failing).1
    (s.process failing).2 = .error
        (.orderBook "aggregate overflow adding 1 to 79228162514264337593543950335") ∧
      (s.process older).2 = .ok (.snapshot 1) ∧
      NoSnapshotFault (start.history ms) ∧ ¬ s'.Alike s ∧
      s'.process older = (s', .ok (.stale .snapshot)) := by
  intro failing older start ms s s'
  have he : (s.process failing).2 = .error
      (.orderBook "aggregate overflow adding 1 to 79228162514264337593543950335") := by
    decide +kernel
  have hok : NoSnapshotFault (start.history ms) := by decide
  obtain ⟨-, hstale, -, hfirst⟩ := failed_snapshot_stays "BTC-USDT" 4 ms failing _ rfl rfl he
  exact ⟨he, by decide, hok, hfirst hok, hstale older rfl (by decide) (by decide)⟩

/-- **One order too many in the newest diff.** The snapshot of the time 30 fails on top of the diff
of the time 40, which is in the window. The diff of the time 20 could be applied before, and is
stale afterwards. -/
theorem failed_snapshot_outdates :
    let failing := sampleOrders 30 30 "B" (.ofNat 100) (.ofNat 79228162514264337593543950335)
    let older := sampleOpening 20 20 "D" (.ofNat 101) (.ofNat 2)
    let start := initial "BTC-USDT" "BTC-USDT" 4
    let s := start.run [sampleOrders 10 10 "A" (.ofNat 100) (.ofNat 1),
      sampleOpening 40 40 "C" (.ofNat 100) (.ofNat 1)]
    (s.process failing).2 = .error
        (.orderBook "aggregate overflow adding 1 to 79228162514264337593543950335") ∧
      ¬ (s.process failing).1.Alike s ∧
      (s.process failing).1.book.amount? .bid (.ofNat 100) ≠ s.book.amount? .bid (.ofNat 100) ∧
      (s.process older).2 = .ok (.rebuilt 2) ∧
      ((s.process failing).1.process older).2 = .ok (.stale .diff) := by
  intro failing older start s
  have hlast : (s.process failing).1.lastSnapshot ≠ s.lastSnapshot := by decide +kernel
  refine ⟨by decide +kernel, fun ha => hlast ha.lastSnapshot, ?_⟩
  decide +kernel

end Synchronizer

end BookFeed
