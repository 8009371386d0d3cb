import BookFeed.Proofs.Orders.Snapshot
import BookFeed.Proofs.Synchronizer.History

/-!
# The incremental book is a replay from scratch

`Ledger.replay` starts a new ledger from a snapshot, or from nothing, and applies diffs to it. A
synchronizer never does this: it applies most diffs in place, rebuilds over what is there when a
diff comes late, forgets diffs, and repairs itself after failures. `Faithful` says that its ledger
still `StandsAs` the replay of the last snapshot and the diffs of the window that follow it, as long
as the window is not truncated.

* `Ledger.replay_of_restart`, `Ledger.restart_of_replay`: starting over from a used ledger goes as
  it goes from a new one: a snapshot is read from the message alone and a reset leaves nothing.
* `Handled.faithful`: every step but a failing snapshot keeps `Faithful`.
* **`run_eq_replay`**: after every run in which no snapshot failed, the orders and both sides of the
  book are those of the replay, and a snapshot tells how many diffs were applied again.
-/

namespace BookFeed

theorem max_le_max_right {a b : UInt64} (h : a ≤ b) (c : UInt64) : max a c ≤ max b c :=
  Std.max_le_iff.mpr ⟨Std.le_max.mpr (.inl h), Std.right_le_max⟩

namespace Ledger

/-- A ledger with a new book of `pair`. -/
def new (pair : String) : Ledger := ⟨.empty, .empty pair⟩

/-- Starts a new ledger from a snapshot, or from nothing, and applies diffs. -/
def replay (pair : String) (base : Option Message) (diffs : List Message) :
    Ledger × Except Error Unit :=
  match (new pair).restart base with
  | (l, .error e) => (l, .error e)
  | (l, .ok _) => l.applyDiffs diffs

/-- `l` has the orders and the levels of `l₀`. Its book may have seen higher updates. -/
structure StandsAs (l l₀ : Ledger) : Prop where
  orders : l.orders = l₀.orders
  bids : l.book.bids = l₀.book.bids
  asks : l.book.asks = l₀.book.asks
  appliedId : l₀.book.appliedId ≤ l.book.appliedId

variable {l l₀ l' : Ledger} {pair : String} {base : Option Message} {m : Message}
  {ds : List Message}

/-- A diff does the same to ledgers that stand alike. -/
theorem StandsAs.applyDiff (h : l.StandsAs l₀) (m : Message) :
    (l.applyDiff m).2 = (l₀.applyDiff m).2 ∧ (l.applyDiff m).1.StandsAs (l₀.applyDiff m).1 := by
  unfold Ledger.applyDiff
  rw [h.orders]
  obtain ⟨orders, _ | rows⟩ := l₀.orders.applyDiff m
  · exact ⟨rfl, rfl, h.bids, h.asks, h.appliedId⟩
  · simp only
    split
    · exact ⟨rfl, rfl, h.bids, h.asks, h.appliedId⟩
    · refine ⟨rfl, rfl, ?_, ?_, max_le_max_right h.appliedId _⟩
      · simp only [Book.applyDiffs, h.bids]
      · simp only [Book.applyDiffs, h.asks]

theorem StandsAs.applyDiffs (ds : List Message) : ∀ {l l₀ : Ledger}, l.StandsAs l₀ →
    (l.applyDiffs ds).2 = (l₀.applyDiffs ds).2 ∧
      (l.applyDiffs ds).1.StandsAs (l₀.applyDiffs ds).1 := by
  induction ds with
  | nil => exact fun h => ⟨rfl, h⟩
  | cons m ds ih =>
    intro l l₀ h
    obtain ⟨hr, hs⟩ := h.applyDiff m
    simp only [Ledger.applyDiffs]
    generalize l.applyDiff m = done at hr hs ⊢
    generalize l₀.applyDiff m = done₀ at hr hs ⊢
    obtain ⟨l₁, r⟩ := done
    obtain ⟨l₂, r₀⟩ := done₀
    obtain rfl : r = r₀ := hr
    cases r with
    | error e => exact ⟨rfl, hs⟩
    | ok _ => exact ih hs

/-- Whether starting over succeeds does not depend on the ledger. -/
theorem restart_ok (l' : Ledger) (h : (l.restart base).2 = .ok ()) :
    (l'.restart base).2 = .ok () := by
  unfold restart at h ⊢
  cases base with
  | none => rfl
  | some snapshot =>
    simp only at h ⊢
    cases ha : l.orders.applySnapshot snapshot with
    | mk orders r =>
      rw [ha] at h
      cases r with
      | error e => exact absurd h (by simp)
      | ok rows => rw [RestingOrders.applySnapshot_ok_iff.mp ha]

/-- Ledgers that start over end up alike. -/
theorem restart_standsAs (l₀ : Ledger) (h : (l.restart base).2 = .ok ())
    (hle : l₀.book.appliedId ≤ l.book.appliedId) :
    (l.restart base).1.StandsAs (l₀.restart base).1 := by
  unfold restart at h ⊢
  cases base with
  | none => exact ⟨rfl, rfl, rfl, hle⟩
  | some snapshot =>
    simp only at h ⊢
    cases ha : l.orders.applySnapshot snapshot with
    | mk orders r =>
      rw [ha] at h
      cases r with
      | error e => exact absurd h (by simp)
      | ok rows =>
        rw [RestingOrders.applySnapshot_ok_iff.mp ha]
        exact ⟨rfl, rfl, rfl, max_le_max_right hle _⟩

theorem applyDiffs_concat (m : Message) : ∀ {l l' : Ledger} {ds : List Message},
    l.applyDiffs ds = (l', .ok ()) → l.applyDiffs (ds ++ [m]) = l'.applyDiff m := by
  intro l l' ds
  induction ds generalizing l with
  | nil =>
    intro h
    obtain rfl : l = l' := congrArg Prod.fst h
    simp only [List.nil_append, applyDiffs]
    obtain ⟨l₁, _ | _⟩ := l.applyDiff m <;> rfl
  | cons d ds ih =>
    intro h
    simp only [List.cons_append, applyDiffs] at h ⊢
    generalize l.applyDiff d = done at h ⊢
    obtain ⟨l₁, _ | _⟩ := done
    · exact absurd (congrArg Prod.snd h) (by simp)
    · exact ih h

/-! ## Ledgers that stand as a replay -/

/-- The replay succeeds and `l` stands as it does. -/
def Replays (l : Ledger) (pair : String) (base : Option Message) (ds : List Message) : Prop :=
  ∃ l₀, replay pair base ds = (l₀, .ok ()) ∧ l.StandsAs l₀

theorem replay_eq_ok (h : replay pair base ds = (l₀, .ok ())) :
    ((new pair).restart base).2 = .ok () ∧
      ((new pair).restart base).1.applyDiffs ds = (l₀, .ok ()) := by
  unfold replay at h
  generalize (new pair).restart base = started at h ⊢
  obtain ⟨l, _ | _⟩ := started
  · exact absurd (congrArg Prod.snd h) (by simp)
  · exact ⟨rfl, h⟩

/-- One more diff in place is one more diff in the replay. -/
theorem Replays.applyDiff (h : l.Replays pair base ds) (ha : l.applyDiff m = (l', .ok ())) :
    l'.Replays pair base (ds ++ [m]) := by
  obtain ⟨l₀, hr, hs⟩ := h
  obtain ⟨hout, hstand⟩ := hs.applyDiff m
  rw [ha] at hout hstand
  simp only at hout
  refine ⟨(l₀.applyDiff m).1, ?_, hstand⟩
  obtain ⟨hstart, hds⟩ := replay_eq_ok hr
  unfold replay
  generalize (new pair).restart base = started at hstart hds ⊢
  obtain ⟨l₁, r⟩ := started
  obtain rfl : r = .ok () := hstart
  simp only
  rw [applyDiffs_concat m hds, hout]

/-- A used ledger can do what the replay does. -/
theorem restart_of_replay (l : Ledger) (h : replay pair base ds = (l₀, .ok ())) :
    ∃ l₁ l₂, l.restart base = (l₁, .ok ()) ∧ l₁.applyDiffs ds = (l₂, .ok ()) ∧
      l₂.StandsAs l₀ := by
  obtain ⟨hstart, hds⟩ := replay_eq_ok h
  have hok := restart_ok l hstart
  have hstand := restart_standsAs (new pair) hok UInt64.zero_le
  obtain ⟨hout, hs⟩ := StandsAs.applyDiffs ds hstand
  rw [hds] at hout hs
  exact ⟨(l.restart base).1, ((l.restart base).1.applyDiffs ds).1, Prod.ext rfl hok,
    Prod.ext rfl hout, hs⟩

/-- What a used ledger has done, the replay can do. -/
theorem replay_of_restart {l₁ l₂ : Ledger} (hstart : l.restart base = (l₁, .ok ()))
    (hds : l₁.applyDiffs ds = (l₂, .ok ())) : l₂.Replays pair base ds := by
  have hok := restart_ok (new pair) (congrArg Prod.snd hstart)
  have hstand := restart_standsAs (new pair) (congrArg Prod.snd hstart) UInt64.zero_le
  rw [hstart] at hstand
  obtain ⟨hout, hs⟩ := StandsAs.applyDiffs ds hstand
  rw [hds] at hout hs
  refine ⟨_, ?_, hs⟩
  unfold replay
  generalize (new pair).restart base = started at hok hout hs ⊢
  obtain ⟨l₃, r⟩ := started
  obtain rfl : r = .ok () := hok
  exact Prod.ext rfl hout.symm

end Ledger

namespace Synchronizer

variable {s s' : Synchronizer} {m : Message} {pair : String} {l l₀ : Ledger}

/-! ## Rebuilding is replaying -/

theorem rebuild_of_replay (h : Ledger.replay pair s.lastSnapshot s.newer = (l₀, .ok ())) :
    ∃ l, s.rebuild = ({ s with ledger := l }, .ok s.newer.length) ∧ l.StandsAs l₀ := by
  obtain ⟨l₁, l₂, hstart, hds, hs⟩ := Ledger.restart_of_replay s.ledger h
  refine ⟨l₂, ?_, hs⟩
  unfold rebuild
  rw [hstart]
  simp only
  rw [hds]

theorem replay_of_rebuild (pair : String) {n : Nat}
    (h : s.rebuild = ({ s with ledger := l }, .ok n)) :
    n = s.newer.length ∧ l.Replays pair s.lastSnapshot s.newer := by
  obtain ⟨l₁, hstart, hds, hn⟩ := rebuild_ok h
  exact ⟨hn, Ledger.replay_of_restart hstart hds⟩

/-- As long as the window is not truncated, the ledger stands as the replay of what the window
tells. -/
def Faithful (pair : String) (s : Synchronizer) : Prop :=
  s.truncated = false →
    s.ledger.Replays pair s.lastSnapshot (s.window.filter (follows s.lastSnapshot))

/-- Repairing after a failure leads back to the replay. -/
theorem faithful_restore (hi : s.Inv) (hf : s.Faithful pair) (l : Ledger) :
    ({ s with ledger := l } : Synchronizer).restore.Faithful pair := by
  intro ht
  rw [restore_eq] at ht
  obtain ⟨l₀, hr, -⟩ := hf ht
  rw [← newer_eq hi.ordered] at hr
  obtain ⟨l', hl', hs⟩ := rebuild_of_replay (s := { s with ledger := l }) hr
  have hrestore : ({ s with ledger := l } : Synchronizer).restore = { s with ledger := l' } := by
    unfold restore
    rw [if_neg (by rw [ht]; exact Bool.false_ne_true), hl']
  rw [hrestore]
  exact ⟨l₀, newer_eq hi.ordered ▸ hr, hs⟩

theorem faithful_trim (hf : s.Faithful pair) : s.trim.Faithful pair := by
  intro ht
  have hs : s.truncated = false := by
    rw [trim_truncated, Bool.or_eq_false_iff] at ht
    exact ht.1
  show s.ledger.Replays pair s.lastSnapshot (s.trim.window.filter (follows s.lastSnapshot))
  rw [filter_follows_trim ht]
  exact hf hs

/-- **Every step but a failing snapshot keeps the ledger faithful.** -/
theorem Handled.faithful {outcome : Except Error Applied} (h : Handled s m s' outcome)
    (hi : s.Inv) (hf : s.Faithful pair) (hok : m.kind = .snapshot → outcome.isOk = true) :
    s'.Faithful pair := by
  cases h with
  | misrouted | stale | duplicate => exact hf
  | @merged l hfresh hlate ha =>
    refine faithful_trim fun ht => ?_
    have hnot : s.isLate m = false := by
      rw [← Bool.not_eq_true]
      intro hl
      exact Bool.false_ne_true (ht.symm.trans (hlate hl))
    simp only [grown_of_not_late hnot, List.filter_append, List.filter_cons,
      hfresh.follows hi, if_true, List.filter_nil]
    exact (hf ht).applyDiff ha
  | @rebuilt l n hfresh _ _ ha =>
    refine faithful_trim fun _ => ?_
    rw [← newer_eq (inv_grown hi hfresh.kind l).ordered]
    exact (replay_of_rebuild pair ha).2
  | refused hfresh _ _ => exact faithful_restore hi hf _
  | reverted hfresh _ _ _ => exact faithful_restore hi hf _
  | @restarted l r _ hk _ ha =>
    intro _
    cases r with
    | error e => exact absurd (hok hk) (by simp [Except.map, Except.isOk, Except.toBool])
    | ok n =>
      rw [← newer_eq (s := { s with lastSnapshot := some m, ledger := l }) hi.ordered]
      exact (replay_of_rebuild pair ha).2
  | @noted b _ _ hb =>
    intro ht
    obtain ⟨l₀, hr, hs⟩ := hf ht
    refine ⟨l₀, hr, ?_⟩
    rcases hb with rfl | ⟨t, rfl⟩
    · exact hs
    · exact ⟨hs.orders, hs.bids, hs.asks, hs.appliedId⟩

/-! ## Runs -/

open Delivery (NoSnapshotFault lastSnapshot?)

/-- The last snapshot changes when one is accepted, and only then. -/
theorem Handled.lastSnapshot_eq {outcome : Except Error Applied} (h : Handled s m s' outcome)
    (hok : m.kind = .snapshot → outcome.isOk = true) :
    s'.lastSnapshot = (Delivery.snapshot? ⟨m, outcome⟩).or s.lastSnapshot := by
  cases h with
  | misrouted | stale | duplicate | rebuilt | noted => rfl
  | merged => split <;> rfl
  | refused _ _ _ => rw [restore_eq]; rfl
  | reverted _ _ _ _ => rw [restore_eq]; rfl
  | @restarted l r _ hk _ _ =>
    cases r with
    | error e => exact absurd (hok hk) (by simp [Except.map, Except.isOk, Except.toBool])
    | ok n => rfl

/-- A snapshot tells how many diffs of the window are newer. -/
theorem Handled.replayed_eq {outcome : Except Error Applied} {n : Nat}
    (h : Handled s m s' outcome) (hi : s.Inv) (hn : outcome = .ok (.snapshot n)) :
    n = (s'.window.filter (m.before ·)).length := by
  cases h with
  | misrouted | stale | duplicate | rebuilt | refused | reverted | noted =>
    exact absurd hn (by simp)
  | merged => exact absurd hn (by split <;> simp)
  | @restarted l r _ _ _ ha =>
    cases r with
    | error e => exact absurd hn (by simp [Except.map])
    | ok k =>
      obtain rfl : k = n := by simpa [Except.map] using hn
      rw [(replay_of_rebuild "" ha).1,
        newer_eq (s := { s with lastSnapshot := some m, truncated := false }) hi.ordered]
      rfl

theorem faithful_run {pair bookPair : String} {capacity : Nat} {ms : List Message}
    (h : NoSnapshotFault ((initial pair bookPair capacity).history ms)) :
    ((initial pair bookPair capacity).run ms).Faithful pair ∧
      ((initial pair bookPair capacity).run ms).lastSnapshot =
        lastSnapshot? ((initial pair bookPair capacity).history ms) := by
  induction ms using List.reverseRecOn with
  | nil => exact ⟨fun _ => ⟨_, rfl, rfl, rfl, rfl, UInt64.zero_le⟩, rfl⟩
  | append_singleton ms m ih =>
    rw [history_concat, Delivery.noSnapshotFault_concat] at h
    obtain ⟨hf, hlast⟩ := ih h.1
    have hstep := process_handled ((initial pair bookPair capacity).run ms) m
    rw [run_concat, history_concat, Delivery.lastSnapshot?_concat]
    exact ⟨hstep.faithful (inv_run ms pair bookPair capacity) hf h.2,
      hlast ▸ hstep.lastSnapshot_eq h.2⟩

/-- **The incremental book is a replay from scratch.** After every run in which no snapshot failed,
if the window is not truncated, the replay of the last accepted snapshot and the diffs of the window
that follow it succeeds, and the orders and both sides of the book are exactly what it gives. Every
accepted snapshot answers how many diffs of the window are strictly newer. -/
theorem run_eq_replay (pair bookPair : String) (capacity : Nat) (ms : List Message)
    (h : NoSnapshotFault ((initial pair bookPair capacity).history ms)) :
    let start := initial pair bookPair capacity
    let s := start.run ms
    let base := lastSnapshot? (start.history ms)
    (s.truncated = false →
      ∃ l, Ledger.replay pair base (s.window.filter (follows base)) = (l, .ok ()) ∧
        s.orders = l.orders ∧ s.book.bids = l.book.bids ∧ s.book.asks = l.book.asks) ∧
    ∀ m n, (s.process m).2 = .ok (.snapshot n) →
      n = ((s.process m).1.window.filter (m.before ·)).length := by
  intro start s base
  obtain ⟨hf, hlast⟩ := faithful_run h
  refine ⟨fun ht => ?_, fun m n hn => ?_⟩
  · obtain ⟨l, hr, hs⟩ := hf ht
    rw [hlast] at hr
    exact ⟨l, hr, hs.orders, hs.bids, hs.asks⟩
  · exact (process_handled s m).replayed_eq (inv_run ms pair bookPair capacity) hn

/-- A late diff, and a snapshot that comes after two newer diffs. -/
theorem run_eq_replay_late :
    let ms := [sampleDiff 40 4 (.ofNat 104), sampleDiff 20 2 (.ofNat 102),
      sampleSnapshot 10 1 (.ofNat 100) (.ofNat 110), sampleDiff 30 3 (.ofNat 103)]
    let start := initial "BTC-USDT" "BTC-USDT" 3
    let s := start.run ms
    let base := lastSnapshot? (start.history ms)
    NoSnapshotFault (start.history ms) ∧ s.truncated = false ∧
      ∃ l, Ledger.replay "BTC-USDT" base (s.window.filter (follows base)) = (l, .ok ()) ∧
        s.orders = l.orders ∧ s.book.bids = l.book.bids ∧ s.book.asks = l.book.asks := by
  intro ms start s base
  have h : NoSnapshotFault (start.history ms) := by decide
  have ht : s.truncated = false := by decide
  exact ⟨h, ht, (run_eq_replay "BTC-USDT" "BTC-USDT" 3 ms h).1 ht⟩

end Synchronizer

end BookFeed
