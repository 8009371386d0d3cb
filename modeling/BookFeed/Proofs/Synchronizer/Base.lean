import BookFeed.Proofs.Synchronizer.History
import BookFeed.Proofs.Synchronizer.Keeps

/-!
# The base a book shows

A book says whether it starts from a snapshot, and from which (`Book.Shows`). Diffs leave that
alone, and starting over writes it, so after every run in which no snapshot failed the book shows
the last snapshot of the synchronizer (`run_shows`). Neither diffs nor starting over touch the pair of a book
and its last trade (`Handled.bookPair_eq`, `Handled.lastTrade_eq`).
-/

namespace BookFeed

open Delivery (NoSnapshotFault)

/-- The id of the snapshot a book starts from. A book that starts from nothing shows 0. -/
def baseId (base : Option Message) : UInt64 := base.elim 0 (·.updateId)

/-- The book shows that it starts from `base`. -/
structure Book.Shows (b : Book) (base : Option Message) : Prop where
  initialized : b.initialized = base.isSome
  snapshotId : b.snapshotId = baseId base

namespace Ledger

variable {l : Ledger} {base : Option Message}

/-- A diff writes the levels and the ids of diffs, and nothing else. -/
theorem applyDiff_frame (l : Ledger) (m : Message) :
    (l.applyDiff m).1.book.pair = l.book.pair ∧
      (l.applyDiff m).1.book.lastTrade = l.book.lastTrade ∧
      (l.applyDiff m).1.book.initialized = l.book.initialized ∧
      (l.applyDiff m).1.book.snapshotId = l.book.snapshotId := by
  unfold applyDiff
  obtain ⟨orders, _ | rows⟩ := l.orders.applyDiff m
  · exact ⟨rfl, rfl, rfl, rfl⟩
  · simp only
    split <;> exact ⟨rfl, rfl, rfl, rfl⟩

theorem restart_frame (l : Ledger) (base : Option Message) :
    (l.restart base).1.book.pair = l.book.pair ∧
      (l.restart base).1.book.lastTrade = l.book.lastTrade := by
  unfold restart
  cases base with
  | none => exact ⟨rfl, rfl⟩
  | some snapshot =>
    simp only
    obtain ⟨orders, _ | rows⟩ := l.orders.applySnapshot snapshot <;> exact ⟨rfl, rfl⟩

theorem shows_applyDiff (h : l.book.Shows base) (m : Message) :
    (l.applyDiff m).1.book.Shows base :=
  have ⟨_, _, hinit, hid⟩ := applyDiff_frame l m
  ⟨hinit.trans h.initialized, hid.trans h.snapshotId⟩

/-- Starting over from a snapshot shows it, and starting over from nothing hides none. -/
theorem shows_restart
    (h : (l.restart base).2 = .ok () ∧ base.isSome = true ∨ l.book.Shows base) :
    (l.restart base).1.book.Shows base := by
  unfold restart at h ⊢
  cases base with
  | none =>
    have hl := h.resolve_left fun hn => Bool.false_ne_true hn.2
    exact ⟨rfl, hl.snapshotId⟩
  | some snapshot =>
    simp only at h ⊢
    generalize l.orders.applySnapshot snapshot = done at h ⊢
    obtain ⟨orders, _ | rows⟩ := done
    · exact h.resolve_left fun hn => absurd hn.1 (by simp)
    · exact ⟨rfl, rfl⟩

end Ledger

namespace Synchronizer

variable {s s' : Synchronizer} {m : Message} {ms : List Message} {outcome : Except Error Applied}

/-- **Every step but a failing snapshot keeps what the book shows up to date.** -/
theorem Handled.shows (h : Handled s m s' outcome) (hi : s.Inv)
    (hb : s.book.Shows s.lastSnapshot) (hok : m.kind = .snapshot → outcome.isOk = true) :
    s'.book.Shows s'.lastSnapshot := by
  have hkeep : s'.lastSnapshot = s.lastSnapshot → s'.book.Shows s'.lastSnapshot := by
    intro hsame
    rw [hsame]
    refine h.keeps (P := fun l => l.book.Shows s.lastSnapshot) hi
      (fun d _ _ l hl => Ledger.shows_applyDiff hl d) (fun l hl => ?_) (fun _ _ _ hl => ?_) hb
    · rw [hsame]
      exact Ledger.shows_restart (.inr hl)
    · exact ⟨hl.initialized, hl.snapshotId⟩
  cases h with
  | misrouted | stale | duplicate | merged | rebuilt | noted => exact hkeep rfl
  | refused => exact hkeep (by rw [restore_eq])
  | reverted => exact hkeep (by rw [restore_eq])
  | @restarted l r _ hk _ ha =>
    cases r with
    | error e => exact absurd (hok hk) Bool.false_ne_true
    | ok n =>
      have hstart := restart_of_rebuild (congrArg Prod.snd ha)
      have := rebuild_keeps (P := fun l => l.book.Shows (some m))
        (s := { s with lastSnapshot := some m, truncated := false })
        (Ledger.shows_restart (.inl ⟨hstart, rfl⟩)) fun d _ l hl => Ledger.shows_applyDiff hl d
      rw [ha] at this
      exact this

/-- **A book shows the last snapshot.** -/
theorem run_shows {pair bookPair : String} {capacity : Nat}
    (h : NoSnapshotFault ((initial pair bookPair capacity).history ms)) :
    ((initial pair bookPair capacity).run ms).book.Shows
      ((initial pair bookPair capacity).run ms).lastSnapshot := by
  induction ms using List.reverseRecOn with
  | nil => exact ⟨rfl, rfl⟩
  | append_singleton ms m ih =>
    rw [history_concat, Delivery.noSnapshotFault_concat] at h
    rw [run_concat]
    exact (process_handled _ m).shows (inv_run ms pair bookPair capacity) (ih h.1) h.2

/-- A book stays the book of its pair. -/
theorem Handled.bookPair_eq (h : Handled s m s' outcome) (hi : s.Inv) :
    s'.book.pair = s.book.pair :=
  h.keeps (P := fun l => l.book.pair = s.book.pair) hi
    (fun d _ _ l hl => (Ledger.applyDiff_frame l d).1.trans hl)
    (fun l hl => (Ledger.restart_frame l _).1.trans hl) (fun _ _ _ hl => hl) rfl

theorem bookPair_run {pair bookPair : String} {capacity : Nat} :
    ((initial pair bookPair capacity).run ms).book.pair = bookPair := by
  induction ms using List.reverseRecOn with
  | nil => rfl
  | append_singleton ms m ih =>
    rw [run_concat]
    exact ((process_handled _ m).bookPair_eq (inv_run ms pair bookPair capacity)).trans ih

/-- Where no call fails, every message is for the pair, and so is the book. -/
theorem routed_of_noFault {pair bookPair : String} {capacity : Nat}
    (h : Delivery.NoFault ((initial pair bookPair capacity).history ms)) (hm : m ∈ ms) :
    ((initial pair bookPair capacity).run ms).Routed m := by
  suffices hpairs : m.pair = pair ∧ bookPair = pair by
    exact ⟨hpairs.1.trans pair_run.symm, bookPair_run.trans (hpairs.2.trans pair_run.symm)⟩
  induction ms using List.reverseRecOn with
  | nil => exact absurd hm List.not_mem_nil
  | append_singleton ms m' ih =>
    rw [history_concat, Delivery.noFault_concat] at h
    rcases List.mem_append.mp hm with hm | hm
    · exact ih h.1 hm
    · obtain rfl := List.mem_singleton.mp hm
      obtain ⟨hpair, hbook⟩ := (process_handled _ m).routed h.2
      exact ⟨hpair.trans pair_run, bookPair_run.symm.trans (hbook.trans pair_run)⟩

/-- Only trades are noted. -/
theorem Handled.lastTrade_eq (h : Handled s m s' outcome) (hi : s.Inv) (hk : m.kind ≠ .trade) :
    s'.book.lastTrade = s.book.lastTrade :=
  h.keeps (P := fun l => l.book.lastTrade = s.book.lastTrade) hi
    (fun d _ _ l hl => (Ledger.applyDiff_frame l d).2.1.trans hl)
    (fun l hl => (Ledger.restart_frame l _).2.trans hl) (fun ht => absurd ht hk) rfl

end Synchronizer

end BookFeed
