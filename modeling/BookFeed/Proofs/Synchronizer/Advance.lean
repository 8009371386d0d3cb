import BookFeed.Proofs.Synchronizer.Base
import BookFeed.Proofs.Synchronizer.Highest

/-!
# A pair never moves back

A rebuild starts over from an old snapshot and applies old diffs again, and a repair may empty the
book. What consumers go by does not move back with it. The last snapshot gives way only to one that
does not order before it, and the highest update of the book never falls (`Advances`). The ids of the
last snapshot and of the last diff that the book has seen stay within the highest update
(`Book.IdsWithin`).

* `Handled.advances`, `Handled.idsWithin`: every step keeps this, faults included;
* **`run_advances`**: so does every run. Where no snapshot failed, the book also tells whether there
  is a last snapshot, and which.
-/

namespace BookFeed

/-- No update that the book names is beyond its highest. -/
structure Book.IdsWithin (b : Book) : Prop where
  snapshotId : b.snapshotId ≤ b.appliedId
  diffId : b.diffId ≤ b.appliedId

namespace Ledger

variable {l : Ledger}

theorem idsWithin_applyDiff (h : l.book.IdsWithin) (m : Message) :
    (l.applyDiff m).1.book.IdsWithin := by
  unfold applyDiff
  obtain ⟨orders, _ | rows⟩ := l.orders.applyDiff m
  · exact h
  · simp only
    split
    · exact h
    · exact ⟨UInt64.le_trans h.snapshotId Std.left_le_max, Std.right_le_max⟩

/-- Starting over raises the highest update to that of the snapshot, if it is below. -/
theorem idsWithin_restart (h : l.book.IdsWithin) (base : Option Message) :
    (l.restart base).1.book.IdsWithin := by
  unfold restart
  cases base with
  | none => exact ⟨h.snapshotId, h.diffId⟩
  | some snapshot =>
    simp only
    obtain ⟨orders, _ | rows⟩ := l.orders.applySnapshot snapshot
    · exact h
    · exact ⟨Std.right_le_max, UInt64.le_trans h.diffId Std.left_le_max⟩

/-- Starting over never lowers the highest update. -/
theorem le_appliedId_restart (l : Ledger) (base : Option Message) :
    l.book.appliedId ≤ (l.restart base).1.book.appliedId := by
  unfold restart
  cases base with
  | none => exact UInt64.le_refl _
  | some snapshot =>
    simp only
    obtain ⟨orders, _ | rows⟩ := l.orders.applySnapshot snapshot
    · exact UInt64.le_refl _
    · exact Std.left_le_max

end Ledger

namespace Synchronizer

open Delivery (NoSnapshotFault)

/-- `s'` has not fallen behind `s`: its last snapshot does not order before that of `s`, and its book
has seen no lower update. -/
structure Advances (s s' : Synchronizer) : Prop where
  lastSnapshot : ∀ b ∈ s.lastSnapshot, ∃ b' ∈ s'.lastSnapshot, b'.before b = false
  appliedId : s.book.appliedId ≤ s'.book.appliedId

variable {s s' s'' : Synchronizer} {m : Message} {outcome : Except Error Applied}

theorem Advances.refl (s : Synchronizer) : s.Advances s where
  lastSnapshot b hb := by
    refine ⟨b, hb, ?_⟩
    rw [← Bool.not_eq_true, Message.before_iff]
    exact lt_irrefl _
  appliedId := UInt64.le_refl _

theorem Advances.trans (h : s.Advances s') (h' : s'.Advances s'') : s.Advances s'' where
  lastSnapshot b hb := by
    obtain ⟨b', hb', hle⟩ := h.lastSnapshot b hb
    obtain ⟨b'', hb'', hle'⟩ := h'.lastSnapshot b' hb'
    refine ⟨b'', hb'', ?_⟩
    rw [← Bool.not_eq_true, Message.before_iff, not_lt] at hle hle' ⊢
    exact hle.trans hle'
  appliedId := UInt64.le_trans h.appliedId h'.appliedId

/-! ## Every step -/

/-- A snapshot that becomes the last one has been found not to order before the one it replaces. -/
theorem Handled.lastSnapshot_advances (h : Handled s m s' outcome) :
    ∀ b ∈ s.lastSnapshot, ∃ b' ∈ s'.lastSnapshot, b'.before b = false := by
  have hsame : s'.lastSnapshot = s.lastSnapshot →
      ∀ b ∈ s.lastSnapshot, ∃ b' ∈ s'.lastSnapshot, b'.before b = false := by
    intro heq
    rw [heq]
    exact (Advances.refl s).lastSnapshot
  cases h with
  | misrouted | stale | duplicate | merged | rebuilt | noted => exact hsame rfl
  | refused | reverted => exact hsame (by rw [restore_eq])
  | restarted _ _ hs =>
    intro b hb
    refine ⟨m, rfl, ?_⟩
    rw [isBeforeSnapshot, Option.mem_def.mp hb] at hs
    exact hs

/-- **No step falls behind**, whether or not it succeeds. -/
theorem Handled.advances (h : Handled s m s' outcome) (hi : s.Inv) : s.Advances s' where
  lastSnapshot := h.lastSnapshot_advances
  appliedId :=
    h.keeps (P := fun l => s.book.appliedId ≤ l.book.appliedId) hi
      (fun d _ _ l hl => UInt64.le_trans hl (Ledger.le_appliedId_applyDiff l d))
      (fun l hl => UInt64.le_trans hl (Ledger.le_appliedId_restart l _)) (fun _ _ _ hl => hl)
      (UInt64.le_refl _)

theorem Handled.idsWithin (h : Handled s m s' outcome) (hi : s.Inv) (hb : s.book.IdsWithin) :
    s'.book.IdsWithin :=
  h.keeps (P := fun l => l.book.IdsWithin) hi (fun d _ _ _ hl => Ledger.idsWithin_applyDiff hl d)
    (fun _ hl => Ledger.idsWithin_restart hl _)
    (fun _ _ _ hl => ⟨hl.snapshotId, hl.diffId⟩) hb

/-! ## Runs -/

theorem advances_run (hi : s.Inv) (ms : List Message) : s.Advances (s.run ms) := by
  induction ms generalizing s with
  | nil => exact .refl s
  | cons m ms ih =>
    have hstep := process_handled s m
    exact (hstep.advances hi).trans (ih (hstep.inv hi))

theorem idsWithin_run (pair bookPair : String) (capacity : Nat) (ms : List Message) :
    ((initial pair bookPair capacity).run ms).book.IdsWithin := by
  induction ms using List.reverseRecOn with
  | nil => exact ⟨UInt64.le_refl _, UInt64.le_refl _⟩
  | append_singleton ms m ih =>
    rw [run_concat]
    exact (process_handled _ m).idsWithin (inv_run ms pair bookPair capacity) ih

/-- **A pair never moves back.** After any messages `ms`, and whatever comes after them, faults
included: the last snapshot never gives way to one that orders before it, the highest update never
falls, and the book names no snapshot and no diff beyond it. Where no snapshot of `ms` failed, the
book is initialized exactly if there is a last snapshot, and shows its update id. -/
theorem run_advances (pair bookPair : String) (capacity : Nat) (ms : List Message) :
    let start := initial pair bookPair capacity
    let s := start.run ms
    (∀ more : List Message, s.Advances (s.run more)) ∧ s.book.IdsWithin ∧
      (NoSnapshotFault (start.history ms) →
        (s.book.initialized = true ↔ s.lastSnapshot.isSome = true) ∧
          ∀ b ∈ s.lastSnapshot, s.book.snapshotId = b.updateId) := by
  intro start s
  have hi : s.Inv := inv_run ms pair bookPair capacity
  refine ⟨advances_run hi, idsWithin_run pair bookPair capacity ms, fun hok => ?_⟩
  have hshows : s.book.Shows s.lastSnapshot := run_shows hok
  refine ⟨by rw [hshows.initialized], fun b hb => ?_⟩
  rw [hshows.snapshotId, Option.mem_def.mp hb]
  rfl

/-- A late diff fails and the book is rebuilt from the snapshot, whose update id is the highest. Then
comes a snapshot with a lower update id that fails over the newer diff, and is the last one all the
same. -/
theorem run_advances_over_faults :
    let ms := [sampleOrders 10 9 "A" (.ofNat 100) (.ofNat 1),
      sampleOpening 40 4 "B" (.ofNat 100) (.ofNat 1),
      sampleOpening 20 2 "C" (.ofNat 100) (.ofNat 79228162514264337593543950335)]
    let failing := sampleOrders 30 3 "D" (.ofNat 100) (.ofNat 79228162514264337593543950335)
    let start := initial "BTC-USDT" "BTC-USDT" 3
    let s := start.run ms
    let s' := s.run [failing]
    NoSnapshotFault (start.history ms) ∧ (start.history ms).map (·.outcome.isOk) =
        [true, true, false] ∧ (s.process failing).2.isOk = false ∧
      s.lastSnapshot.map (·.updateId) = some 9 ∧ s'.lastSnapshot.map (·.updateId) = some 3 ∧
      s.Advances s' ∧ s.book.IdsWithin ∧ s.book.initialized = true ∧ s.book.snapshotId = 9 := by
  intro ms failing start s s'
  have hok : NoSnapshotFault (start.history ms) := by decide +kernel
  obtain ⟨hadv, hids, hshows⟩ := run_advances "BTC-USDT" "BTC-USDT" 3 ms
  obtain ⟨hinit, hid⟩ := hshows hok
  have hlast : s.lastSnapshot = some (sampleOrders 10 9 "A" (.ofNat 100) (.ofNat 1)) := by
    decide +kernel
  exact ⟨hok, by decide +kernel, by decide +kernel, by rw [hlast]; rfl, by decide +kernel,
    hadv [failing], hids, hinit.mpr (by rw [hlast]; rfl), hid _ hlast⟩

end Synchronizer

end BookFeed
