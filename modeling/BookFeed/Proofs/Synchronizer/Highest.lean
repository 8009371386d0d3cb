import BookFeed.Proofs.Synchronizer.Keeps
import BookFeed.Proofs.Synchronizer.Replay

/-!
# The highest update of a book

A book notes the highest update applied to it, and never takes it back: it outlives rebuilds and the
diffs that were applied out of order. `Message.Within` bounds what a message can contribute. Where
every message carries price levels, the highest update is enclosed from both sides:

* `run_appliedId_le`: it stays within what bounds every message of the run;
* `Ledger.le_replay_appliedId`: a replay of diffs with distinct keys reaches each one that has rows.
-/

namespace BookFeed

namespace Message

/-- The message carries price levels. -/
def isLevels (m : Message) : Bool :=
  match m.content with
  | .levels _ _ => true
  | _ => false

/-- The message has rows for a book. -/
def hasRows (m : Message) : Bool := !(m.bids.isEmpty && m.asks.isEmpty)

/-- `bound` bounds what the message can raise the highest update to. -/
def Within (bound : UInt64) (m : Message) : Prop :=
  match m.kind with
  | .snapshot => m.updateId ≤ bound
  | .diff => m.isLevels = true ∧ (m.hasRows = true → m.updateId ≤ bound)
  | .trade => True

variable {bound : UInt64} {m : Message}

theorem Within.snapshot (h : m.Within bound) (hk : m.kind = .snapshot) : m.updateId ≤ bound := by
  unfold Within at h
  rw [hk] at h
  exact h

theorem Within.diff (h : m.Within bound) (hk : m.kind = .diff) :
    m.isLevels = true ∧ (m.hasRows = true → m.updateId ≤ bound) := by
  unfold Within at h
  rw [hk] at h
  exact h

end Message

theorem RestingOrders.applyDiff_levels {t : RestingOrders} {m : Message}
    (h : m.isLevels = true) :
    t.applyDiff m = if t.applied.contains (keyOf m) then (t, .ok {})
      else (t.noteApplied m, .ok ⟨m.bids, m.asks⟩) := by
  unfold Message.isLevels at h
  unfold applyDiff
  split at h
  · rename_i bids asks hc
    simp only [hc]
  · exact absurd h Bool.false_ne_true

namespace Ledger

variable {l l' : Ledger} {m d : Message} {ds : List Message} {base : Option Message}
  {bound : UInt64}

theorem orders_applyDiff (l : Ledger) (m : Message) :
    (l.applyDiff m).1.orders = (l.orders.applyDiff m).1 := by
  unfold Ledger.applyDiff
  obtain ⟨orders, _ | rows⟩ := l.orders.applyDiff m
  · rfl
  · simp only
    split <;> rfl

/-- The highest update after a diff of levels. -/
theorem appliedId_applyDiff (h : m.isLevels = true) :
    (l.applyDiff m).1.book.appliedId =
      if RestingOrders.keyOf m ∉ l.orders.applied ∧ m.hasRows = true then
        max l.book.appliedId m.updateId
      else l.book.appliedId := by
  unfold Ledger.applyDiff
  rw [RestingOrders.applyDiff_levels h]
  by_cases hk : RestingOrders.keyOf m ∈ l.orders.applied
  · rw [if_pos (List.contains_iff_mem.mpr hk), if_neg fun hn => hn.1 hk]
    rfl
  · rw [if_neg (mt List.contains_iff_mem.mp hk)]
    simp only
    by_cases hr : m.hasRows = true
    · have hrows := hr
      rw [Message.hasRows, Bool.not_eq_true', Bool.and_eq_false_iff] at hrows
      rw [if_neg (by simpa [Bool.eq_false_iff, imp_iff_not_or] using hrows), if_pos ⟨hk, hr⟩]
      rfl
    · have hrows := hr
      rw [Message.hasRows, Bool.not_eq_true', Bool.not_eq_false, Bool.and_eq_true] at hrows
      rw [if_pos hrows, if_neg fun hn => hr hn.2]

/-- A diff never lowers the highest update. -/
theorem le_appliedId_applyDiff (l : Ledger) (m : Message) :
    l.book.appliedId ≤ (l.applyDiff m).1.book.appliedId := by
  unfold Ledger.applyDiff
  obtain ⟨orders, _ | rows⟩ := l.orders.applyDiff m
  · exact UInt64.le_refl _
  · simp only
    split
    · exact UInt64.le_refl _
    · exact Std.left_le_max

theorem le_appliedId_applyDiffs (ds : List Message) (l : Ledger) :
    l.book.appliedId ≤ (l.applyDiffs ds).1.book.appliedId :=
  applyDiffs_keeps (P := fun l' => l.book.appliedId ≤ l'.book.appliedId)
    (fun d _ l' h => UInt64.le_trans h (le_appliedId_applyDiff l' d)) (UInt64.le_refl _)

/-! ## From above -/

theorem appliedId_applyDiff_le (hm : m.isLevels = true ∧ (m.hasRows = true → m.updateId ≤ bound))
    (h : l.book.appliedId ≤ bound) : (l.applyDiff m).1.book.appliedId ≤ bound := by
  rw [appliedId_applyDiff hm.1]
  split
  · rename_i hn
    exact Std.max_le_iff.mpr ⟨h, hm.2 hn.2⟩
  · exact h

theorem appliedId_restart_le (hb : ∀ b ∈ base, b.updateId ≤ bound)
    (h : l.book.appliedId ≤ bound) : (l.restart base).1.book.appliedId ≤ bound := by
  unfold restart
  cases base with
  | none => exact h
  | some b =>
    simp only
    obtain ⟨orders, _ | rows⟩ := l.orders.applySnapshot b
    · exact h
    · exact Std.max_le_iff.mpr ⟨h, hb b rfl⟩

/-! ## From below -/

/-- Diffs with distinct keys that are not remembered yet all count. -/
theorem le_appliedId_of_mem : ∀ {ds : List Message} {l l' : Ledger},
    l.applyDiffs ds = (l', .ok ()) → (∀ d ∈ ds, d.isLevels = true) →
    (ds.map RestingOrders.keyOf).Nodup → (∀ d ∈ ds, RestingOrders.keyOf d ∉ l.orders.applied) →
    ∀ d ∈ ds, d.hasRows = true → d.updateId ≤ l'.book.appliedId
  | [], _, _, _, _, _, _, _, hd => absurd hd List.not_mem_nil
  | m :: ds, l, l', hok, hlev, hnodup, hnew, d, hd => by
    intro hrows
    have happlied := appliedId_applyDiff (l := l) (hlev m List.mem_cons_self)
    have hmem : ∀ k ∈ (l.applyDiff m).1.orders.applied,
        k ∈ l.orders.applied ∨ k = RestingOrders.keyOf m := by
      intro k hk
      rw [orders_applyDiff] at hk
      exact RestingOrders.mem_applied_applyDiff hk
    simp only [applyDiffs] at hok
    rw [List.map_cons, List.nodup_cons] at hnodup
    generalize l.applyDiff m = done at hok happlied hmem
    obtain ⟨l₁, _ | _⟩ := done
    · exact absurd (congrArg Prod.snd hok) (by simp)
    · simp only at hok happlied hmem
      rcases List.mem_cons.mp hd with rfl | hd
      · have hmono := le_appliedId_applyDiffs ds l₁
        rw [hok, happlied, if_pos ⟨hnew d List.mem_cons_self, hrows⟩] at hmono
        exact UInt64.le_trans Std.right_le_max hmono
      · refine le_appliedId_of_mem hok (fun d hd => hlev d (List.mem_cons_of_mem _ hd)) hnodup.2
          (fun d hd hk => ?_) d hd hrows
        rcases hmem _ hk with hk | hk
        · exact hnew d (List.mem_cons_of_mem _ hd) hk
        · exact hnodup.1 (hk ▸ List.mem_map_of_mem hd)

/-- **A replay reaches its snapshot and every diff that has rows.** -/
theorem le_replay_appliedId {pair : String} (h : replay pair base ds = (l', .ok ()))
    (hbase : ∀ b ∈ base, b.isLevels = true) (hds : ∀ d ∈ ds, d.isLevels = true)
    (hnodup : (ds.map RestingOrders.keyOf).Nodup) :
    (∀ b ∈ base, b.updateId ≤ l'.book.appliedId) ∧
      ∀ d ∈ ds, d.hasRows = true → d.updateId ≤ l'.book.appliedId := by
  obtain ⟨hstart, hok⟩ := replay_eq_ok h
  have hclear : ((new pair).restart base).1.orders.applied = [] ∧
      ∀ b ∈ base, b.updateId ≤ ((new pair).restart base).1.book.appliedId := by
    cases base with
    | none => exact ⟨rfl, fun b hb => absurd hb (by simp)⟩
    | some b =>
      have hb := hbase b rfl
      unfold Message.isLevels at hb
      unfold restart RestingOrders.applySnapshot
      split at hb
      · rename_i bids asks hc
        simp only [hc]
        refine ⟨rfl, fun b' hb' => ?_⟩
        obtain rfl : b = b' := Option.mem_some_iff.mp hb'
        exact Std.right_le_max
      · exact absurd hb Bool.false_ne_true
  refine ⟨fun b hb => ?_, le_appliedId_of_mem hok hds hnodup fun d _ => ?_⟩
  · have hmono := le_appliedId_applyDiffs ds ((new pair).restart base).1
    rw [hok] at hmono
    exact UInt64.le_trans (hclear.2 b hb) hmono
  · rw [hclear.1]
    exact List.not_mem_nil

end Ledger

namespace Synchronizer

variable {bound : UInt64}

/-- **The highest update stays within the bounds of the messages.** -/
theorem run_appliedId_le (pair bookPair : String) (capacity : Nat) {ms : List Message}
    (h : ∀ m ∈ ms, m.Within bound) :
    ((initial pair bookPair capacity).run ms).book.appliedId ≤ bound := by
  induction ms using List.reverseRecOn with
  | nil => exact UInt64.zero_le
  | append_singleton ms m ih =>
    have ih := ih fun d hd => h d (List.mem_append_left _ hd)
    have hi := inv_run ms pair bookPair capacity
    have hbase := inv_run (ms ++ [m]) pair bookPair capacity
    have hstep := process_handled ((initial pair bookPair capacity).run ms) m
    rw [← run_concat] at hstep
    refine hstep.keeps (P := fun l => l.book.appliedId ≤ bound) hi (fun d hd hk l hl => ?_)
      (fun l hl => ?_) (fun _ _ _ hl => hl) ih
    · refine Ledger.appliedId_applyDiff_le ((h d ?_).diff hk) hl
      rcases mem_grown.mp hd with rfl | hd
      · exact List.mem_concat_self
      · exact List.mem_append_left _ (mem_of_window_run hd)
    · exact Ledger.appliedId_restart_le
        (fun b hb => (h b (mem_of_lastSnapshot_run hb)).snapshot (hbase.base b hb)) hl

end Synchronizer

end BookFeed
