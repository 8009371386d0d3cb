import BookFeed.Proofs.Message.Order
import BookFeed.Synchronizer

/-!
# What a message can do to a synchronizer

`Handled s m s' outcome` lists everything that can become of a message, with the conditions under
which it does. `process_handled` says that `process` does one of these, so a fact about every step
is a case analysis of `Handled`, and no other proof opens `process`.
-/

namespace BookFeed.Synchronizer

/-- `m` orders after the snapshot `base`, if there is one. -/
def follows (base : Option Message) (m : Message) : Bool := base.all (·.before m)

/-- The window with a diff at its place. -/
def grown (s : Synchronizer) (m : Message) : List Message :=
  s.window.takeWhile (·.notAfter m) ++ m :: s.window.dropWhile (·.notAfter m)

/-- Newer diffs than `m` are in the window. -/
def isLate (s : Synchronizer) (m : Message) : Bool := !(s.window.dropWhile (·.notAfter m)).isEmpty

/-- `m` is for this pair, and so is the book. -/
def Routed (s : Synchronizer) (m : Message) : Prop := m.pair = s.pair ∧ s.book.pair = s.pair

/-- A diff that is neither stale nor in the window. -/
structure Fresh (s : Synchronizer) (m : Message) : Prop where
  routed : s.Routed m
  kind : m.kind = .diff
  not_stale : s.isBeforeSnapshot m = false
  not_duplicate : isDuplicate (s.window.takeWhile (·.notAfter m)) m = false

/-- What can become of a message. -/
inductive Handled (s : Synchronizer) (m : Message) :
    Synchronizer → Except Error Applied → Prop where
  | misrouted (e : Error) (h : ¬ s.Routed m) : Handled s m s (.error e)
  | stale (hr : s.Routed m) (hk : m.kind ≠ .trade) (h : s.isBeforeSnapshot m = true) :
      Handled s m s (.ok (.stale m.kind))
  | duplicate (hr : s.Routed m) (hk : m.kind = .diff) (hs : s.isBeforeSnapshot m = false)
      (h : isDuplicate (s.window.takeWhile (·.notAfter m)) m = true) :
      Handled s m s (.ok .duplicate)
  /-- applied on top of what is there -/
  | merged {l : Ledger} (hf : s.Fresh m) (h : s.isLate m = true → s.truncated = true)
      (ha : s.ledger.applyDiff m = (l, .ok ())) :
      Handled s m ({ s with ledger := l, window := s.grown m } : Synchronizer).trim
        (.ok (if s.isLate m then .outOfOrder else .diff))
  | rebuilt {l : Ledger} {n : Nat} (hf : s.Fresh m) (hl : s.isLate m = true)
      (ht : s.truncated = false)
      (ha : ({ s with window := s.grown m } : Synchronizer).rebuild =
        ({ s with window := s.grown m, ledger := l }, .ok n)) :
      Handled s m ({ s with window := s.grown m, ledger := l } : Synchronizer).trim
        (.ok (.rebuilt n))
  /-- a diff that failed by itself -/
  | refused {l : Ledger} {e : Error} (hf : s.Fresh m) (h : s.isLate m = true → s.truncated = true)
      (ha : s.ledger.applyDiff m = (l, .error e)) :
      Handled s m ({ s with ledger := l } : Synchronizer).restore (.error e)
  /-- a late diff that failed, or made a newer one fail -/
  | reverted {l : Ledger} {e : Error} (hf : s.Fresh m) (hl : s.isLate m = true)
      (ht : s.truncated = false)
      (ha : ({ s with window := s.grown m } : Synchronizer).rebuild =
        ({ s with window := s.grown m, ledger := l }, .error e)) :
      Handled s m ({ s with ledger := l } : Synchronizer).restore (.error e)
  | restarted {l : Ledger} {r : Except Error Nat} (hr : s.Routed m) (hk : m.kind = .snapshot)
      (hs : s.isBeforeSnapshot m = false)
      (ha : ({ s with lastSnapshot := some m, truncated := false } : Synchronizer).rebuild =
        ({ s with lastSnapshot := some m, truncated := false, ledger := l }, r)) :
      Handled s m { s with lastSnapshot := some m, truncated := false, ledger := l }
        (r.map .snapshot)
  | noted {b : Book} (hr : s.Routed m) (hk : m.kind = .trade)
      (hb : b = s.book ∨ ∃ t, b = s.book.applyTrade t) :
      Handled s m { s with ledger.book := b } (.ok .trade)

/-! ## Rebuilding and trimming -/

/-- A rebuild writes the ledger only. -/
theorem rebuild_eq (s : Synchronizer) :
    s.rebuild = ({ s with ledger := s.rebuild.1.ledger }, s.rebuild.2) := by
  unfold rebuild
  obtain ⟨l, _ | _⟩ := s.ledger.restart s.lastSnapshot
  · rfl
  · simp only
    obtain ⟨l', _ | _⟩ := l.applyDiffs s.newer <;> rfl

/-- A rebuild that succeeds has started over and applied the newer diffs. -/
theorem rebuild_ok {s : Synchronizer} {l : Ledger} {n : Nat}
    (h : s.rebuild = ({ s with ledger := l }, .ok n)) :
    ∃ l₁, s.ledger.restart s.lastSnapshot = (l₁, .ok ()) ∧
      l₁.applyDiffs s.newer = (l, .ok ()) ∧ n = s.newer.length := by
  unfold rebuild at h
  cases hstart : s.ledger.restart s.lastSnapshot with
  | mk l₁ r₁ =>
    rw [hstart] at h
    cases r₁ with
    | error e => exact absurd (congrArg Prod.snd h) (by simp)
    | ok _ =>
      simp only at h
      cases hds : l₁.applyDiffs s.newer with
      | mk l₂ r₂ =>
        rw [hds] at h
        cases r₂ with
        | error e => exact absurd (congrArg Prod.snd h) (by simp)
        | ok _ =>
          simp only [Prod.mk.injEq, Except.ok.injEq] at h
          obtain rfl : l₂ = l := congrArg ledger h.1
          exact ⟨l₁, rfl, hds, h.2.symm⟩

theorem restore_eq (s : Synchronizer) : s.restore = { s with ledger := s.restore.ledger } := by
  unfold restore
  split
  · rfl
  · rw [rebuild_eq]

theorem trim_truncated (s : Synchronizer) : s.trim.truncated =
    (s.truncated || (s.window.take (s.window.length - s.capacity)).any
      (follows s.lastSnapshot)) := by
  unfold trim follows
  cases s.lastSnapshot <;> rfl

/-! ## The cases are all there are -/

theorem not_misrouted {s : Synchronizer} {m : Message}
    (h : ¬ (m.pair ≠ s.pair ∨ s.book.pair ≠ s.pair)) : s.Routed m := by
  rw [not_or, not_not, not_not] at h
  exact h

theorem processDiff_handled {s : Synchronizer} {m : Message} (hr : s.Routed m)
    (hk : m.kind = .diff) : Handled s m (s.processDiff m).1 (s.processDiff m).2 := by
  unfold processDiff
  split
  · rename_i hs
    exact hk ▸ .stale hr (by rw [hk]; decide) hs
  · rename_i hs
    rw [Bool.not_eq_true] at hs
    simp only
    split
    · rename_i hd
      exact .duplicate hr hk hs hd
    · rename_i hd
      have hf : s.Fresh m := ⟨hr, hk, hs, by simpa using hd⟩
      split
      · rename_i hl
        have hlate : s.isLate m = true → s.truncated = true := by
          intro h
          rw [isLate, Bool.not_eq_true'] at h
          simpa [h] using hl
        cases ha : s.ledger.applyDiff m with
        | mk l r =>
          cases r with
          | error e => exact .refused hf hlate ha
          | ok u =>
            have := Handled.merged hf hlate ha
            unfold isLate at this
            cases hw : (s.window.dropWhile (·.notAfter m)).isEmpty <;>
              rw [hw] at this <;> exact this
      · rename_i hl
        rw [Bool.or_eq_true, not_or, Bool.not_eq_true, Bool.not_eq_true] at hl
        have he := rebuild_eq { s with window := s.grown m }
        unfold grown at he
        have hlate : s.isLate m = true := by rw [isLate, hl.1]; rfl
        rw [he]
        cases ha : ({ s with window := s.grown m } : Synchronizer).rebuild.2 with
        | error e =>
          unfold grown at ha
          rw [ha] at he ⊢
          exact .reverted hf hlate hl.2 he
        | ok n =>
          unfold grown at ha
          rw [ha] at he ⊢
          exact .rebuilt hf hlate hl.2 he

theorem processSnapshot_handled {s : Synchronizer} {m : Message} (hr : s.Routed m)
    (hk : m.kind = .snapshot) :
    Handled s m (s.processSnapshot m).1 (s.processSnapshot m).2 := by
  unfold processSnapshot
  split
  · rename_i hs
    exact hk ▸ .stale hr (by rw [hk]; decide) hs
  · rename_i hs
    rw [Bool.not_eq_true] at hs
    have ha := rebuild_eq { s with lastSnapshot := some m, truncated := false }
    have := Handled.restarted hr hk hs ha
    rw [ha]
    generalize ({ s with lastSnapshot := some m, truncated := false } : Synchronizer).rebuild.2 = r
      at this ⊢
    cases r <;> exact this

theorem processTrade_handled {s : Synchronizer} {m : Message} (hr : s.Routed m)
    (hk : m.kind = .trade) : Handled s m (s.processTrade m).1 (s.processTrade m).2 := by
  unfold processTrade
  split
  · exact .noted hr hk (.inr ⟨_, rfl⟩)
  · exact .noted hr hk (.inl rfl)

/-- **`process` does one of the things listed.** -/
theorem process_handled (s : Synchronizer) (m : Message) :
    Handled s m (s.process m).1 (s.process m).2 := by
  unfold process
  split
  · rename_i h
    exact .misrouted _ fun hr => h.elim (fun hn => hn hr.1) fun hn => hn hr.2
  · rename_i h
    have hr := not_misrouted h
    cases hk : m.kind with
    | diff => exact processDiff_handled hr hk
    | snapshot => exact processSnapshot_handled hr hk
    | trade => exact processTrade_handled hr hk

/-- Only what was routed here succeeds. -/
theorem Handled.routed {s s' : Synchronizer} {m : Message} {outcome : Except Error Applied}
    (h : Handled s m s' outcome) (hok : outcome.isOk = true) : s.Routed m := by
  cases h with
  | misrouted | refused | reverted => exact absurd hok Bool.false_ne_true
  | stale hr | duplicate hr | restarted hr | noted hr => exact hr
  | merged hf | rebuilt hf => exact hf.routed

theorem process_of_trade {s : Synchronizer} {m : Message} (hr : s.Routed m)
    (hk : m.kind = .trade) : s.process m = s.processTrade m := by
  unfold process
  rw [if_neg (not_or.mpr ⟨not_not.mpr hr.1, not_not.mpr hr.2⟩), hk]

/-- **A message that was routed here becomes a trade exactly if it is one.** -/
theorem outcome_eq_trade_iff {s : Synchronizer} {m : Message} (hr : s.Routed m) :
    (s.process m).2 = .ok .trade ↔ m.kind = .trade := by
  constructor
  · intro ho
    have h := process_handled s m
    generalize (s.process m).1 = s' at h
    generalize (s.process m).2 = outcome at ho h
    cases h with
    | misrouted | refused | reverted => exact absurd ho (by simp)
    | stale | duplicate | rebuilt => exact absurd ho (by simp)
    | merged =>
      split at ho
      · exact absurd ho (by simp)
      · exact absurd ho (by simp)
    | @restarted _ r => cases r <;> exact absurd ho (by simp [Except.map])
    | noted _ hk => exact hk
  · intro hk
    rw [process_of_trade hr hk]
    unfold processTrade
    split <;> rfl

end BookFeed.Synchronizer
