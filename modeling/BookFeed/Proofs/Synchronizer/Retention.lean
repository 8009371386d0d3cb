import BookFeed.Proofs.Synchronizer.History

/-!
# When accepted diffs are accounted for

A diff that was accepted and still counts should be in the window, or else the window should say
that it is truncated (`Accounted`): a rebuild would lose the diff without a word. Steps with diffs
and trades keep this, evictions included. A snapshot that becomes the base takes the mark away, and
this is right only if the window has every accepted diff that is newer than the snapshot. Where it
has not, the snapshot is `Overtaken`.

* `Handled.accounted`: every step but one with an overtaken snapshot keeps `Accounted`;
* `Overtaken.not_accounted`: an overtaken snapshot always breaks it;
* **`accounted_iff`**: so all diffs are accounted for after every call of a run exactly if no
  snapshot of the run is overtaken;
* `overtaken_loses_diff`: a window of one diff, two diffs and an older snapshot are enough.
-/

namespace BookFeed.Synchronizer

variable {s s' : Synchronizer} {m d : Message} {ds : List Delivery}
  {outcome : Except Error Applied}

/-- Every diff that was accepted and orders after the last snapshot is in the window, or the window
is marked as truncated. -/
def Accounted (ds : List Delivery) (s : Synchronizer) : Prop :=
  ∀ d ∈ ds, d.isAccepted = true → follows s.lastSnapshot d.message = true →
    d.message ∈ s.window ∨ s.truncated = true

/-- The snapshot `m` becomes the base, and the window has lost an accepted diff newer than it. -/
structure Overtaken (ds : List Delivery) (s : Synchronizer) (m : Message) : Prop where
  routed : s.Routed m
  kind : m.kind = .snapshot
  not_stale : s.isBeforeSnapshot m = false
  lost : ∃ d ∈ ds, d.isAccepted = true ∧ m.before d.message = true ∧ d.message ∉ s.window

instance (ds : List Delivery) (s : Synchronizer) : Decidable (Accounted ds s) :=
  inferInstanceAs (Decidable (∀ d ∈ ds, _))

/-! ## Every step -/

/-- A diff that counts leaves the window only if the window is marked. -/
theorem mem_trim (hd : d ∈ s.window) (hf : follows s.lastSnapshot d = true) :
    d ∈ s.trim.window ∨ s.trim.truncated = true := by
  rw [← List.take_append_drop (s.window.length - s.capacity) s.window, List.mem_append] at hd
  rcases hd with hd | hd
  · rw [trim_truncated, Bool.or_eq_true]
    exact .inr (.inr (List.any_eq_true.mpr ⟨d, hd, hf⟩))
  · exact .inl hd

/-- Taking in a diff. -/
theorem Accounted.grow (ha : Accounted ds s) (l : Ledger) :
    Accounted (ds ++ [⟨m, outcome⟩])
      ({ s with window := s.grown m, ledger := l } : Synchronizer).trim := by
  intro d hd hacc hf
  rcases List.mem_append.mp hd with hd | hd
  · rcases ha d hd hacc hf with hw | ht
    · exact mem_trim (s := { s with window := s.grown m, ledger := l })
        (mem_grown.mpr (.inr hw)) hf
    · refine .inr ?_
      rw [trim_truncated, Bool.or_eq_true]
      exact .inl ht
  · obtain rfl := List.mem_singleton.mp hd
    exact mem_trim (s := { s with window := s.grown m, ledger := l }) (mem_grown.mpr (.inl rfl)) hf

/-- A message that is not taken in has nothing to be accounted for. -/
theorem Accounted.skip (ha : Accounted ds s) (hnot : Delivery.isAccepted ⟨m, outcome⟩ = false)
    (l : Ledger) : Accounted (ds ++ [⟨m, outcome⟩]) { s with ledger := l } := by
  intro d hd hacc hf
  rcases List.mem_append.mp hd with hd | hd
  · exact ha d hd hacc hf
  · obtain rfl := List.mem_singleton.mp hd
    exact absurd (hnot.symm.trans hacc) Bool.false_ne_true

/-- **Every step but one with an overtaken snapshot accounts for all diffs.** -/
theorem Handled.accounted (h : Handled s m s' outcome) (ha : Accounted ds s)
    (hnot : ¬ Overtaken ds s m) : Accounted (ds ++ [⟨m, outcome⟩]) s' := by
  cases h with
  | misrouted e _ => exact ha.skip rfl s.ledger
  | stale | duplicate => exact ha.skip rfl s.ledger
  | merged => exact ha.grow _
  | rebuilt => exact ha.grow _
  | refused =>
    rw [restore_eq]
    exact ha.skip rfl _
  | reverted =>
    rw [restore_eq]
    exact ha.skip rfl _
  | @restarted l r hr hk hs _ =>
    intro d hd hacc hf
    rcases List.mem_append.mp hd with hd | hd
    · refine .inl (by_contra fun hw => hnot ⟨hr, hk, hs, d, hd, hacc, hf, hw⟩)
    · obtain rfl := List.mem_singleton.mp hd
      exact absurd hacc (by cases r <;> exact Bool.false_ne_true)
  | noted => exact ha.skip rfl _

/-- A snapshot that is not stale becomes the base and takes the mark away. -/
theorem Handled.of_not_stale (h : Handled s m s' outcome) (hr : s.Routed m)
    (hk : m.kind = .snapshot) (hs : s.isBeforeSnapshot m = false) :
    s'.lastSnapshot = some m ∧ s'.truncated = false ∧ s'.window = s.window := by
  cases h with
  | misrouted _ hn => exact absurd hr hn
  | stale _ _ hs' => exact absurd (hs.symm.trans hs') Bool.false_ne_true
  | duplicate _ hk' | noted _ hk' => exact absurd (hk.symm.trans hk') (by decide)
  | merged hf | rebuilt hf | refused hf | reverted hf =>
    exact absurd (hk.symm.trans hf.kind) (by decide)
  | restarted => exact ⟨rfl, rfl, rfl⟩

/-- **An overtaken snapshot leaves a diff that nothing accounts for.** -/
theorem Overtaken.not_accounted (ho : Overtaken ds s m) (h : Handled s m s' outcome) :
    ¬ Accounted (ds ++ [⟨m, outcome⟩]) s' := by
  obtain ⟨hbase, htruncated, hwindow⟩ := h.of_not_stale ho.routed ho.kind ho.not_stale
  obtain ⟨d, hd, hacc, hbefore, hlost⟩ := ho.lost
  intro ha
  rcases ha d (List.mem_append_left _ hd) hacc (hbase ▸ hbefore) with hw | ht
  · exact hlost (hwindow ▸ hw)
  · exact absurd (htruncated.symm.trans ht) Bool.false_ne_true

/-! ## Every run -/

theorem accounted_run {start : Synchronizer} {ms : List Message}
    (h : ∀ p m, p ++ [m] <+: ms → ¬ Overtaken (start.history p) (start.run p) m) :
    Accounted (start.history ms) (start.run ms) := by
  induction ms using List.reverseRecOn with
  | nil => exact fun d hd => absurd hd List.not_mem_nil
  | append_singleton ms m ih =>
    rw [history_concat, run_concat]
    exact (process_handled _ m).accounted
      (ih fun p m' hp => h p m' (hp.trans (List.prefix_append ms [m])))
      (h ms m (List.prefix_refl _))

/-- **When no accepted diff is lost silently.** After every call of a run, failing calls included,
all accepted diffs that order after the last snapshot are in the window or the window is marked as
truncated, exactly if no snapshot of the run becomes the base after the window has lost an accepted
diff newer than it. -/
theorem accounted_iff (pair bookPair : String) (capacity : Nat) (ms : List Message) :
    let start := initial pair bookPair capacity
    (∀ p, p <+: ms → Accounted (start.history p) (start.run p)) ↔
      ∀ p m, p ++ [m] <+: ms → ¬ Overtaken (start.history p) (start.run p) m := by
  intro start
  constructor
  · intro h p m hp ho
    have ha := h _ hp
    rw [history_concat, run_concat] at ha
    exact ho.not_accounted (process_handled _ m) ha
  · intro h p hp
    exact accounted_run fun p' m hp' => h p' m (hp'.trans hp)

/-- **A window of one diff, two diffs and an older snapshot.** No call fails, the first diff has
left the window, the mark is gone. The next late diff is answered by a rebuild that drops the level
of the first one. -/
theorem overtaken_loses_diff :
    let first := sampleDiff 20 20 (.ofNat 20)
    let late := sampleDiff 25 25 (.ofNat 25)
    let ms := [first, sampleDiff 30 30 (.ofNat 30), sampleSnapshot 10 10 (.ofNat 10) (.ofNat 40)]
    let start := initial "BTC-USDT" "BTC-USDT" 1
    Delivery.NoFault (start.history (ms ++ [late])) ∧
      ¬ Accounted (start.history ms) (start.run ms) ∧
      (start.run (ms.take 2)).book.amount? .bid (.ofNat 20) = some (.ofNat 1) ∧
      ((start.run ms).process late).2 = .ok (.rebuilt 2) ∧
      (start.run (ms ++ [late])).book.amount? .bid (.ofNat 20) = none := by
  decide

end BookFeed.Synchronizer
