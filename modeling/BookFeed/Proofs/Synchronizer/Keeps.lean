import BookFeed.Proofs.Synchronizer.Window

/-!
# What a ledger keeps

The ledger changes in three ways only: a diff is applied to it, it starts over from the last
snapshot, or its book notes a trade. A property that these keep is kept by a rebuild
(`rebuild_keeps`) and by every step (`Handled.keeps`). Where they keep it only when they succeed, a
step that succeeds does (`Handled.keeps_ok`).
-/

namespace BookFeed

variable {P : Ledger → Prop}

theorem Ledger.applyDiffs_keeps : ∀ {ds : List Message} {l : Ledger},
    (∀ d ∈ ds, ∀ l, P l → P (l.applyDiff d).1) → P l → P (l.applyDiffs ds).1
  | [], _, _, h => h
  | m :: ds, l, hds, h => by
    have hm := hds m List.mem_cons_self l h
    simp only [applyDiffs]
    generalize l.applyDiff m = done at hm ⊢
    obtain ⟨l₁, _ | _⟩ := done
    · exact hm
    · exact applyDiffs_keeps (fun d hd => hds d (List.mem_cons_of_mem _ hd)) hm

/-- The same for diffs that keep the property where they can be applied. -/
theorem Ledger.applyDiffs_keeps_ok : ∀ {ds : List Message} {l l' : Ledger},
    (∀ d ∈ ds, ∀ l l', P l → l.applyDiff d = (l', .ok ()) → P l') → P l →
    l.applyDiffs ds = (l', .ok ()) → P l'
  | [], l, l', _, h, ha => by
    obtain rfl : l = l' := congrArg Prod.fst ha
    exact h
  | m :: ds, l, l', hds, h, ha => by
    have hm := hds m List.mem_cons_self l
    simp only [applyDiffs] at ha
    generalize l.applyDiff m = done at hm ha
    obtain ⟨l₁, _ | _⟩ := done
    · exact absurd (congrArg Prod.snd ha) (by simp)
    · exact applyDiffs_keeps_ok (fun d hd => hds d (List.mem_cons_of_mem _ hd)) (hm l₁ h rfl) ha

namespace Synchronizer

variable {s s' : Synchronizer} {m d : Message}

theorem mem_window_of_newer (h : d ∈ s.newer) : d ∈ s.window := by
  unfold newer at h
  split at h
  · exact (List.dropWhile_sublist _).subset h
  · exact h

/-- What holds after starting over, and is kept by diffs, holds after a rebuild. -/
theorem rebuild_keeps (hstart : P (s.ledger.restart s.lastSnapshot).1)
    (hdiff : ∀ d ∈ s.newer, ∀ l, P l → P (l.applyDiff d).1) : P s.rebuild.1.ledger := by
  unfold rebuild
  generalize s.ledger.restart s.lastSnapshot = started at hstart ⊢
  obtain ⟨l, _ | _⟩ := started
  · exact hstart
  · have hl := Ledger.applyDiffs_keeps hdiff hstart
    simp only at hl ⊢
    generalize l.applyDiffs s.newer = done at hl ⊢
    obtain ⟨l', _ | _⟩ := done <;> exact hl

theorem restart_of_rebuild {n : Nat} (h : s.rebuild.2 = .ok n) :
    (s.ledger.restart s.lastSnapshot).2 = .ok () := by
  unfold rebuild at h
  generalize s.ledger.restart s.lastSnapshot = started at h ⊢
  obtain ⟨l, _ | _⟩ := started
  · exact absurd h (by simp)
  · rfl

/-- **What a step does to the ledger.** A property that the diffs of the grown window, starting over
from the last snapshot and noting a trade all keep is kept by the step. -/
theorem Handled.keeps {outcome : Except Error Applied} (h : Handled s m s' outcome)
    (hi : s.Inv) (hdiff : ∀ d ∈ s.grown m, d.kind = .diff → ∀ l, P l → P (l.applyDiff d).1)
    (hstart : ∀ l, P l → P (l.restart s'.lastSnapshot).1)
    (hnote : m.kind = .trade → ∀ l t, P l → P { l with book := l.book.applyTrade t })
    (hp : P s.ledger) : P s'.ledger := by
  have hold : ∀ d ∈ s.window, ∀ l, P l → P (l.applyDiff d).1 := fun d hd =>
    hdiff d (mem_grown.mpr (.inr hd)) (hi.diffs d hd)
  have hnew : m.kind = .diff → P (s.ledger.applyDiff m).1 := fun hk =>
    hdiff m (mem_grown.mpr (.inl rfl)) hk _ hp
  have hrestore : ∀ l, P l → (∀ l, P l → P (l.restart s.lastSnapshot).1) →
      P ({ s with ledger := l } : Synchronizer).restore.ledger := by
    intro l hl hstart
    unfold restore
    split
    · exact hl
    · exact rebuild_keeps (s := { s with ledger := l }) (hstart l hl)
        fun d hd => hold d (mem_window_of_newer hd)
  have hgrown : m.kind = .diff → (∀ l, P l → P (l.restart s.lastSnapshot).1) →
      P ({ s with window := s.grown m } : Synchronizer).rebuild.1.ledger := by
    intro hk hstart
    refine rebuild_keeps (s := { s with window := s.grown m }) (hstart _ hp) fun d hd => ?_
    have hd : d ∈ s.grown m := mem_window_of_newer hd
    refine hdiff d hd ?_
    rcases mem_grown.mp hd with rfl | hd
    · exact hk
    · exact hi.diffs d hd
  cases h with
  | misrouted | stale | duplicate => exact hp
  | merged hf _ ha =>
    have := hnew hf.kind
    rw [ha] at this
    exact this
  | rebuilt hf _ _ ha =>
    have := hgrown hf.kind hstart
    rw [ha] at this
    exact this
  | refused hf _ ha =>
    rw [restore_eq] at hstart
    have := hnew hf.kind
    rw [ha] at this
    exact hrestore _ this hstart
  | reverted hf _ _ ha =>
    rw [restore_eq] at hstart
    have := hgrown hf.kind hstart
    rw [ha] at this
    exact hrestore _ this hstart
  | restarted _ _ _ ha =>
    have := rebuild_keeps (s := { s with lastSnapshot := some m, truncated := false })
      (hstart _ hp) fun d hd =>
        hold d (mem_window_of_newer (s := { s with lastSnapshot := some m }) hd)
    rw [ha] at this
    exact this
  | noted _ hk hb =>
    rcases hb with rfl | ⟨t, rfl⟩
    · exact hp
    · exact hnote hk _ t hp

/-- **What a step that succeeds does to the ledger.** Starting over needs no property before it. -/
theorem Handled.keeps_ok {outcome : Except Error Applied} (h : Handled s m s' outcome)
    (hok : outcome.isOk = true) (hi : s.Inv)
    (hdiff : ∀ d ∈ s.grown m, d.kind = .diff → ∀ l l', P l → l.applyDiff d = (l', .ok ()) → P l')
    (hstart : ∀ l l' : Ledger, l.restart s'.lastSnapshot = (l', .ok ()) → P l')
    (hnote : m.kind = .trade → ∀ l t, P l → P { l with book := l.book.applyTrade t })
    (hp : P s.ledger) : P s'.ledger := by
  cases h with
  | misrouted | refused | reverted => exact absurd hok Bool.false_ne_true
  | stale | duplicate => exact hp
  | merged hf _ ha => exact hdiff m (mem_grown.mpr (.inl rfl)) hf.kind _ _ hp ha
  | @rebuilt l _ hf _ _ ha =>
    obtain ⟨l₁, hl₁, hds, -⟩ := rebuild_ok ha
    refine Ledger.applyDiffs_keeps_ok (fun d hd => ?_) (hstart _ _ hl₁) hds
    have hd : d ∈ s.grown m := mem_window_of_newer hd
    exact hdiff d hd ((inv_grown hi hf.kind l).diffs d hd)
  | @restarted l r _ _ _ ha =>
    cases r with
    | error e => exact absurd hok Bool.false_ne_true
    | ok n =>
      obtain ⟨l₁, hl₁, hds, -⟩ := rebuild_ok ha
      refine Ledger.applyDiffs_keeps_ok (fun d hd => ?_) (hstart _ _ hl₁) hds
      have hd : d ∈ s.window := mem_window_of_newer (s := { s with lastSnapshot := some m }) hd
      exact hdiff d (mem_grown.mpr (.inr hd)) (hi.diffs d hd)
  | noted _ hk hb =>
    rcases hb with rfl | ⟨t, rfl⟩
    · exact hp
    · exact hnote hk _ t hp

end Synchronizer

end BookFeed
