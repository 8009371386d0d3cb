import BookFeed.Proofs.Synchronizer.Step

/-!
# The window of a synchronizer

`Inv` is what every step keeps, faults included (`Handled.inv`): the window is ordered and holds
diffs only, and the last snapshot is a snapshot. With it, what the code finds by cutting the window
at a place is what a filter finds:

* a rebuild applies again the diffs that follow the last snapshot (`newer_eq`);
* a diff is a duplicate exactly if the window has one of its place and update id
  (`isDuplicate_iff`);
* as long as the window is not truncated, trimming takes away no diff that follows the last
  snapshot (`filter_follows_trim`).
-/

namespace BookFeed.Synchronizer

open Message (Ordered)

/-- What every step keeps. -/
structure Inv (s : Synchronizer) : Prop where
  ordered : Ordered s.window
  diffs : ∀ d ∈ s.window, d.kind = .diff
  base : ∀ snapshot ∈ s.lastSnapshot, snapshot.kind = .snapshot

variable {s : Synchronizer} {m d : Message}

/-! ## Before and after the last snapshot -/

theorem follows_of_not_stale (hi : s.Inv) (hk : m.kind = .diff)
    (h : s.isBeforeSnapshot m = false) : follows s.lastSnapshot m = true := by
  unfold isBeforeSnapshot at h
  unfold follows
  cases hs : s.lastSnapshot with
  | none => rfl
  | some snapshot =>
    rw [hs] at h
    have hnot : snapshot.notAfter m = true := by
      rw [← Bool.not_eq_false', Message.not_notAfter]
      simpa using h
    refine Message.before_of_notAfter hnot ?_
    rw [hi.base snapshot hs, hk]
    decide

theorem Fresh.follows (hf : s.Fresh m) (hi : s.Inv) : follows s.lastSnapshot m = true :=
  follows_of_not_stale hi hf.kind hf.not_stale

/-- **A rebuild applies again what follows the last snapshot.** -/
theorem newer_eq (h : Ordered s.window) :
    s.newer = s.window.filter (Synchronizer.follows s.lastSnapshot) := by
  unfold newer Synchronizer.follows
  cases s.lastSnapshot with
  | none => exact (List.filter_eq_self.mpr fun _ _ => rfl).symm
  | some snapshot => exact Message.dropWhile_notAfter h snapshot

/-! ## Duplicates -/

/-- **A duplicate is a diff of a place and an update id that the window has.** -/
theorem isDuplicate_iff (h : Ordered s.window) :
    isDuplicate (s.window.takeWhile (·.notAfter m)) m = true ↔
      ∃ d ∈ s.window, d.place = m.place ∧ d.updateId = m.updateId := by
  -- read backwards, what does not order after `m` starts with what stands at its place
  have hback : ((s.window.filter (·.notAfter m)).reverse).Pairwise fun a b =>
      b.sameOrder m = true → a.sameOrder m = true := by
    rw [List.pairwise_reverse]
    refine (h.filter (·.notAfter m)).imp_of_mem fun {a b} _ hb hab hsame => ?_
    have hbm := Message.notAfter_iff.mp (List.mem_filter.mp hb).2
    rw [Message.sameOrder_iff] at hsame ⊢
    omega
  unfold isDuplicate
  rw [Message.takeWhile_notAfter h, Message.takeWhile_eq_filter hback]
  simp only [List.any_eq_true, List.mem_filter, List.mem_reverse, Message.sameOrder_iff,
    Message.notAfter_iff, beq_iff_eq]
  constructor
  · rintro ⟨d, ⟨⟨hd, -⟩, hp⟩, hu⟩
    exact ⟨d, hd, hp, hu⟩
  · rintro ⟨d, hd, hp, hu⟩
    exact ⟨d, ⟨⟨hd, hp.le⟩, hp⟩, hu⟩

theorem Fresh.ne (hf : s.Fresh m) (hi : s.Inv) (hd : d ∈ s.window) (hp : d.place = m.place) :
    d.updateId ≠ m.updateId := fun hu => by
  have := (isDuplicate_iff hi.ordered).mpr ⟨d, hd, hp, hu⟩
  rw [hf.not_duplicate] at this
  exact Bool.false_ne_true this

/-! ## The grown window -/

theorem mem_grown : d ∈ s.grown m ↔ d = m ∨ d ∈ s.window := by
  unfold grown
  rw [List.mem_append, List.mem_cons, or_left_comm, ← List.mem_append,
    List.takeWhile_append_dropWhile]

theorem grown_perm (s : Synchronizer) (m : Message) : (s.grown m).Perm (m :: s.window) := by
  have h : (s.grown m).Perm
      (m :: (s.window.takeWhile (·.notAfter m) ++ s.window.dropWhile (·.notAfter m))) :=
    List.perm_middle
  rw [List.takeWhile_append_dropWhile] at h
  exact h

theorem grown_of_not_late (h : s.isLate m = false) : s.grown m = s.window ++ [m] := by
  have hnil : s.window.dropWhile (·.notAfter m) = [] := by
    simpa [isLate] using h
  have hall := List.takeWhile_append_dropWhile (p := (·.notAfter m)) (l := s.window)
  rw [hnil, List.append_nil] at hall
  rw [grown, hnil, hall]

theorem inv_grown (hi : s.Inv) (hk : m.kind = .diff) (l : Ledger) :
    ({ s with window := s.grown m, ledger := l } : Synchronizer).Inv where
  ordered := Message.ordered_insert hi.ordered m
  diffs d hd := by
    rcases mem_grown.mp hd with rfl | hd
    · exact hk
    · exact hi.diffs d hd
  base := hi.base

/-! ## Trimming -/

theorem trim_window_subset (hd : d ∈ s.trim.window) : d ∈ s.window := List.mem_of_mem_drop hd

theorem trim_eq_self (h : s.window.length ≤ s.capacity) : s.trim = s := by
  have h0 : s.window.length - s.capacity = 0 := Nat.sub_eq_zero_of_le h
  unfold trim
  simp [h0]

/-- A window that is not truncated has lost nothing that a rebuild would need. -/
theorem filter_follows_trim (ht : s.trim.truncated = false) :
    s.trim.window.filter (Synchronizer.follows s.lastSnapshot) =
      s.window.filter (Synchronizer.follows s.lastSnapshot) := by
  rw [trim_truncated, Bool.or_eq_false_iff, List.any_eq_false] at ht
  have hsplit := List.take_append_drop (s.window.length - s.capacity) s.window
  have hnone := List.filter_eq_nil_iff.mpr ht.2
  conv_rhs => rw [← hsplit, List.filter_append, hnone, List.nil_append]
  rfl

theorem inv_trim (hi : s.Inv) : s.trim.Inv where
  ordered := hi.ordered.sublist (List.drop_sublist _ _)
  diffs d hd := hi.diffs d (trim_window_subset hd)
  base := hi.base

/-! ## Every step -/

theorem inv_new (pair : String) (capacity : Nat) (book : Book) : (new pair capacity book).Inv :=
  ⟨List.Pairwise.nil, fun _ h => absurd h List.not_mem_nil, fun _ h => absurd h (by simp [new])⟩

theorem inv_restore (hi : s.Inv) : s.restore.Inv := by
  rw [restore_eq]
  exact ⟨hi.ordered, hi.diffs, hi.base⟩

/-- **Every step keeps the window in order.** -/
theorem Handled.inv {s' : Synchronizer} {outcome : Except Error Applied}
    (h : Handled s m s' outcome) (hi : s.Inv) : s'.Inv := by
  cases h with
  | misrouted | stale | duplicate => exact hi
  | merged hf _ _ => exact inv_trim (inv_grown hi hf.kind _)
  | rebuilt hf _ _ _ => exact inv_trim (inv_grown hi hf.kind _)
  | refused hf _ _ => exact inv_restore ⟨hi.ordered, hi.diffs, hi.base⟩
  | reverted hf _ _ _ => exact inv_restore ⟨hi.ordered, hi.diffs, hi.base⟩
  | restarted _ hk _ _ =>
    refine ⟨hi.ordered, hi.diffs, fun snapshot hs => ?_⟩
    rw [Option.mem_some_iff] at hs
    exact hs ▸ hk
  | noted => exact ⟨hi.ordered, hi.diffs, hi.base⟩

/-! ## Where the window and the last snapshot come from -/

variable {s' : Synchronizer} {outcome : Except Error Applied}

theorem Handled.pair_eq (h : Handled s m s' outcome) : s'.pair = s.pair := by
  cases h with
  | misrouted | stale | duplicate | merged | rebuilt | restarted | noted => rfl
  | refused | reverted => rw [restore_eq]

theorem Handled.mem_window (h : Handled s m s' outcome) (hd : d ∈ s'.window) :
    d = m ∨ d ∈ s.window := by
  cases h with
  | misrouted | stale | duplicate | restarted | noted => exact .inr hd
  | merged | rebuilt => exact mem_grown.mp (trim_window_subset hd)
  | refused | reverted =>
    rw [restore_eq] at hd
    exact .inr hd

theorem Handled.mem_lastSnapshot (h : Handled s m s' outcome) (hb : d ∈ s'.lastSnapshot) :
    d = m ∨ d ∈ s.lastSnapshot := by
  cases h with
  | misrouted | stale | duplicate | merged | rebuilt | noted => exact .inr hb
  | refused | reverted =>
    rw [restore_eq] at hb
    exact .inr hb
  | restarted => exact .inl (Option.mem_some_iff.mp hb).symm

end BookFeed.Synchronizer
