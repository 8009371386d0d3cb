import BookFeed.Proofs.Synchronizer.Base

/-!
# No diff is twice in the window

The window is searched only among the entries at the place of a diff, so what it answers depends on
how it is kept. `Exclusive` says what every step keeps besides the order of the window (`Inv`), also
a step that fails: its entries were routed here, they fit, and no two of them have the same time and
the same update id. Times are the same if their bits are, as in the message order.

* `run_keeps`: what every step keeps holds after every run;
* `outcome_eq_duplicate_iff`: which diffs are answered as duplicates;
* **`run_window`**: the window after any messages.
-/

namespace BookFeed.Synchronizer

variable {s s' : Synchronizer} {m d : Message} {ms : List Message}
  {outcome : Except Error Applied}

/-- What every step keeps holds after every run. -/
theorem run_keeps {P : Synchronizer → Prop} (hstep : ∀ s, ∀ m ∈ ms, P s → P (s.process m).1)
    (h : P s) : P (s.run ms) := by
  induction ms generalizing s with
  | nil => exact h
  | cons m ms ih =>
    exact ih (fun s m' hm' => hstep s m' (List.mem_cons_of_mem _ hm'))
      (hstep s m List.mem_cons_self h)

/-- Two diffs are told apart by their time or by their update id. -/
def Apart (a b : Message) : Prop := ¬ (a.timestamp = b.timestamp ∧ a.updateId = b.updateId)

theorem Apart.symm {a b : Message} (h : Apart a b) : Apart b a :=
  fun hsame => h ⟨hsame.1.symm, hsame.2.symm⟩

/-- What every step keeps of the entries of the window. -/
structure Exclusive (s : Synchronizer) : Prop where
  routed : ∀ d ∈ s.window, s.Routed d
  apart : s.window.Pairwise Apart
  fits : s.window.length ≤ s.capacity

/-! ## Single steps -/

theorem same_iff (hm : m.kind = .diff) (hd : d.kind = .diff) :
    d.place = m.place ↔ d.timestamp = m.timestamp := by
  rw [Message.place_eq_iff, hm, hd, and_iff_left rfl]

/-- The window has an entry with the time and the update id of the diff exactly if the search finds
one. -/
theorem Inv.isDuplicate_iff (hi : s.Inv) (hk : m.kind = .diff) :
    isDuplicate (s.window.takeWhile (·.notAfter m)) m = true ↔
      ∃ d ∈ s.window, d.timestamp = m.timestamp ∧ d.updateId = m.updateId := by
  rw [Synchronizer.isDuplicate_iff hi.ordered]
  refine exists_congr fun d => and_congr_right fun hd => ?_
  rw [same_iff hk (hi.diffs d hd)]

/-- A fresh diff is apart from all entries, and so it is wherever it goes in. -/
theorem Exclusive.apart_grown (h : s.Exclusive) (hi : s.Inv) (hf : s.Fresh m) :
    (s.grown m).Pairwise Apart := by
  rw [(grown_perm s m).pairwise_iff fun {_ _} => Apart.symm]
  refine List.pairwise_cons.mpr ⟨fun d hd hsame => ?_, h.apart⟩
  have hplace := (same_iff hf.kind (hi.diffs d hd)).mpr hsame.1.symm
  exact hf.ne hi hd hplace hsame.2.symm

theorem length_trim_le (s : Synchronizer) : s.trim.window.length ≤ s.capacity := by
  show (s.window.drop (s.window.length - s.capacity)).length ≤ s.capacity
  rw [List.length_drop]
  omega

theorem Handled.capacity_eq (h : Handled s m s' outcome) : s'.capacity = s.capacity := by
  cases h with
  | misrouted | stale | duplicate | merged | rebuilt | restarted | noted => rfl
  | refused | reverted => rw [restore_eq]

/-- Only what was routed here enters the window. -/
theorem Handled.routed_of_mem (h : Handled s m s' outcome) (hd : d ∈ s'.window) :
    s.Routed d ∨ d ∈ s.window := by
  cases h with
  | misrouted | stale | duplicate | restarted | noted => exact .inr hd
  | merged hf | rebuilt hf =>
    rcases mem_grown.mp (trim_window_subset hd) with rfl | hd
    · exact .inl hf.routed
    · exact .inr hd
  | refused | reverted =>
    rw [restore_eq] at hd
    exact .inr hd

/-- **Every step keeps the entries apart**, also one that fails. -/
theorem Handled.exclusive (h : Handled s m s' outcome) (hi : s.Inv) (hx : s.Exclusive) :
    s'.Exclusive := by
  have hpair := h.pair_eq
  have hbook := h.bookPair_eq hi
  have hrouted : ∀ d ∈ s'.window, s'.Routed d := fun d hd => by
    have hd : s.Routed d := (h.routed_of_mem hd).elim id (hx.routed d)
    exact ⟨hd.1.trans hpair.symm, hbook.trans (hd.2.trans hpair.symm)⟩
  refine ⟨hrouted, ?_, ?_⟩
  · cases h with
    | misrouted | stale | duplicate | restarted | noted => exact hx.apart
    | merged hf | rebuilt hf => exact (hx.apart_grown hi hf).sublist (List.drop_sublist _ _)
    | refused | reverted =>
      rw [restore_eq]
      exact hx.apart
  · rw [h.capacity_eq]
    cases h with
    | misrouted | stale | duplicate | restarted | noted => exact hx.fits
    | merged hf | rebuilt hf => exact length_trim_le _
    | refused | reverted =>
      rw [restore_eq]
      exact hx.fits

/-! ## What is answered -/

/-- A duplicate was routed here, is a diff that is not stale, and was found in the window. -/
theorem Handled.of_duplicate (h : Handled s m s' (.ok .duplicate)) :
    s.Routed m ∧ isDuplicate (s.window.takeWhile (·.notAfter m)) m = true := by
  generalize ho : (Except.ok .duplicate : Except Error Applied) = outcome at h
  cases h with
  | misrouted | refused | reverted => exact absurd ho (by simp)
  | stale | rebuilt | noted => exact absurd ho (by simp)
  | merged => split at ho <;> exact absurd ho (by simp)
  | @restarted _ r => cases r <;> exact absurd ho (by simp [Except.map])
  | duplicate hr _ _ hd => exact ⟨hr, hd⟩

theorem process_of_duplicate (hr : s.Routed m) (hk : m.kind = .diff)
    (hs : s.isBeforeSnapshot m = false)
    (hd : isDuplicate (s.window.takeWhile (·.notAfter m)) m = true) :
    s.process m = (s, .ok .duplicate) := by
  unfold process
  rw [if_neg (not_or.mpr ⟨not_not.mpr hr.1, not_not.mpr hr.2⟩), hk]
  simp only [processDiff, hs, hd]
  rfl

/-- **Which diffs are answered as duplicates**: of those that are not stale, the ones of the pair
whose time and update id the window has. -/
theorem outcome_eq_duplicate_iff (hi : s.Inv) (hx : s.Exclusive) (hk : m.kind = .diff)
    (hs : s.isBeforeSnapshot m = false) :
    (s.process m).2 = .ok .duplicate ↔ m.pair = s.pair ∧
      ∃ d ∈ s.window, d.timestamp = m.timestamp ∧ d.updateId = m.updateId := by
  constructor
  · intro ho
    have h := process_handled s m
    rw [ho] at h
    obtain ⟨hr, hd⟩ := h.of_duplicate
    exact ⟨hr.1, (hi.isDuplicate_iff hk).mp hd⟩
  · rintro ⟨hpair, d, hd, hsame⟩
    -- an entry shows that the book is one of the pair
    have hr : s.Routed m := ⟨hpair, (hx.routed d hd).2⟩
    rw [process_of_duplicate hr hk hs ((hi.isDuplicate_iff hk).mpr ⟨d, hd, hsame⟩)]

/-! ## Every run -/

theorem exclusive_new (pair : String) (capacity : Nat) (book : Book) :
    (new pair capacity book).Exclusive :=
  ⟨fun _ hd => absurd hd List.not_mem_nil, List.Pairwise.nil, Nat.zero_le _⟩

/-- **The window holds no diff twice.** After any messages, whether or not these were accepted, for a
new synchronizer of the pair and any book: the window is ordered as messages are, it holds diffs of
the pair only, at most as many as it has room for, and no two of them have the same time and the
same update id. A diff that is not older than the last snapshot is answered as a duplicate exactly if
it is one of the pair and the window has an entry with its time and its update id. -/
theorem run_window (pair : String) (capacity : Nat) (book : Book) (ms : List Message) :
    let s := (new pair capacity book).run ms
    (s.window.Pairwise fun a b => a.notAfter b = true) ∧
      (∀ d ∈ s.window, d.kind = .diff ∧ d.pair = pair) ∧
      (s.capacity = max 1 capacity ∧ s.window.length ≤ s.capacity) ∧
      (s.window.Pairwise fun a b => ¬ (a.timestamp = b.timestamp ∧ a.updateId = b.updateId)) ∧
      ∀ m, m.kind = .diff → s.isBeforeSnapshot m = false →
        ((s.process m).2 = .ok .duplicate ↔ m.pair = pair ∧
          ∃ d ∈ s.window, d.timestamp = m.timestamp ∧ d.updateId = m.updateId) := by
  intro s
  have hkept : s.Inv ∧ s.Exclusive ∧ s.pair = pair ∧ s.capacity = max 1 capacity := by
    refine run_keeps (P := fun s' : Synchronizer => s'.Inv ∧ s'.Exclusive ∧ s'.pair = pair ∧
      s'.capacity = max 1 capacity) (fun s' m _ ⟨hi, hx, hpair, hcapacity⟩ => ?_)
      ⟨inv_new pair capacity book, exclusive_new pair capacity book, rfl, rfl⟩
    have h := process_handled s' m
    exact ⟨h.inv hi, h.exclusive hi hx, h.pair_eq.trans hpair, h.capacity_eq.trans hcapacity⟩
  obtain ⟨hi, hx, hpair, hcapacity⟩ := hkept
  refine ⟨hi.ordered.imp Message.notAfter_iff.mpr,
    fun d hd => ⟨hi.diffs d hd, (hx.routed d hd).1.trans hpair⟩, ⟨hcapacity, hx.fits⟩, hx.apart,
    fun m hk hs => ?_⟩
  rw [← hpair]
  exact outcome_eq_duplicate_iff hi hx hk hs

/-- Two diffs of one time behind a newer one. The first of them comes again with another level, and
for another pair. -/
theorem run_window_ties :
    let ms := [sampleDiff 30 3 (.ofNat 100), sampleDiff 20 2 (.ofNat 101),
      sampleDiff 20 5 (.ofNat 102)]
    let s := (new "BTC-USDT" 3 (.empty "BTC-USDT")).run ms
    let again := sampleDiff 20 2 (.ofNat 99)
    let elsewhere : Message := { again with pair := "ETH-USDT" }
    let fresh := sampleDiff 20 3 (.ofNat 101)
    s.window = [sampleDiff 20 2 (.ofNat 101), sampleDiff 20 5 (.ofNat 102),
        sampleDiff 30 3 (.ofNat 100)] ∧
      again.kind = .diff ∧ s.isBeforeSnapshot again = false ∧
      (s.process again).2 = .ok .duplicate ∧ (s.process elsewhere).2 ≠ .ok .duplicate ∧
      (s.process fresh).2 ≠ .ok .duplicate := by
  intro ms s again elsewhere fresh
  have hwindow : s.window = [sampleDiff 20 2 (.ofNat 101), sampleDiff 20 5 (.ofNat 102),
      sampleDiff 30 3 (.ofNat 100)] := by decide
  obtain ⟨-, -, -, -, hduplicate⟩ := run_window "BTC-USDT" 3 (.empty "BTC-USDT") ms
  refine ⟨hwindow, rfl, rfl, (hduplicate again rfl rfl).mpr ⟨rfl, ?_⟩,
    mt (hduplicate elsewhere rfl rfl).mp fun h => ?_, mt (hduplicate fresh rfl rfl).mp fun h => ?_⟩
  · exact ⟨sampleDiff 20 2 (.ofNat 101), hwindow ▸ List.mem_cons_self, rfl, rfl⟩
  · exact absurd h.1 (by decide)
  · rw [show ((new "BTC-USDT" 3 (.empty "BTC-USDT")).run ms).window = _ from hwindow] at h
    exact absurd h.2 (by decide)

end BookFeed.Synchronizer
