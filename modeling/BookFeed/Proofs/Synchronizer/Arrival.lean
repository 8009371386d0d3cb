import BookFeed.Proofs.Synchronizer.Base
import BookFeed.Proofs.Synchronizer.Highest
import Mathlib.Data.Finset.Card
import Mathlib.Data.List.Sort

/-!
# The order of arrival does not count

A run that fails nowhere and has room for every diff ends in a state that depends on the messages
alone. `Told` says what such a run knows of the messages it was told: the last snapshot is the
highest one, and the window has every diff that follows it, each once. Two runs that were told the
same therefore have the same base and the same diffs to apply to it, and the rest is
`faithful_run`.

* `Handled.told`: every step that succeeds keeps `Told`;
* `Told.lastSnapshot_eq`, `Told.newer_eq`: what is known decides the base and the diffs;
* **`run_eq_of_toFinset_eq`**: both sides of the book, the snapshot it shows and the whole order
  state are the same after every order of arrival, redeliveries included. With price levels and
  rising update ids, the highest update is the same too.
-/

namespace BookFeed

namespace Message

/-- Distinct diffs have distinct times, and so have distinct snapshots. -/
def DistinctTimes (ms : Finset Message) : Prop :=
  ∀ a ∈ ms, ∀ b ∈ ms, a.kind ≠ .trade → a.kind = b.kind → a.timestamp = b.timestamp → a = b

/-- Update ids never fall from a message of the book to a later one. -/
def IdsRise (ms : Finset Message) : Prop :=
  ∀ a ∈ ms, ∀ b ∈ ms, a.kind ≠ .trade → b.kind ≠ .trade → a.before b = true →
    a.updateId ≤ b.updateId

instance (ms : Finset Message) : Decidable (DistinctTimes ms) :=
  inferInstanceAs (Decidable (∀ a ∈ ms, ∀ b ∈ ms, _))

instance (ms : Finset Message) : Decidable (IdsRise ms) :=
  inferInstanceAs (Decidable (∀ a ∈ ms, ∀ b ∈ ms, _))

variable {M : Finset Message} {a b : Message} {ds : List Message}

theorem DistinctTimes.eq_of_place (hM : DistinctTimes M) (ha : a ∈ M) (hb : b ∈ M)
    (hk : a.kind ≠ .trade) (hp : a.place = b.place) : a = b :=
  hM a ha b hb hk (place_eq_iff.mp hp).2 (place_eq_iff.mp hp).1

/-- Each message stands strictly before those that come later in the list. -/
def StrictlyOrdered (ds : List Message) : Prop := ds.Pairwise fun a b => a.place < b.place

/-- Diffs at distinct places are at most as many as there are. -/
theorem StrictlyOrdered.length_le (h : StrictlyOrdered ds)
    (hds : ∀ d ∈ ds, d ∈ M ∧ d.kind = .diff) : ds.length ≤ (M.filter (·.kind = .diff)).card := by
  have hnodup : ds.Nodup := h.imp fun {a b} hab he => by
    rw [he] at hab
    exact lt_irrefl _ hab
  rw [← List.toFinset_card_of_nodup hnodup]
  refine Finset.card_le_card fun d hd => ?_
  exact Finset.mem_filter.mpr (hds d (List.mem_toFinset.mp hd))

/-- Diffs at distinct places have distinct keys. -/
theorem StrictlyOrdered.nodup_keys (h : StrictlyOrdered ds) (hds : ∀ d ∈ ds, d.kind = .diff) :
    (ds.map RestingOrders.keyOf).Nodup := by
  refine List.pairwise_map.mpr (List.Pairwise.imp_of_mem (fun {a b} ha hb hab hk => ?_) h)
  have htime : a.timestamp = b.timestamp := congrArg (fun k => (⟨k.time⟩ : Binary64)) hk
  have hp : a.place = b.place := place_eq_iff.mpr ⟨htime, (hds a ha).trans (hds b hb).symm⟩
  exact lt_irrefl _ (hp ▸ hab)

/-- Strictly ordered lists of the same messages are equal. -/
theorem StrictlyOrdered.eq_of_mem_iff {ds₁ ds₂ : List Message} (h₁ : StrictlyOrdered ds₁)
    (h₂ : StrictlyOrdered ds₂) (h : ∀ d, d ∈ ds₁ ↔ d ∈ ds₂) : ds₁ = ds₂ := by
  have : Std.Antisymm fun a b : Message => a.place < b.place :=
    ⟨fun _ _ hab hba => absurd hab (lt_asymm hba)⟩
  have : Std.Irrefl fun a b : Message => a.place < b.place := ⟨fun _ => lt_irrefl _⟩
  exact List.Pairwise.eq_of_mem_iff h₁ h₂ h

end Message

namespace Synchronizer

open Message (DistinctTimes IdsRise StrictlyOrdered)
open Delivery (NoFault NoSnapshotFault)

variable {s s' s₁ s₂ : Synchronizer} {m d b : Message} {ms ms₁ ms₂ : List Message}
  {M : Finset Message}

/-- What a synchronizer knows that was told the messages `ms`, all of them from `M`. -/
structure Told (M : Finset Message) (ms : List Message) (s : Synchronizer) : Prop where
  inv : s.Inv
  room : (M.filter (·.kind = .diff)).card ≤ s.capacity
  heard : ∀ m ∈ ms, m ∈ M
  window_heard : ∀ d ∈ s.window, d ∈ ms
  base_heard : ∀ b ∈ s.lastSnapshot, b ∈ ms
  whole : s.truncated = false
  strict : StrictlyOrdered s.window
  /-- every diff that counts is in the window -/
  full : ∀ d ∈ ms, d.kind = .diff → follows s.lastSnapshot d = true → d ∈ s.window
  /-- no snapshot is higher than the last one -/
  last : ∀ m ∈ ms, m.kind = .snapshot → ∃ b ∈ s.lastSnapshot, m.place ≤ b.place

/-! ## Every step -/

/-- A diff that is not in the window stands at a place of its own. -/
theorem Told.strict_grown (hM : DistinctTimes M) (ht : s.Told M ms) (hf : s.Fresh m)
    (hm : m ∈ M) : StrictlyOrdered (s.grown m) := by
  have hne : (m :: s.window).Pairwise fun a b => a.place ≠ b.place := by
    refine List.pairwise_cons.mpr ⟨fun d hd hp => ?_, ht.strict.imp fun h => h.ne⟩
    have heq := hM.eq_of_place hm (ht.heard d (ht.window_heard d hd)) (by rw [hf.kind]; decide) hp
    exact hf.ne ht.inv hd hp.symm (congrArg Message.updateId heq.symm)
  have hgrown := (grown_perm s m).symm.pairwise hne fun h => h.symm
  exact ((inv_grown ht.inv hf.kind s.ledger).ordered.and hgrown).imp fun h => lt_of_le_of_ne h.1 h.2

/-- Taking in a diff. -/
theorem Told.grow (hM : DistinctTimes M) (ht : s.Told M ms) (hf : s.Fresh m) (hm : m ∈ M)
    (l : Ledger) :
    ({ s with window := s.grown m, ledger := l } : Synchronizer).trim.Told M (ms ++ [m]) := by
  have hheard : ∀ d ∈ ms ++ [m], d ∈ M := by
    intro d hd
    rcases List.mem_append.mp hd with hd | hd
    · exact ht.heard d hd
    · exact List.mem_singleton.mp hd ▸ hm
  have hwindow : ∀ d ∈ s.grown m, d ∈ ms ++ [m] := by
    intro d hd
    rcases mem_grown.mp hd with rfl | hd
    · exact List.mem_concat_self
    · exact List.mem_append_left _ (ht.window_heard d hd)
  have hinv := inv_grown ht.inv hf.kind l
  have hstrict := ht.strict_grown hM hf hm
  have hlength : (s.grown m).length ≤ s.capacity :=
    (hstrict.length_le fun d hd => ⟨hheard d (hwindow d hd), hinv.diffs d hd⟩).trans ht.room
  rw [trim_eq_self hlength]
  refine ⟨hinv, ht.room, hheard, hwindow, fun b hb => List.mem_append_left _ (ht.base_heard b hb),
    ht.whole, hstrict, fun d hd hk hfollows => ?_, fun d hd hk => ?_⟩
  · rcases List.mem_append.mp hd with hd | hd
    · exact mem_grown.mpr (.inr (ht.full d hd hk hfollows))
    · exact mem_grown.mpr (.inl (List.mem_singleton.mp hd))
  · rcases List.mem_append.mp hd with hd | hd
    · exact ht.last d hd hk
    · rw [List.mem_singleton.mp hd, hf.kind] at hk
      exact absurd hk (by decide)

/-- A message that changes neither the window nor the base has to be known. -/
theorem Told.same (ht : s.Told M ms) (hm : m ∈ M) (l : Ledger)
    (hfull : m.kind = .diff → follows s.lastSnapshot m = true → m ∈ s.window)
    (hlast : m.kind = .snapshot → ∃ b ∈ s.lastSnapshot, m.place ≤ b.place) :
    ({ s with ledger := l } : Synchronizer).Told M (ms ++ [m]) := by
  refine ⟨⟨ht.inv.ordered, ht.inv.diffs, ht.inv.base⟩, ht.room, fun d hd => ?_,
    fun d hd => List.mem_append_left _ (ht.window_heard d hd),
    fun b hb => List.mem_append_left _ (ht.base_heard b hb), ht.whole, ht.strict,
    fun d hd hk hfollows => ?_, fun d hd hk => ?_⟩
  all_goals rcases List.mem_append.mp hd with hd | hd
  · exact ht.heard d hd
  · exact List.mem_singleton.mp hd ▸ hm
  · exact ht.full d hd hk hfollows
  · obtain rfl := List.mem_singleton.mp hd
    exact hfull hk hfollows
  · exact ht.last d hd hk
  · obtain rfl := List.mem_singleton.mp hd
    exact hlast hk

/-- A snapshot that is not stale is the highest so far. -/
theorem le_of_not_stale (h : s.isBeforeSnapshot m = false) (hb : b ∈ s.lastSnapshot) :
    b.place ≤ m.place := by
  unfold isBeforeSnapshot at h
  rw [Option.mem_def.mp hb] at h
  have hnot : b.notAfter m = true := by
    rw [← Bool.not_eq_false', Message.not_notAfter]
    exact h
  exact Message.notAfter_iff.mp hnot

theorem follows_iff : follows (some b) m = true ↔ b.place < m.place := Message.before_iff

/-- **Every step that succeeds keeps what is known.** -/
theorem Handled.told {outcome : Except Error Applied} (h : Handled s m s' outcome)
    (hok : outcome.isOk = true) (hM : DistinctTimes M) (ht : s.Told M ms) (hm : m ∈ M) :
    s'.Told M (ms ++ [m]) := by
  cases h with
  | misrouted | refused | reverted => exact absurd hok Bool.false_ne_true
  | stale _ _ hs =>
    obtain ⟨b, hb, hbefore⟩ := (Option.any_eq_true _ _).mp hs
    rw [Message.before_iff] at hbefore
    refine ht.same hm s.ledger (fun _ hfollows => ?_) fun _ => ⟨b, hb, hbefore.le⟩
    rw [hb, follows_iff] at hfollows
    exact absurd hbefore (lt_asymm hfollows)
  | duplicate _ hk _ hd =>
    refine ht.same hm s.ledger (fun _ _ => ?_) fun hk' => absurd (hk.symm.trans hk') (by decide)
    obtain ⟨d, hd, hp, -⟩ := (isDuplicate_iff ht.inv.ordered).mp hd
    have heq := hM.eq_of_place hm (ht.heard d (ht.window_heard d hd)) (by rw [hk]; decide) hp.symm
    exact heq ▸ hd
  | merged hf _ _ => exact ht.grow hM hf hm _
  | rebuilt hf _ _ _ => exact ht.grow hM hf hm _
  | restarted _ hk hs _ =>
    refine ⟨⟨ht.inv.ordered, ht.inv.diffs, fun b hb => ?_⟩, ht.room, fun d hd => ?_,
      fun d hd => List.mem_append_left _ (ht.window_heard d hd), fun b hb => ?_, rfl, ht.strict,
      fun d hd hd' hfollows => ?_, fun d hd hk' => ⟨m, rfl, ?_⟩⟩
    · exact Option.mem_some_iff.mp hb ▸ hk
    · rcases List.mem_append.mp hd with hd | hd
      · exact ht.heard d hd
      · exact List.mem_singleton.mp hd ▸ hm
    · exact Option.mem_some_iff.mp hb ▸ List.mem_concat_self
    · rcases List.mem_append.mp hd with hd | hd
      · refine ht.full d hd hd' ?_
        rw [follows_iff] at hfollows
        cases hbase : s.lastSnapshot with
        | none => rfl
        | some b => exact follows_iff.mpr ((le_of_not_stale hs hbase).trans_lt hfollows)
      · rw [List.mem_singleton.mp hd, hk] at hd'
        exact absurd hd' (by decide)
    · rcases List.mem_append.mp hd with hd | hd
      · obtain ⟨b, hb, hle⟩ := ht.last d hd hk'
        exact hle.trans (le_of_not_stale hs hb)
      · exact (congrArg Message.place (List.mem_singleton.mp hd)).le
  | noted _ hk _ =>
    exact ht.same hm _ (fun hk' => absurd (hk.symm.trans hk') (by decide))
      fun hk' => absurd (hk.symm.trans hk') (by decide)

theorem told_run {pair bookPair : String} {capacity : Nat} (hM : DistinctTimes M)
    (hroom : (M.filter (·.kind = .diff)).card ≤ capacity) (hms : ∀ m ∈ ms, m ∈ M)
    (h : NoFault ((initial pair bookPair capacity).history ms)) :
    ((initial pair bookPair capacity).run ms).Told M ms := by
  induction ms using List.reverseRecOn with
  | nil =>
    have hnone : ∀ m : Message, m ∉ ([] : List Message) := fun _ => List.not_mem_nil
    exact ⟨inv_new pair capacity _, hroom.trans (Nat.le_max_right 1 capacity),
      fun m hm => absurd hm (hnone m), fun m hm => absurd hm (hnone m),
      fun m hm => absurd hm (by simp [run, initial, new]), rfl, List.Pairwise.nil,
      fun m hm => absurd hm (hnone m), fun m hm => absurd hm (hnone m)⟩
  | append_singleton ms m ih =>
    rw [history_concat, Delivery.noFault_concat] at h
    rw [run_concat]
    exact (process_handled _ m).told h.2 hM
      (ih (fun d hd => hms d (List.mem_append_left _ hd)) h.1) (hms m List.mem_concat_self)

/-! ## What is known decides -/

/-- Synchronizers that were told the same have the same base. -/
theorem Told.lastSnapshot_eq (hM : DistinctTimes M) (t₁ : s₁.Told M ms₁) (t₂ : s₂.Told M ms₂)
    (hmem : ∀ m, m ∈ ms₁ ↔ m ∈ ms₂) : s₁.lastSnapshot = s₂.lastSnapshot := by
  have h₁ : ∀ b ∈ s₁.lastSnapshot, ∃ b' ∈ s₂.lastSnapshot, b.place ≤ b'.place := fun b hb =>
    t₂.last b ((hmem b).mp (t₁.base_heard b hb)) (t₁.inv.base b hb)
  have h₂ : ∀ b ∈ s₂.lastSnapshot, ∃ b' ∈ s₁.lastSnapshot, b.place ≤ b'.place := fun b hb =>
    t₁.last b ((hmem b).mpr (t₂.base_heard b hb)) (t₂.inv.base b hb)
  cases hb₁ : s₁.lastSnapshot with
  | none =>
    cases hb₂ : s₂.lastSnapshot with
    | none => rfl
    | some b =>
      obtain ⟨b', hb', -⟩ := h₂ b hb₂
      exact absurd (hb₁.symm.trans hb') (by simp)
  | some b =>
    obtain ⟨b', hb', hle⟩ := h₁ b hb₁
    obtain ⟨b'', hb'', hle'⟩ := h₂ b' hb'
    obtain rfl : b = b'' := Option.some.inj (hb₁.symm.trans hb'')
    have hmem₁ := t₁.heard b (t₁.base_heard b hb₁)
    have hmem₂ := t₂.heard b' (t₂.base_heard b' hb')
    have hkind : b.kind ≠ .trade := by
      rw [t₁.inv.base b hb₁]
      decide
    have heq := hM.eq_of_place hmem₁ hmem₂ hkind (le_antisymm hle hle')
    rw [heq]
    exact hb'.symm

/-- They also have the same diffs to apply to it. -/
theorem Told.newer_eq (hM : DistinctTimes M) (t₁ : s₁.Told M ms₁) (t₂ : s₂.Told M ms₂)
    (hmem : ∀ m, m ∈ ms₁ ↔ m ∈ ms₂) :
    s₁.window.filter (follows s₁.lastSnapshot) = s₂.window.filter (follows s₂.lastSnapshot) := by
  have hbase := t₁.lastSnapshot_eq hM t₂ hmem
  refine StrictlyOrdered.eq_of_mem_iff (List.Pairwise.filter _ t₁.strict)
    (List.Pairwise.filter _ t₂.strict) fun d => ?_
  rw [List.mem_filter, List.mem_filter, hbase]
  constructor
  · rintro ⟨hd, hf⟩
    exact ⟨t₂.full d ((hmem d).mp (t₁.window_heard d hd)) (t₁.inv.diffs d hd) hf, hf⟩
  · rintro ⟨hd, hf⟩
    exact ⟨t₁.full d ((hmem d).mpr (t₂.window_heard d hd)) (t₂.inv.diffs d hd) (hbase ▸ hf), hf⟩

/-! ## The highest update -/

/-- With price levels and rising ids, nothing a synchronizer was told goes beyond the replay of what
it knows. -/
theorem Told.within_replay {pair : String} {l : Ledger} (hM : DistinctTimes M)
    (hlevels : ∀ m ∈ M, m.kind ≠ .trade → m.isLevels = true) (hrise : IdsRise M)
    (ht : s.Told M ms)
    (hr : Ledger.replay pair s.lastSnapshot (s.window.filter (follows s.lastSnapshot)) =
      (l, .ok ())) (hm : m ∈ ms) : m.Within l.book.appliedId := by
  have hmM := ht.heard m hm
  have hdiff : ∀ d ∈ s.window.filter (follows s.lastSnapshot), d.kind = .diff := fun d hd =>
    ht.inv.diffs d (List.mem_filter.mp hd).1
  have hlev : ∀ d ∈ s.window.filter (follows s.lastSnapshot), d.isLevels = true := by
    intro d hd
    exact hlevels d (ht.heard d (ht.window_heard d (List.mem_filter.mp hd).1))
      (by rw [hdiff d hd]; decide)
  have hbaseM : ∀ b ∈ s.lastSnapshot, b ∈ M ∧ b.kind ≠ .trade := fun b hb =>
    ⟨ht.heard b (ht.base_heard b hb), by rw [ht.inv.base b hb]; decide⟩
  obtain ⟨hbase, hds⟩ := Ledger.le_replay_appliedId hr
    (fun b hb => hlevels b (hbaseM b hb).1 (hbaseM b hb).2) hlev
    (StrictlyOrdered.nodup_keys (List.Pairwise.filter _ ht.strict) hdiff)
  -- what stands before the base has no higher id
  have hbefore : m.kind ≠ .trade → ∀ b ∈ s.lastSnapshot, m.place < b.place →
      m.updateId ≤ l.book.appliedId := fun hk b hb hlt =>
    UInt64.le_trans
      (hrise m hmM b (hbaseM b hb).1 hk (hbaseM b hb).2 (Message.before_iff.mpr hlt)) (hbase b hb)
  unfold Message.Within
  cases hk : m.kind with
  | trade => trivial
  | snapshot =>
    obtain ⟨b, hb, hle⟩ := ht.last m hm hk
    rcases hle.lt_or_eq with hlt | heq
    · exact hbefore (by rw [hk]; decide) b hb hlt
    · obtain rfl := hM.eq_of_place hmM (hbaseM b hb).1 (by rw [hk]; decide) heq
      exact hbase m hb
  | diff =>
    have hnt : m.kind ≠ .trade := by rw [hk]; decide
    refine ⟨hlevels m hmM hnt, fun hrows => ?_⟩
    cases hf : follows s.lastSnapshot m with
    | true => exact hds m (List.mem_filter.mpr ⟨ht.full m hm hk hf, hf⟩) hrows
    | false =>
      cases hb : s.lastSnapshot with
      | none =>
        rw [hb] at hf
        exact absurd hf.symm Bool.false_ne_true
      | some b =>
        rw [hb, ← Bool.not_eq_true, follows_iff, not_lt] at hf
        have hne : m.place ≠ b.place := fun he => by
          have hkb := (Message.place_eq_iff.mp he).2
          rw [hk, ht.inv.base b hb] at hkb
          exact absurd hkb (by decide)
        exact hbefore hnt b hb (lt_of_le_of_ne hf hne)

/-- **The order of arrival does not count.** Let two new synchronizers of a pair be told the same
messages, each in an order of its own and as often as it likes, where distinct diffs have distinct
times, distinct snapshots have distinct times, the window has room for every diff and no call fails.
Then both sides of the book, the snapshot it shows and the whole order state are the same. If all
messages of the book are price levels and their update ids never fall, the highest update is the
same as well. -/
theorem run_eq_of_toFinset_eq (pair : String) (capacity : Nat) (M : Finset Message)
    (ms₁ ms₂ : List Message) (hM : DistinctTimes M)
    (hroom : (M.filter (·.kind = .diff)).card ≤ capacity)
    (h₁ : ms₁.toFinset = M) (h₂ : ms₂.toFinset = M)
    (hok₁ : NoFault ((initial pair pair capacity).history ms₁))
    (hok₂ : NoFault ((initial pair pair capacity).history ms₂)) :
    let s₁ := (initial pair pair capacity).run ms₁
    let s₂ := (initial pair pair capacity).run ms₂
    s₁.book.bids = s₂.book.bids ∧ s₁.book.asks = s₂.book.asks ∧
      s₁.book.snapshotId = s₂.book.snapshotId ∧ s₁.orders = s₂.orders ∧
      ((∀ m ∈ M, m.kind ≠ .trade → m.isLevels = true) → IdsRise M →
        s₁.book.appliedId = s₂.book.appliedId) := by
  intro s₁ s₂
  have hmem₁ : ∀ m, m ∈ ms₁ ↔ m ∈ M := fun m => h₁ ▸ List.mem_toFinset.symm
  have hmem₂ : ∀ m, m ∈ ms₂ ↔ m ∈ M := fun m => h₂ ▸ List.mem_toFinset.symm
  have hmem : ∀ m, m ∈ ms₁ ↔ m ∈ ms₂ := fun m => (hmem₁ m).trans (hmem₂ m).symm
  have t₁ : s₁.Told M ms₁ := told_run hM hroom (fun m hm => (hmem₁ m).mp hm) hok₁
  have t₂ : s₂.Told M ms₂ := told_run hM hroom (fun m hm => (hmem₂ m).mp hm) hok₂
  have hbase := t₁.lastSnapshot_eq hM t₂ hmem
  have hnewer := t₁.newer_eq hM t₂ hmem
  obtain ⟨l, hr₁, hs₁⟩ := (faithful_run hok₁.noSnapshotFault).1 t₁.whole
  obtain ⟨l', hr₂, hs₂⟩ := (faithful_run hok₂.noSnapshotFault).1 t₂.whole
  have heq : l = l' := by
    have h : Ledger.replay pair s₁.lastSnapshot (s₁.window.filter (follows s₁.lastSnapshot)) =
        (l, .ok ()) := hr₁
    rw [hnewer, hbase] at h
    exact congrArg Prod.fst (h.symm.trans hr₂)
  subst heq
  refine ⟨hs₁.bids.trans hs₂.bids.symm, hs₁.asks.trans hs₂.asks.symm, ?_,
    hs₁.orders.trans hs₂.orders.symm, fun hlevels hrise => ?_⟩
  · have hid₁ := (run_shows hok₁.noSnapshotFault).snapshotId
    have hid₂ := (run_shows hok₂.noSnapshotFault).snapshotId
    exact hid₁.trans ((congrArg baseId hbase).trans hid₂.symm)
  · have hle₁ := run_appliedId_le pair pair capacity fun m hm =>
      t₁.within_replay hM hlevels hrise hr₁ hm
    have hle₂ := run_appliedId_le pair pair capacity fun m hm =>
      t₂.within_replay hM hlevels hrise hr₂ hm
    have heq₁ : s₁.book.appliedId = l.book.appliedId := UInt64.le_antisymm hle₁ hs₁.appliedId
    have heq₂ : s₂.book.appliedId = l.book.appliedId := UInt64.le_antisymm hle₂ hs₂.appliedId
    exact heq₁.trans heq₂.symm

/-- Two diffs and two snapshots: each in order, and then the other way round with a redelivery. -/
theorem run_eq_of_toFinset_eq_reversed :
    let start := initial "BTC-USDT" "BTC-USDT" 2
    let old := sampleSnapshot 5 1 (.ofNat 90) (.ofNat 120)
    let new := sampleSnapshot 20 3 (.ofNat 100) (.ofNat 110)
    let early := sampleDiff 10 2 (.ofNat 101)
    let late := sampleDiff 30 4 (.ofNat 102)
    let forth := [old, early, new, late]
    let back := [late, new, early, late, old]
    NoFault (start.history forth) ∧ NoFault (start.history back) ∧
      (start.run forth).book.bids = (start.run back).book.bids ∧
      (start.run forth).book.asks = (start.run back).book.asks ∧
      (start.run forth).book.snapshotId = (start.run back).book.snapshotId ∧
      (start.run forth).orders = (start.run back).orders ∧
      (start.run forth).book.appliedId = (start.run back).book.appliedId := by
  intro start old new early late forth back
  have hok₁ : NoFault (start.history forth) := by decide
  have hok₂ : NoFault (start.history back) := by decide
  obtain ⟨hbids, hasks, hid, horders, hhighest⟩ :=
    run_eq_of_toFinset_eq "BTC-USDT" 2 forth.toFinset forth back (by decide) (by decide) rfl
      (by decide) hok₁ hok₂
  exact ⟨hok₁, hok₂, hbids, hasks, hid, horders, hhighest (by decide) (by decide)⟩

end Synchronizer

end BookFeed
