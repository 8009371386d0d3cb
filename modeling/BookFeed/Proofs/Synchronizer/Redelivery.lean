import BookFeed.Proofs.Orders.Snapshot
import BookFeed.Proofs.Synchronizer.Agreement
import BookFeed.Proofs.Synchronizer.Base
import BookFeed.Proofs.Synchronizer.Retention
import Mathlib.Data.List.Perm.Subperm

/-!
# Diffs that come again

Two filters keep a diff from being applied twice: the window, which has it until it is evicted, and
the memory of the orders, which has its key until too many others follow. A rebuild forgets all keys
and takes in those of the window instead. `taken` lists the diffs that count for the book: those
that the last accepted snapshot applied again and those accepted since. `Remembers` says that the
filters together know them all: a window that is not truncated has every one of them, and so a
rebuild finds them, while the memory knows every key as long as there are no more of them than it
holds.

* `Ledger.applied_applyDiffs`: what the memory knows after diffs;
* `Handled.remembers`: every step that succeeds keeps `Remembers`;
* **`redelivered_unchanged`**: so a diff that counts changes neither orders nor book when it comes
  again, whether or not the window still has it.
-/

namespace BookFeed

namespace RestingOrders

variable {t : RestingOrders} {m : Message}

/-- A diff that is remembered has no rows and no effect. -/
theorem applyDiff_of_mem (h : keyOf m ∈ t.applied) : t.applyDiff m = (t, .ok {}) :=
  if_pos (List.contains_iff_mem.mpr h)

end RestingOrders

namespace Ledger

open RestingOrders (keyOf memory)

variable {l l' : Ledger} {m : Message} {ds : List Message} {base : Option Message}

theorem applied_restart (h : l.restart base = (l', .ok ())) : l'.orders.applied = [] := by
  unfold restart at h
  cases base with
  | none =>
    obtain rfl := congrArg Prod.fst h
    rfl
  | some b =>
    simp only at h
    cases hb : l.orders.applySnapshot b with
    | mk orders r =>
      rw [hb] at h
      cases r with
      | error e => exact absurd (congrArg Prod.snd h) (by simp)
      | ok rows =>
        obtain rfl := congrArg Prod.fst h
        rw [← RestingOrders.applied_applySnapshot l.orders b, hb]

/-- One more diff takes one more place, and while there is one nothing is forgotten for it. -/
theorem applied_applyDiff (h : l.applyDiff m = (l', .ok ())) :
    l'.orders.applied.length ≤ l.orders.applied.length + 1 ∧
      (l.orders.applied.length < memory →
        (∀ k ∈ l.orders.applied, k ∈ l'.orders.applied) ∧ keyOf m ∈ l'.orders.applied) := by
  obtain ⟨rows, ha, -⟩ := applyDiff_ok h
  have hnoted := RestingOrders.applied_applyDiff l.orders m
  rw [ha] at hnoted
  rcases hnoted with heq | ⟨heq, hmem | ⟨e, he⟩⟩
  · rw [heq, RestingOrders.noteApplied, RestingOrders.remember]
    refine ⟨?_, fun hroom => ?_⟩
    · rw [List.length_append, List.length_singleton]
      split
      · exact Nat.succ_le_succ (List.drop_sublist 1 _).length_le
      · exact Nat.le_refl _
    · rw [if_neg (Nat.not_le.mpr hroom)]
      exact ⟨fun k hk => List.mem_append_left _ hk, List.mem_concat_self⟩
  · rw [heq]
    exact ⟨Nat.le_succ _, fun _ => ⟨fun _ hk => hk, hmem⟩⟩
  · exact absurd he (by simp)

/-- **What the memory knows after diffs.** -/
theorem applied_applyDiffs (h : l.applyDiffs ds = (l', .ok ())) :
    l'.orders.applied.length ≤ l.orders.applied.length + ds.length ∧
      (l.orders.applied.length + ds.length ≤ memory →
        (∀ k ∈ l.orders.applied, k ∈ l'.orders.applied) ∧
          ∀ d ∈ ds, keyOf d ∈ l'.orders.applied) := by
  induction ds generalizing l with
  | nil =>
    obtain rfl : l = l' := congrArg Prod.fst h
    exact ⟨Nat.le_refl _, fun _ => ⟨fun _ hk => hk, fun d hd => absurd hd List.not_mem_nil⟩⟩
  | cons m ds ih =>
    simp only [applyDiffs] at h
    cases hm : l.applyDiff m with
    | mk l₁ r =>
      rw [hm] at h
      cases r with
      | error e => exact absurd (congrArg Prod.snd h) (by simp)
      | ok u =>
        obtain ⟨hlen₁, hkeys₁⟩ := applied_applyDiff hm
        obtain ⟨hlen, hkeys⟩ := ih h
        rw [List.length_cons]
        refine ⟨by omega, fun hroom => ?_⟩
        obtain ⟨hold₁, hnew₁⟩ := hkeys₁ (by omega)
        obtain ⟨hold, hnew⟩ := hkeys (by omega)
        exact ⟨fun k hk => hold k (hold₁ k hk),
          List.forall_mem_cons.mpr ⟨hold _ hnew₁, hnew⟩⟩

/-- A diff that is remembered leaves orders and book alone. -/
theorem applyDiff_of_mem (h : keyOf m ∈ l.orders.applied) : l.applyDiff m = (l, .ok ()) := by
  rw [applyDiff, RestingOrders.applyDiff_of_mem h]
  rfl

end Ledger

namespace Synchronizer

open RestingOrders (keyOf memory)

variable {s s' : Synchronizer} {m d : Message} {ds ms : List Message}
  {outcome : Except Error Applied}

/-! ## The diffs that count -/

/-- The diffs that count after a message, where `ds` counted before it: an accepted snapshot leaves
those that it has applied again, and an accepted diff adds itself. -/
def takenIn (s : Synchronizer) (ds : List Message) (m : Message) :
    Except Error Applied → List Message
  | .ok (.snapshot _) => s.window.filter (m.before ·)
  | .ok .diff | .ok .outOfOrder | .ok (.rebuilt _) => ds ++ [m]
  | _ => ds

/-- What counts after a message was in the window, is the message, or counted before. -/
theorem mem_takenIn (h : d ∈ s.takenIn ds m outcome) : d ∈ s.window ∨ d = m ∨ d ∈ ds := by
  have hadded : d ∈ ds ++ [m] → d = m ∨ d ∈ ds := fun h =>
    (List.mem_append.mp h).symm.imp_left List.mem_singleton.mp
  unfold takenIn at h
  split at h
  case h_1 => exact .inl (List.mem_filter.mp h).1
  case h_2 | h_3 | h_4 => exact .inr (hadded h)
  case h_5 => exact .inr (.inr h)

/-- The diffs that count after messages, where `ds` counted before them. -/
def takenFrom (s : Synchronizer) (ds : List Message) : List Message → List Message
  | [] => ds
  | m :: ms => (s.process m).1.takenFrom (s.takenIn ds m (s.process m).2) ms

/-- The diffs that the snapshot accepted last has applied again, and those accepted since. -/
def taken (s : Synchronizer) (ms : List Message) : List Message := s.takenFrom [] ms

theorem takenFrom_concat (m : Message) : ∀ (ms : List Message) (s : Synchronizer)
    (ds : List Message), s.takenFrom ds (ms ++ [m]) =
      (s.run ms).takenIn (s.takenFrom ds ms) m ((s.run ms).process m).2
  | [], _, _ => rfl
  | _ :: ms, _, _ => takenFrom_concat m ms _ _

theorem taken_concat (s : Synchronizer) (ms : List Message) (m : Message) :
    s.taken (ms ++ [m]) = (s.run ms).takenIn (s.taken ms) m ((s.run ms).process m).2 :=
  takenFrom_concat m ms s []

/-! ## Window and memory know them -/

/-- Window and memory know the diffs `ds` that count. -/
structure Remembers (s : Synchronizer) (ds : List Message) : Prop where
  diffs : ∀ d ∈ ds, d.kind = .diff
  follows : ∀ d ∈ ds, follows s.lastSnapshot d = true
  /-- what a rebuild would apply again counts -/
  counted : (s.window.filter (Synchronizer.follows s.lastSnapshot)).Subperm ds
  /-- a rebuild would apply again all that counts -/
  whole : s.truncated = false → ∀ d ∈ ds, d ∈ s.window
  few : s.orders.applied.length ≤ ds.length
  keys : ds.length ≤ memory → ∀ d ∈ ds, keyOf d ∈ s.orders.applied

/-- Taking in a diff, where the ledger `l` remembers it. -/
theorem Remembers.grow (hr : s.Remembers ds) (hi : s.Inv) (hf : s.Fresh m) {l : Ledger}
    (hfew : l.orders.applied.length ≤ (ds ++ [m]).length)
    (hkeys : (ds ++ [m]).length ≤ memory → ∀ d ∈ ds ++ [m], keyOf d ∈ l.orders.applied) :
    ({ s with window := s.grown m, ledger := l } : Synchronizer).trim.Remembers (ds ++ [m]) := by
  have hfollows : ∀ d ∈ ds ++ [m], Synchronizer.follows s.lastSnapshot d = true :=
    List.forall_mem_append.mpr ⟨hr.follows, List.forall_mem_singleton.mpr (hf.follows hi)⟩
  refine ⟨List.forall_mem_append.mpr ⟨hr.diffs, List.forall_mem_singleton.mpr hf.kind⟩,
    hfollows, ?_, fun ht d hd => ?_, hfew, hkeys⟩
  · have hgrown := (grown_perm s m).filter (Synchronizer.follows s.lastSnapshot)
    rw [List.filter_cons_of_pos (hf.follows hi)] at hgrown
    refine ((List.drop_sublist _ (s.grown m)).filter _).subperm.trans (hgrown.subperm.trans ?_)
    exact ((List.subperm_cons m).mpr hr.counted).trans (List.perm_append_singleton m ds).symm.subperm
  · have hmark := ht
    rw [trim_truncated, Bool.or_eq_false_iff] at hmark
    have hd' : d ∈ s.grown m := by
      rcases List.mem_append.mp hd with hd | hd
      · exact mem_grown.mpr (.inr (hr.whole hmark.1 d hd))
      · exact mem_grown.mpr (.inl (List.mem_singleton.mp hd))
    exact (mem_trim (s := { s with window := s.grown m, ledger := l }) hd'
      (hfollows d hd)).resolve_right fun hn => Bool.false_ne_true (ht.symm.trans hn)

/-- What counts after an accepted diff is what a rebuild of a whole window applies again. -/
theorem Remembers.mem_grown_newer (hr : s.Remembers ds) (hi : s.Inv) (hf : s.Fresh m)
    (ht : s.truncated = false) (hd : d ∈ ds ++ [m]) :
    d ∈ (s.grown m).filter (Synchronizer.follows s.lastSnapshot) := by
  rcases List.mem_append.mp hd with hd | hd
  · exact List.mem_filter.mpr ⟨mem_grown.mpr (.inr (hr.whole ht d hd)), hr.follows d hd⟩
  · obtain rfl := List.mem_singleton.mp hd
    exact List.mem_filter.mpr ⟨mem_grown.mpr (.inl rfl), hf.follows hi⟩

theorem Remembers.length_grown_newer (hr : s.Remembers ds) (hi : s.Inv) (hf : s.Fresh m) :
    ((s.grown m).filter (Synchronizer.follows s.lastSnapshot)).length ≤ (ds ++ [m]).length := by
  have hgrown := ((grown_perm s m).filter (Synchronizer.follows s.lastSnapshot)).length_eq
  rw [List.filter_cons_of_pos (hf.follows hi), List.length_cons] at hgrown
  rw [hgrown, List.length_append, List.length_singleton]
  exact Nat.succ_le_succ hr.counted.length_le

/-- **Every step that succeeds keeps what window and memory know.** -/
theorem Handled.remembers (h : Handled s m s' outcome) (hok : outcome.isOk = true) (hi : s.Inv)
    (hr : s.Remembers ds) : s'.Remembers (s.takenIn ds m outcome) := by
  cases h with
  | misrouted | refused | reverted => exact absurd hok Bool.false_ne_true
  | stale | duplicate => exact hr
  | noted _ _ hb =>
    rcases hb with rfl | ⟨t, rfl⟩
    · exact hr
    · exact ⟨hr.diffs, hr.follows, hr.counted, hr.whole, hr.few, hr.keys⟩
  | @merged l hf _ ha =>
    have htaken : s.takenIn ds m (.ok (if s.isLate m then .outOfOrder else .diff)) =
        ds ++ [m] := by
      split <;> rfl
    obtain ⟨hlen, hkeys⟩ := Ledger.applied_applyDiff ha
    have hfew := hr.few
    rw [orders] at hfew
    rw [htaken]
    refine hr.grow hi hf ?_ fun hroom => ?_
    · rw [List.length_append, List.length_singleton]
      omega
    · rw [List.length_append, List.length_singleton] at hroom
      obtain ⟨hold, hnew⟩ := hkeys (by omega)
      exact List.forall_mem_append.mpr ⟨fun d hd => hold _ (hr.keys (by omega) d hd),
        List.forall_mem_singleton.mpr hnew⟩
  | @rebuilt l n hf _ ht ha =>
    obtain ⟨l₁, hstart, hds, -⟩ := rebuild_ok ha
    rw [newer_eq (inv_grown hi hf.kind s.ledger).ordered] at hds
    obtain ⟨hlen, hkeys⟩ := Ledger.applied_applyDiffs hds
    have hcount := hr.length_grown_newer hi hf
    rw [Ledger.applied_restart hstart, List.length_nil, Nat.zero_add] at hlen hkeys
    exact hr.grow hi hf (hlen.trans hcount) fun hroom d hd =>
      (hkeys (hcount.trans hroom)).2 d (hr.mem_grown_newer hi hf ht hd)
  | @restarted l r _ hk _ ha =>
    cases r with
    | error e => exact absurd hok Bool.false_ne_true
    | ok n =>
      obtain ⟨l₁, hstart, hds, -⟩ := rebuild_ok ha
      rw [newer_eq (s := { s with lastSnapshot := some m, truncated := false }) hi.ordered] at hds
      obtain ⟨hlen, hkeys⟩ := Ledger.applied_applyDiffs hds
      rw [Ledger.applied_restart hstart, List.length_nil, Nat.zero_add] at hlen hkeys
      exact ⟨fun d hd => hi.diffs d (List.mem_filter.mp hd).1,
        fun d hd => (List.mem_filter.mp hd).2, List.Subperm.refl _,
        fun _ d hd => (List.mem_filter.mp hd).1, hlen, fun hroom d hd => (hkeys hroom).2 d hd⟩

/-! ## Coming again -/

/-- **A diff that counts changes nothing when it comes again.** -/
theorem Remembers.process_eq (hr : s.Remembers ds) (hi : s.Inv) (hd : d ∈ ds)
    (hfew : ds.length ≤ memory) (hrouted : s.Routed d) :
    (s.process d).1.ledger = s.ledger ∧ (s.process d).2.isOk = true := by
  have hknown := Ledger.applyDiff_of_mem (hr.keys hfew d hd)
  have hduplicate : s.Fresh d → s.truncated = false → False := fun hf ht =>
    hf.ne hi (hr.whole ht d hd) rfl rfl
  have h := process_handled s d
  generalize (s.process d).1 = s' at h ⊢
  generalize (s.process d).2 = outcome at h ⊢
  cases h with
  | misrouted _ hn => exact absurd hrouted hn
  | stale | duplicate => exact ⟨rfl, rfl⟩
  | merged _ _ ha => exact ⟨(congrArg Prod.fst (hknown.symm.trans ha)).symm, rfl⟩
  | rebuilt hf _ ht => exact (hduplicate hf ht).elim
  | refused _ _ ha => exact absurd (congrArg Prod.snd (hknown.symm.trans ha)) (by simp)
  | reverted hf _ ht => exact (hduplicate hf ht).elim
  | restarted _ hk => exact absurd (hk.symm.trans (hr.diffs d hd)) (by decide)
  | noted _ hk => exact absurd (hk.symm.trans (hr.diffs d hd)) (by decide)

/-! ## Every run -/

/-- What counts was received. -/
theorem mem_of_mem_taken {pair bookPair : String} {capacity : Nat}
    (h : d ∈ (initial pair bookPair capacity).taken ms) : d ∈ ms := by
  induction ms using List.reverseRecOn with
  | nil => exact absurd h List.not_mem_nil
  | append_singleton ms m ih =>
    rw [taken_concat] at h
    rcases mem_takenIn h with hw | rfl | hd
    · exact List.mem_append_left _ (mem_of_window_run hw)
    · exact List.mem_concat_self
    · exact List.mem_append_left _ (ih hd)

theorem remembers_run {pair bookPair : String} {capacity : Nat}
    (hok : Delivery.NoFault ((initial pair bookPair capacity).history ms)) :
    ((initial pair bookPair capacity).run ms).Remembers
      ((initial pair bookPair capacity).taken ms) := by
  induction ms using List.reverseRecOn with
  | nil =>
    exact ⟨fun d hd => absurd hd List.not_mem_nil, fun d hd => absurd hd List.not_mem_nil,
      List.Subperm.refl _, fun _ d hd => absurd hd List.not_mem_nil, Nat.le_refl _,
      fun _ d hd => absurd hd List.not_mem_nil⟩
  | append_singleton ms m ih =>
    rw [history_concat, Delivery.noFault_concat] at hok
    rw [run_concat, taken_concat]
    exact (process_handled _ m).remembers hok.2 (inv_run ms pair bookPair capacity) (ih hok.1)

/-- **Diffs that come again are harmless, even after their eviction.** After any run without a
failure, take a diff that the snapshot accepted last has applied again or that was accepted since,
of which there are no more than the memory holds. When it comes again, it does not fail, and no
field of the orders or of the book changes, whether or not the window still has the diff. -/
theorem redelivered_unchanged (pair bookPair : String) (capacity : Nat) (ms : List Message)
    (d : Message) (hok : Delivery.NoFault ((initial pair bookPair capacity).history ms))
    (hd : d ∈ (initial pair bookPair capacity).taken ms)
    (hfew : ((initial pair bookPair capacity).taken ms).length ≤ RestingOrders.memory) :
    let s := (initial pair bookPair capacity).run ms
    (s.process d).1.orders = s.orders ∧ (s.process d).1.book = s.book ∧
      (s.process d).2.isOk = true := by
  intro s
  obtain ⟨hsame, hdone⟩ := (remembers_run hok).process_eq (inv_run ms pair bookPair capacity)
    hd hfew (routed_of_noFault hok (mem_of_mem_taken hd))
  exact ⟨congrArg Ledger.orders hsame, congrArg Ledger.book hsame, hdone⟩

/-- A window of one diff. The diff of the time 20 comes late, and has left the window when it comes
again; the one of the time 15 was in the window when the snapshot came. -/
theorem redelivered_unchanged_evicted :
    let late := sampleOpening 20 3 "B" (.ofNat 100) (.ofNat 2)
    let replayed := sampleOpening 15 2 "A" (.ofNat 100) (.ofNat 1)
    let ms := [replayed, sampleOrders 10 1 "Z" (.ofNat 100) (.ofNat 5),
      sampleOpening 30 4 "C" (.ofNat 100) (.ofNat 3), late]
    let start := initial "BTC-USDT" "BTC-USDT" 1
    let s := start.run ms
    Delivery.NoFault (start.history ms) ∧
      start.taken ms = [replayed, sampleOpening 30 4 "C" (.ofNat 100) (.ofNat 3), late] ∧
      late ∉ s.window ∧ replayed ∉ s.window ∧
      s.book.amount? .bid (.ofNat 100) = some (.ofNat 11) ∧
      (s.process late).1.book = s.book ∧ (s.process replayed).1.orders = s.orders := by
  intro late replayed ms start s
  have hok : Delivery.NoFault (start.history ms) := by decide
  have htaken : start.taken ms =
      [replayed, sampleOpening 30 4 "C" (.ofNat 100) (.ofNat 3), late] := by decide
  have hfew : (start.taken ms).length ≤ RestingOrders.memory := by rw [htaken]; decide
  obtain ⟨-, hbook, -⟩ := redelivered_unchanged "BTC-USDT" "BTC-USDT" 1 ms late hok
    (by rw [htaken]; decide) hfew
  obtain ⟨horders, -⟩ := redelivered_unchanged "BTC-USDT" "BTC-USDT" 1 ms replayed hok
    (by rw [htaken]; decide) hfew
  exact ⟨hok, htaken, by decide, by decide, by decide, hbook, horders⟩

end Synchronizer

end BookFeed
