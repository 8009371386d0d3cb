import BookFeed.Proofs.Orders.Faults
import Mathlib.Data.Finset.Basic
import Mathlib.Data.List.DropRight

/-!
# The memory of diffs

Whether a diff comes again is asked for every diff, so a memory of many keys needs more than a queue:
an index that finds a key at once. `Indexed` are resting orders with such an index beside the queue.
Diffs are looked up in the index, and a key that is too old leaves both.

* `applyDiff_cases`: what a diff can do;
* `Remembers`: the index has the keys of the queue, and the queue has the last keys of a log.
  Every message keeps this (`Remembers.update`), and does to the orders what it does without an index;
* **`run_remembers`**: queue, index and log after any messages, and which diffs come again.
-/

namespace BookFeed.RestingOrders

/-- Resting orders with an index of the keys that are remembered. -/
structure Indexed where
  orders : RestingOrders
  index : Finset DiffKey
deriving DecidableEq

namespace Indexed

/-- Nothing rests and nothing is remembered. -/
def start : Indexed := ⟨.empty, ∅⟩

/-- The keys that are remembered, oldest first. -/
def queue (x : Indexed) : List DiffKey := x.orders.applied

/-- The oldest key is forgotten. -/
def evict (x : Indexed) : Indexed :=
  match x.queue with
  | [] => x
  | oldest :: rest => ⟨{ x.orders with applied := rest }, x.index.erase oldest⟩

/-- A key comes last in the queue. -/
def push (x : Indexed) (key : DiffKey) : Indexed :=
  ⟨{ x.orders with applied := x.queue ++ [key] }, insert key x.index⟩

/-- Remembers a key, and forgets the oldest one where there would be too many. -/
def remember (x : Indexed) (key : DiffKey) : Indexed :=
  (if memory ≤ x.queue.length then x.evict else x).push key

/-- Notes that a diff has been applied. -/
def noteApplied (x : Indexed) (m : Message) : Indexed :=
  let x := x.remember (keyOf m)
  { x with orders.lastUpdateId := some (match x.orders.lastUpdateId with
    | some last => max last m.updateId
    | none => m.updateId) }

/-- Starts over from a snapshot, and forgets all keys, also where that fails. -/
def applySnapshot (x : Indexed) (m : Message) : Indexed × Except Error BookRows :=
  (⟨(x.orders.applySnapshot m).1, ∅⟩, (x.orders.applySnapshot m).2)

/-- Applies a diff whose key is not in the index. -/
def applyDiff (x : Indexed) (m : Message) : Indexed × Except Error BookRows :=
  if keyOf m ∈ x.index then (x, .ok {})
  else
    match m.content with
    | .events events =>
      match x.orders.applyEvents events with
      | (orders, .error e) => (⟨orders, x.index⟩, .error e)
      | (orders, .ok touched) =>
        ((⟨orders, x.index⟩ : Indexed).noteApplied m,
          .ok ⟨orders.touchedRows .bid touched m.updateId,
            orders.touchedRows .ask touched m.updateId⟩)
    | .levels _ _ => (x.noteApplied m, .ok ⟨m.bids, m.asks⟩)
    | _ => (x, .error (.invalidMessage ("diff for " ++ m.pair ++ " has no book content")))

def update (x : Indexed) : Update → Indexed × Except Error BookRows
  | .snapshot m => x.applySnapshot m
  | .diff m => x.applyDiff m

/-- The state after messages, whether or not these were accepted. -/
def run (x : Indexed) : List Update → Indexed
  | [] => x
  | u :: us => (x.update u).1.run us

/-- The diff is answered as one that comes again: accepted, with no rows and no change. -/
def Redelivered (x : Indexed) (m : Message) : Prop := x.applyDiff m = (x, .ok {})

instance (x : Indexed) (m : Message) : Decidable (x.Redelivered m) :=
  inferInstanceAs (Decidable (_ = _))

/-- The log after a message. A snapshot starts it anew, and a diff that is accepted and does not come
again is added. -/
def logged (x : Indexed) (log : List DiffKey) : Update → List DiffKey
  | .snapshot _ => []
  | .diff m =>
    if (x.applyDiff m).2.isOk ∧ ¬ x.Redelivered m then log ++ [keyOf m] else log

/-- The log after messages. -/
def log (x : Indexed) (keys : List DiffKey) : List Update → List DiffKey
  | [] => keys
  | u :: us => (x.update u).1.log (x.logged keys u) us

variable {x : Indexed} {m : Message} {key : DiffKey} {keys : List DiffKey}

/-! ## Remembering -/

theorem evict_orders (x : Indexed) :
    x.evict.orders = { x.orders with applied := x.queue.drop 1 } := by
  unfold evict
  cases hq : x.queue with
  | nil =>
    show x.orders = { x.orders with applied := [] }
    rw [← hq, queue]
  | cons oldest rest => rfl

theorem orders_remember (x : Indexed) (key : DiffKey) :
    (x.remember key).orders = x.orders.remember key := by
  unfold remember RestingOrders.remember push
  rw [show x.orders.applied = x.queue from rfl]
  split
  · simp only [queue, evict_orders]
  · rfl

theorem orders_noteApplied (x : Indexed) (m : Message) :
    (x.noteApplied m).orders = x.orders.noteApplied m := by
  unfold noteApplied RestingOrders.noteApplied
  simp only [orders_remember]
  rfl

/-- Index and queue have the same keys, and the queue has each of them once. -/
structure Aligned (x : Indexed) : Prop where
  index_eq : x.index = x.queue.toFinset
  nodup : x.queue.Nodup

theorem Aligned.mem_index (h : x.Aligned) : key ∈ x.index ↔ key ∈ x.queue := by
  rw [h.index_eq, List.mem_toFinset]

theorem Aligned.evict (h : x.Aligned) : x.evict.Aligned := by
  have hn := h.nodup
  have hi := h.index_eq
  unfold Indexed.evict
  cases hq : x.queue with
  | nil => exact h
  | cons oldest rest =>
    rw [hq] at hn hi
    obtain ⟨hold, hrest⟩ := List.nodup_cons.mp hn
    refine ⟨?_, hrest⟩
    -- the oldest key stands in the queue once, so it leaves the index, too
    show x.index.erase oldest = rest.toFinset
    rw [hi, List.toFinset_cons, Finset.erase_insert (mt List.mem_toFinset.mp hold)]

theorem Aligned.push (h : x.Aligned) (hk : key ∉ x.queue) : (x.push key).Aligned := by
  constructor
  · show insert key x.index = (x.queue ++ [key]).toFinset
    rw [h.index_eq, ← List.toFinset_cons]
    exact List.toFinset_eq_of_perm _ _ (List.perm_append_singleton key x.queue).symm
  · exact List.nodup_append_comm.mp (List.nodup_cons.mpr ⟨hk, h.nodup⟩)

theorem Aligned.remember (h : x.Aligned) (hk : key ∉ x.queue) : (x.remember key).Aligned := by
  unfold Indexed.remember
  split
  · refine h.evict.push fun hmem => hk ?_
    rw [queue, evict_orders] at hmem
    exact List.mem_of_mem_drop hmem
  · exact h.push hk

/-- **The queue has the last keys of the log**, and the index has those of the queue. -/
structure Remembers (x : Indexed) (keys : List DiffKey) : Prop where
  aligned : x.Aligned
  queue_eq : x.queue = keys.rtake memory

/-- The last keys of a longer log: one comes, and one goes if there were enough. -/
theorem rtake_concat {n : Nat} (hn : 0 < n) (keys : List DiffKey) (key : DiffKey) :
    (keys ++ [key]).rtake n =
      (if n ≤ (keys.rtake n).length then (keys.rtake n).drop 1 else keys.rtake n) ++ [key] := by
  obtain ⟨n, rfl⟩ := Nat.exists_eq_succ_of_ne_zero hn.ne'
  rw [List.rtake_concat_succ]
  congr 1
  unfold List.rtake
  rw [List.length_drop, List.drop_drop]
  split
  · congr 1
    omega
  · rw [Nat.sub_eq_zero_of_le (by omega), Nat.sub_eq_zero_of_le (by omega)]

theorem Remembers.noteApplied (h : x.Remembers keys) (hk : keyOf m ∉ x.queue) :
    (x.noteApplied m).Remembers (keys ++ [keyOf m]) := by
  refine ⟨?_, ?_⟩
  · obtain ⟨hindex, hnodup⟩ := h.aligned.remember hk
    exact ⟨hindex, hnodup⟩
  · rw [rtake_concat (by decide), ← h.queue_eq, queue, orders_noteApplied]
    rfl

/-- Only the memory counts. -/
theorem Remembers.of_applied {orders : RestingOrders} (h : x.Remembers keys)
    (ho : orders.applied = x.queue) : (⟨orders, x.index⟩ : Indexed).Remembers keys := by
  refine ⟨⟨h.aligned.index_eq.trans (congrArg List.toFinset ho.symm), ?_⟩, ho.trans h.queue_eq⟩
  rw [queue, ho]
  exact h.aligned.nodup

/-! ## Every message -/

/-- **What a diff can do**: nothing, if its key is in the index; else it is applied and remembered, or
it fails and the memory stays as it is. -/
theorem applyDiff_cases (x : Indexed) (m : Message) :
    keyOf m ∈ x.index ∧ x.applyDiff m = (x, .ok {}) ∨
      keyOf m ∉ x.index ∧ ∃ orders : RestingOrders, orders.applied = x.queue ∧
        ((∃ rows, x.applyDiff m = ((⟨orders, x.index⟩ : Indexed).noteApplied m, .ok rows)) ∨
          ∃ e, x.applyDiff m = (⟨orders, x.index⟩, .error e)) := by
  unfold applyDiff
  split
  · rename_i hmem
    exact .inl ⟨hmem, rfl⟩
  · rename_i hmem
    refine .inr ⟨hmem, ?_⟩
    split
    · rename_i es _
      have happ := applied_applyEvents x.orders es
      generalize x.orders.applyEvents es = done at happ
      obtain ⟨orders, e | touched⟩ := done
      · exact ⟨orders, happ, .inr ⟨e, rfl⟩⟩
      · exact ⟨orders, happ, .inl ⟨_, rfl⟩⟩
    · exact ⟨x.orders, rfl, .inl ⟨_, rfl⟩⟩
    · exact ⟨x.orders, rfl, .inr ⟨_, rfl⟩⟩

/-- With an index beside the queue a diff does what it does without. -/
theorem applyDiff_orders (h : x.Aligned) (m : Message) :
    ((x.applyDiff m).1.orders, (x.applyDiff m).2) = x.orders.applyDiff m := by
  unfold applyDiff RestingOrders.applyDiff
  have hlook : x.orders.applied.contains (keyOf m) = true ↔ keyOf m ∈ x.index :=
    List.contains_iff_mem.trans h.mem_index.symm
  by_cases hmem : keyOf m ∈ x.index
  · rw [if_pos hmem, if_pos (hlook.mpr hmem)]
  · rw [if_neg hmem, if_neg (mt hlook.mp hmem)]
    cases m.content with
    | events es =>
      simp only
      obtain ⟨orders, e | touched⟩ := x.orders.applyEvents es
      · rfl
      · simp only [orders_noteApplied]
    | levels bids asks => simp only [orders_noteApplied]
    | orders | trade => rfl

/-- **A diff comes again exactly if its key is in the queue.** -/
theorem Aligned.redelivered_iff (h : x.Aligned) : x.Redelivered m ↔ keyOf m ∈ x.queue := by
  rw [← h.mem_index]
  rcases applyDiff_cases x m with ⟨hmem, hdone⟩ | ⟨hmem, orders, ho, ⟨rows, hdone⟩ | ⟨e, hdone⟩⟩
  · exact ⟨fun _ => hmem, fun _ => hdone⟩
  · refine ⟨fun hsame => ?_, fun hk => absurd hk hmem⟩
    -- the key of a diff that is applied is in the index afterwards
    have hindex : keyOf m ∈ ((⟨orders, x.index⟩ : Indexed).noteApplied m).index :=
      Finset.mem_insert_self _ _
    rw [Redelivered, hdone] at hsame
    exact (congrArg (fun done => done.1.index) hsame) ▸ hindex
  · refine ⟨fun hsame => ?_, fun hk => absurd hk hmem⟩
    rw [Redelivered, hdone] at hsame
    exact absurd (congrArg Prod.snd hsame) (by simp)

/-- **Every message keeps the memory**, and does to the orders what it does without an index. -/
theorem Remembers.update (h : x.Remembers keys) (u : Update) :
    (x.update u).1.Remembers (x.logged keys u) ∧
      ((x.update u).1.orders, (x.update u).2) = x.orders.update u := by
  cases u with
  | snapshot m =>
    have hqueue : (x.applySnapshot m).1.queue = [] := applied_applySnapshot x.orders m
    refine ⟨⟨⟨?_, ?_⟩, ?_⟩, rfl⟩
    · rw [Indexed.update, hqueue]
      rfl
    · rw [Indexed.update, hqueue]
      exact List.nodup_nil
    · rw [Indexed.update, hqueue]
      exact (List.rtake_nil memory).symm
  | diff m =>
    refine ⟨?_, applyDiff_orders h.aligned m⟩
    have hagain := h.aligned.redelivered_iff (m := m)
    rw [← h.aligned.mem_index] at hagain
    have hlog : x.logged keys (.diff m) =
        if (x.applyDiff m).2.isOk ∧ ¬ x.Redelivered m then keys ++ [keyOf m] else keys := rfl
    rw [hlog, Indexed.update]
    rcases applyDiff_cases x m with ⟨hmem, hdone⟩ | ⟨hmem, orders, ho, ⟨rows, hdone⟩ | ⟨e, hdone⟩⟩
    · rw [if_neg fun hnew => hnew.2 (hagain.mpr hmem), hdone]
      exact h
    · rw [if_pos ⟨by rw [hdone]; rfl, mt hagain.mp hmem⟩, hdone]
      refine (h.of_applied ho).noteApplied ?_
      rw [queue, ho]
      exact mt h.aligned.mem_index.mpr hmem
    · have hfailed : (x.applyDiff m).2.isOk = false := by rw [hdone]; rfl
      rw [if_neg fun hnew => Bool.false_ne_true (hfailed.symm.trans hnew.1), hdone]
      exact h.of_applied ho

theorem remembers_start : start.Remembers [] :=
  ⟨⟨rfl, List.nodup_nil⟩, (List.rtake_nil memory).symm⟩

theorem Remembers.run (h : x.Remembers keys) (us : List Update) :
    (x.run us).Remembers (x.log keys us) ∧
      (x.run us).orders = us.foldl (fun t u => (t.update u).1) x.orders := by
  induction us generalizing x keys with
  | nil => exact ⟨h, rfl⟩
  | cons u us ih =>
    obtain ⟨hu, horders⟩ := h.update u
    obtain ⟨hrun, hlast⟩ := ih hu
    refine ⟨hrun, hlast.trans ?_⟩
    rw [List.foldl_cons, ← congrArg Prod.fst horders]

/-- **The memory has the last diffs that were applied.** After any snapshots and diffs, whether or not
they were accepted: the queue has no key twice, the index has exactly its keys, and the queue consists,
oldest first, of the last 1024 keys of the log, or of all if there are fewer. The log has the keys of
the diffs that were accepted and not answered as ones that come again, since the last snapshot. A diff
comes again, with no rows and no change, exactly if its key is in the queue. With the index every
message does to the orders what it does without. -/
theorem run_remembers (us : List Update) :
    let x := start.run us
    let keys := start.log [] us
    x.queue.Nodup ∧ x.index = x.queue.toFinset ∧ x.queue.length = min memory keys.length ∧
      x.queue = keys.rtake memory ∧ (∀ m, x.Redelivered m ↔ keyOf m ∈ x.queue) ∧
      x.orders = after us ∧ ∀ u, (x.update u).2 = ((after us).update u).2 := by
  intro x keys
  obtain ⟨h, horders⟩ := remembers_start.run us
  refine ⟨h.aligned.nodup, h.aligned.index_eq, ?_, h.queue_eq,
    fun m => h.aligned.redelivered_iff, horders, fun u => ?_⟩
  · rw [h.queue_eq, List.rtake, List.length_drop, Nat.sub_sub_eq_min, Nat.min_comm]
  · rw [show after us = x.orders from horders.symm]
    exact congrArg Prod.snd (h.update u).2

end Indexed

end BookFeed.RestingOrders
