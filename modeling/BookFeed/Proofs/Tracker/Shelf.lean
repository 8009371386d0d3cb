import BookFeed.Proofs.Sorted
import BookFeed.Proofs.Tracker.Calls

/-!
# Which pairs have tasks and books

`Tracker.shelf` is what of a tracker decides which pairs have tasks and books. Messages come and go
and books change without it.

* `insert_task`: nor does it matter to put a task back that writes the same book;
* **`shelf_happen?`**: so whatever happens in a tracker leaves its shelf alone, as long as the
  router does not take a turn.
-/

namespace BookFeed

/-- The tracked pairs, and the pairs that have tasks and books. -/
structure Shelf where
  tracked : TrackedPairs
  /-- the pairs that have tasks, with the books that these write -/
  tasks : List (String × Handle)
  /-- the registered pairs, with their books -/
  books : List (String × Handle)
  /-- the number of books there have been -/
  made : Nat

namespace Tracker

/-- The pairs that have tasks, with the books that these write. -/
def tasks (t : Tracker) : List (String × Handle) := t.pairs.map fun e => (e.1, e.2.handle)

def shelf (t : Tracker) : Shelf :=
  ⟨t.tracked, t.tasks, t.registry.entries, t.registry.books.length⟩

variable {t t' : Tracker} {p : String} {m : Message} {h : Handle} {sender : Sender}

/-! ## What leaves the shelf alone -/

theorem get?_tasks : Sorted.get? compare p t.tasks = (t.pair? p).map (·.handle) :=
  Sorted.get?_map _ p t.pairs

@[simp] theorem shelf_wake (name : TaskName) : (t.wake name).shelf = t.shelf := rfl

@[simp] theorem shelf_backOff (name : TaskName) : (t.backOff name).shelf = t.shelf := rfl

@[simp] theorem shelf_announce (component : String) (e : Error) (message : String) :
    (t.announce component e message).shelf = t.shelf := rfl

@[simp] theorem shelf_countApplied (applied : Applied) :
    (t.countApplied p applied).shelf = t.shelf := by
  unfold countApplied
  split <;> rfl

@[simp] theorem shelf_reportRouted (r : Router) : (t.reportRouted r).shelf = t.shelf := by
  unfold reportRouted
  split <;> rfl

@[simp] theorem shelf_tally (accepted : Bool) : (t.tally accepted).shelf = t.shelf := by
  unfold tally
  split
  · rfl
  · split
    · exact shelf_reportRouted _
    · exact shelf_reportRouted _

@[simp] theorem shelf_write (f : Book → Book) (trades : TradeStream) :
    ({ t with registry := t.registry.write h f, trades } : Tracker).shelf = t.shelf := by
  simp only [shelf, Registry.write, List.length_modify]
  rfl

@[simp] theorem shelf_setPair (task : PairTask) : (t.setPair p task).shelf =
    { t.shelf with tasks := Sorted.insert compare p task.handle t.shelf.tasks } := by
  have htasks : (t.setPair p task).tasks = Sorted.insert compare p task.handle t.tasks :=
    Sorted.map_insert _ p task t.pairs
  rw [shelf, htasks]
  rfl

@[simp] theorem shelf_reportDiffs (task : PairTask) : (t.reportDiffs p task).shelf =
    { t.shelf with tasks := Sorted.insert compare p task.handle t.shelf.tasks } := by
  unfold reportDiffs
  split
  · exact shelf_setPair _
  · exact shelf_setPair _

/-- Putting back a task that writes the same book. -/
theorem insert_task {task : PairTask} (hs : Sorted.Strict compare t.shelf.tasks)
    (hp : t.pair? p = some task) (hh : task.handle = h) :
    { t.shelf with tasks := Sorted.insert compare p h t.shelf.tasks } = t.shelf := by
  have hhandle : Sorted.get? compare p t.shelf.tasks = some h := by
    rw [shelf, get?_tasks, hp, ← hh]
    rfl
  rw [Sorted.insert_of_get? hs hhandle]

theorem shelf_handTo (hs : Sorted.Strict compare t.shelf.tasks) :
    (t.handTo m sender h).shelf = t.shelf := by
  unfold handTo
  split
  · rfl
  · rename_i task hp
    split
    · rw [shelf_wake, shelf_setPair]
      exact insert_task hs hp rfl
    · rfl

theorem shelf_listen? (h : t.listen? = some t') : t'.shelf = t.shelf := by
  unfold listen? at h
  split at h
  · split at h
    · obtain rfl := Option.some.inj h
      rfl
    · split at h
      · obtain rfl := Option.some.inj h
        rfl
      · exact absurd h (by simp)
  · split at h
    · obtain rfl := Option.some.inj h
      rfl
    · obtain rfl := Option.some.inj h
      rfl
    · obtain rfl := Option.some.inj h
      rfl
    · simp only at h
      split at h
      all_goals
        obtain rfl := Option.some.inj h
        rfl

theorem shelf_processNext? (hs : Sorted.Strict compare t.shelf.tasks)
    (h : t.processNext? p = some t') : t'.shelf = t.shelf := by
  unfold processNext? at h
  cases hp : t.pair? p with
  | none =>
    rw [hp] at h
    exact absurd h (by simp)
  | some task =>
    simp only [hp] at h
    split at h
    · obtain rfl := Option.some.inj h
      rw [shelf_reportDiffs]
      exact insert_task hs hp rfl
    · split at h
      · obtain rfl := Option.some.inj h
        unfold process
        simp only
        split
        · rw [shelf_reportDiffs, shelf_countApplied]
          simp only [shelf_write]
          exact insert_task hs hp rfl
        · rw [shelf_backOff, shelf_setPair, shelf_announce]
          simp only [shelf_write]
          exact insert_task hs hp rfl
      · exact absurd h (by simp)

/-- **Only calls change the shelf.** -/
theorem shelf_happen? (hs : Sorted.Strict compare t.shelf.tasks) {e : Event}
    (he : e.isRouting = false) (h : t.happen? e = some t') : t'.shelf = t.shelf := by
  rcases happen?_cases he h with ⟨p, -, hp⟩ | ⟨-, ⟨-, hl⟩ | ⟨source, schedule, rfl⟩⟩
  · exact shelf_processNext? hs hp
  · exact shelf_listen? hl
  · rfl

end Tracker

end BookFeed
