import BookFeed.Proofs.Tracker.Audit

/-!
# Trackers with a past

`t.behind past` is the tracker `t` as it would be if all that `past` has left behind had come before
it: the books of `past`, which views may still point to, stand before those of `t`, and so do its
trades, its advisories, its counts and its reports. Nothing else of `past` is in it: no task, no
message that waits, and not what is tracked.

Handles are numbers of books, so those of `t` move by the number of books of `past`. Nothing that
tasks do depends on the numbers, only on which handles are equal. So a tracker and the same tracker
with a past go on alike. There is one lemma for each operation that touches what has a past, which
says that it does not matter whether the past comes before the operation or after it. The others,
such as `Tracker.wake`, agree by definition.

* `Registry.register_behind`, `Registry.write_behind`, `Registry.book?_behind`: books;
* `Counters.increment_behind`, `TradeStream.send_behind`: what grows with each message;
* **`happen?_behind`**: whatever happens in a tracker happens in the same way with a past.
-/

namespace BookFeed

/-! ## Books -/

/-- The handle on the same book when `n` books stand before all others. -/
def Handle.shift (n : Nat) (h : Handle) : Handle := ⟨n + h.index⟩

theorem Handle.shift_inj {n : Nat} {h h' : Handle} : h.shift n = h'.shift n ↔ h = h' := by
  cases h
  cases h'
  simp [shift]

namespace Registry

variable (r : Registry) (old : List Book) (p : String) (h : Handle)

/-- The registry whose books stand behind others that no pair has. -/
def behind (r : Registry) (old : List Book) : Registry where
  entries := r.entries.map fun e => (e.1, e.2.shift old.length)
  books := old ++ r.books

theorem view?_behind : (r.behind old).view? p = (r.view? p).map (·.shift old.length) :=
  Sorted.get?_map _ p r.entries

theorem read?_behind : (r.behind old).read? (h.shift old.length) = r.read? h := by
  have hle : old.length ≤ old.length + h.index := Nat.le_add_right _ _
  show (old ++ r.books)[old.length + h.index]? = r.books[h.index]?
  rw [List.getElem?_append_right hle, Nat.add_sub_cancel_left]

/-- **The books of pairs are the same.** -/
theorem book?_behind : (r.behind old).book? p = r.book? p := by
  rw [book?, book?, view?_behind]
  cases r.view? p with
  | none => rfl
  | some h => exact read?_behind r old h

theorem write_behind (f : Book → Book) :
    (r.behind old).write (h.shift old.length) f = (r.write h f).behind old := by
  have hbooks : (old ++ r.books).modify (old.length + h.index) f =
      old ++ r.books.modify h.index f := by
    induction old with
    | nil => rw [List.length_nil, Nat.zero_add, List.nil_append, List.nil_append]
    | cons b old ih => rw [List.length_cons, Nat.succ_add, List.cons_append, List.modify_succ_cons,
        ih, List.cons_append]
  rw [write, write, behind, behind, Handle.shift, hbooks]

theorem register_behind : (r.behind old).register p =
    ((r.register p).1.behind old, (r.register p).2.shift old.length) := by
  unfold register
  rw [view?_behind]
  cases r.view? p with
  | some h => rfl
  | none =>
    have hindex : (⟨(old ++ r.books).length⟩ : Handle) =
        Handle.shift old.length ⟨r.books.length⟩ := by
      rw [Handle.shift, List.length_append]
    have hentries : (Sorted.insert compare p ⟨r.books.length⟩ r.entries).map
        (fun e => (e.1, e.2.shift old.length)) =
        Sorted.insert compare p (Handle.shift old.length ⟨r.books.length⟩)
          (r.entries.map fun e => (e.1, e.2.shift old.length)) :=
      Sorted.map_insert _ p _ r.entries
    simp only [Option.map_none, behind, hindex, hentries, List.append_assoc]

theorem remove_behind : (r.behind old).remove p = (r.remove p).behind old := by
  rw [remove, remove, behind, behind, Sorted.map_erase]

end Registry

/-! ## What grows with each message -/

/-- The stream that goes on after what is in another. One that was dropped stays as it is. -/
def TradeStream.behind (s past : TradeStream) : TradeStream :=
  if s.dropped then s else s.queue.foldl send past

theorem TradeStream.send_behind (s past : TradeStream) (m : Message) :
    (s.behind past).send m = (s.send m).behind past := by
  unfold behind
  by_cases hs : s.dropped = true
  · have hsent : ∀ m, s.send m = s := fun m => if_pos hs
    rw [hsent, if_pos hs, hsent]
  · have hsent : s.send m = { s with queue := s.queue ++ [m] } := if_neg hs
    rw [hsent, if_neg hs, if_neg hs, List.foldl_concat]

namespace Counters

variable {c d : Counter} {n k : Nat} {counts : List (Counter × Nat)}

/-- The counts of both. -/
def behind (cs past : Counters) : Counters :=
  ⟨cs.counts.foldl (fun counts e => add e.1 e.2 counts) past.counts⟩

theorem mem_add (c : Counter) (n : Nat) (counts : List (Counter × Nat)) :
    c ∈ (add c n counts).map (·.1) := by
  induction counts with
  | nil => exact List.mem_singleton.mpr rfl
  | cons e counts ih =>
    rw [add]
    split
    · rename_i hc
      exact hc ▸ List.mem_cons_self
    · exact List.mem_cons_of_mem _ ih

theorem mem_add_of_mem (hc : c ∈ counts.map (·.1)) : c ∈ (add d n counts).map (·.1) := by
  induction counts with
  | nil => exact absurd hc List.not_mem_nil
  | cons e counts ih =>
    rw [add]
    split
    · exact hc
    · rcases List.mem_cons.mp hc with hc | hc
      · exact hc ▸ List.mem_cons_self
      · exact List.mem_cons_of_mem _ (ih hc)

theorem add_add (c : Counter) (n k : Nat) (counts : List (Counter × Nat)) :
    add c k (add c n counts) = add c (n + k) counts := by
  induction counts with
  | nil => simp [add]
  | cons e counts ih =>
    rw [add, add]
    split
    · rename_i hc
      rw [add, if_pos hc, Nat.add_assoc]
    · rename_i hc
      rw [add, if_neg hc, ih]

/-- A counter that is there keeps its place, so it may be added to later. -/
theorem add_comm_of_mem (hc : c ∈ counts.map (·.1)) :
    add d k (add c n counts) = add c n (add d k counts) := by
  by_cases hdc : d = c
  · rw [hdc, add_add, add_add, Nat.add_comm]
  induction counts with
  | nil => exact absurd hc List.not_mem_nil
  | cons e counts ih =>
    obtain ⟨e, j⟩ := e
    by_cases hce : c = e
    · subst hce
      rw [add, if_pos rfl, add, if_neg hdc, add, if_neg hdc, add, if_pos rfl]
    · have hrest : c ∈ counts.map (·.1) := (List.mem_cons.mp hc).resolve_left hce
      rw [add, if_neg hce]
      by_cases hde : d = e
      · rw [add, if_pos hde, add, if_pos hde, add, if_neg hce]
      · rw [add, if_neg hde, add, if_neg hde, add, if_neg hce, ih hrest]

/-- What is added to a counter that is there may as well be added after all else. -/
theorem foldl_add_of_mem (es : List (Counter × Nat)) (hc : c ∈ counts.map (·.1)) :
    es.foldl (fun counts e => add e.1 e.2 counts) (add c n counts) =
      add c n (es.foldl (fun counts e => add e.1 e.2 counts) counts) := by
  induction es generalizing counts with
  | nil => rfl
  | cons e es ih =>
    rw [List.foldl_cons, List.foldl_cons, add_comm_of_mem hc]
    exact ih (mem_add_of_mem hc)

theorem increment_behind (cs past : Counters) (c : Counter) :
    (cs.behind past).increment c = (cs.increment c).behind past := by
  have hfold : ∀ es counts : List (Counter × Nat),
      add c 1 (es.foldl (fun counts e => add e.1 e.2 counts) counts) =
        (add c 1 es).foldl (fun counts e => add e.1 e.2 counts) counts := by
    intro es
    induction es with
    | nil => exact fun _ => rfl
    | cons e es ih =>
      intro counts
      obtain ⟨d, k⟩ := e
      rw [add]
      split
      · rename_i hcd
        subst hcd
        rw [List.foldl_cons, List.foldl_cons, ← add_add]
        exact (foldl_add_of_mem es (mem_add c k counts)).symm
      · exact ih (add d k counts)
  rw [increment, increment, behind, behind, hfold]

end Counters

/-! ## Trackers -/

/-- The task that writes the same book when `n` books stand before all others. -/
def PairTask.shift (n : Nat) (task : PairTask) : PairTask :=
  { task with handle := task.handle.shift n }

namespace Tracker

/-- The number of books there have been. -/
def made (t : Tracker) : Nat := t.registry.books.length

/-- The tracker with what another has left behind. -/
def behind (t past : Tracker) : Tracker :=
  { t with
    pairs := t.pairs.map fun e => (e.1, e.2.shift past.made)
    registry := t.registry.behind past.registry.books
    trades := t.trades.behind past.trades
    advisories :=
      { past.advisories with sent := past.advisories.sent ++ t.advisories.sent }
    counters := t.counters.behind past.counters
    reports := past.reports ++ t.reports }

variable (t past : Tracker) (p : String) (m : Message) (h : Handle) (task : PairTask)

theorem pair?_behind :
    (t.behind past).pair? p = (t.pair? p).map (·.shift past.made) :=
  Sorted.get?_map _ p t.pairs

theorem setPair_behind :
    (t.behind past).setPair p (task.shift past.made) =
      (t.setPair p task).behind past := by
  have hpairs : (Sorted.insert compare p task t.pairs).map (fun e => (e.1, e.2.shift past.made)) =
      Sorted.insert compare p (task.shift past.made)
        (t.pairs.map fun e => (e.1, e.2.shift past.made)) := Sorted.map_insert _ p task t.pairs
  rw [setPair, setPair, behind, behind, hpairs]

theorem backOff_behind (name : TaskName) :
    (t.behind past).backOff name = (t.backOff name).behind past := rfl

theorem count_behind (c : Counter) : (t.behind past).count c = (t.count c).behind past := by
  have hcounters := Counters.increment_behind t.counters past.counters c
  rw [count, count, behind, behind, hcounters]

theorem announce_behind (component : String) (e : Error) (message : String) :
    (t.behind past).announce component e message =
      (t.announce component e message).behind past := by
  have hcounters := Counters.increment_behind t.counters past.counters (.faults component)
  simp only [announce, behind, hcounters, AdvisoryBus.announce, List.append_assoc]

theorem countApplied_behind (applied : Applied) :
    (t.behind past).countApplied p applied = (t.countApplied p applied).behind past := by
  cases applied with
  | trade => rfl
  | diff | outOfOrder | rebuilt | snapshot | duplicate => exact count_behind t past _
  | stale kind =>
    cases kind with
    | snapshot | diff | trade => exact count_behind t past _

/-! ## The source -/

theorem sourceFault_behind (e : Error) :
    (t.behind past).sourceFault e = (t.sourceFault e).behind past := by
  unfold sourceFault
  rw [← backOff_behind, ← announce_behind]
  rfl

theorem changeFeed_behind (f : Feed → Feed) :
    (t.behind past).changeFeed f = (t.changeFeed f).behind past := by
  have hsource : (t.behind past).source = t.source := rfl
  have hlistening : (t.behind past).listening = t.listening := rfl
  unfold changeFeed
  rw [hsource]
  cases t.source with
  | feed feed =>
    simp only [hlistening]
    split
    · rfl
    · rfl
  | polled s polling => rfl

theorem listen?_behind : (t.behind past).listen? = t.listen?.map (·.behind past) := by
  have hsource : (t.behind past).source = t.source := rfl
  unfold listen?
  rw [hsource]
  cases t.source with
  | feed f =>
    simp only
    cases f.queue with
    | cons m queue => rfl
    | nil =>
      simp only
      split
      · rfl
      · rfl
  | polled s polling =>
    -- what is polled depends on the clock and the tracked pairs, which have no past
    have hpoll : s.poll (t.behind past).tracked.pairs (t.behind past).now (t.behind past).timestamp
        (polling.getD { next := (t.behind past).now }) =
        s.poll t.tracked.pairs t.now t.timestamp (polling.getD { next := t.now }) := rfl
    simp only [hpoll]
    obtain ⟨s', polling', outcome⟩ :=
      s.poll t.tracked.pairs t.now t.timestamp (polling.getD { next := t.now })
    cases outcome with
    | begun | forwarded | waiting => rfl
    | failed halt =>
      have hfault := sourceFault_behind { t with source := .polled s' none } past
      simp only
      split
      · rfl
      · rfl
      · exact congrArg some (hfault _)

/-! ## The router and the tasks of pairs -/

theorem reportRouted_behind (r : Router) :
    (t.behind past).reportRouted r = (t.reportRouted r).behind past := by
  have hdue : (t.behind past).isReportDue r.lastReport = t.isReportDue r.lastReport := rfl
  unfold reportRouted
  rw [hdue]
  split
  · simp only [behind, List.append_assoc]
    rfl
  · rfl

theorem tally_behind (accepted : Bool) :
    (t.behind past).tally accepted = (t.tally accepted).behind past := by
  have hrouter : (t.behind past).router = t.router := rfl
  unfold tally
  rw [hrouter]
  cases t.router with
  | none => rfl
  | some r =>
    simp only
    split
    · exact reportRouted_behind t past _
    · exact reportRouted_behind t past _

theorem reportDiffs_behind :
    (t.behind past).reportDiffs p (task.shift past.made) =
      (t.reportDiffs p task).behind past := by
  have hdue : (t.behind past).isReportDue (task.shift past.made).lastReport =
      t.isReportDue task.lastReport := rfl
  unfold reportDiffs
  rw [hdue]
  split
  · have hreports : ({ t.behind past with
        reports := (t.behind past).reports ++ [.diffs p task.diffs] } : Tracker) =
        ({ t with reports := t.reports ++ [.diffs p task.diffs] } : Tracker).behind past := by
      simp only [behind, List.append_assoc]
    rw [← setPair_behind, ← hreports]
    rfl
  · exact setPair_behind t past p task

/-- The book that a task writes is the same, and so is the trade that it sends. -/
theorem process_behind :
    (t.behind past).process p (task.shift past.made) m =
      (t.process p task m).behind past := by
  have hsynchronizer : (task.shift past.made).synchronizer = task.synchronizer :=
    rfl
  -- what becomes of the message does not depend on the number of the book
  unfold process
  rw [hsynchronizer]
  obtain ⟨synchronizer, result⟩ := task.synchronizer.process m
  have hwritten : (t.behind past).registry.write (task.shift past.made).handle
      (fun _ => synchronizer.book) =
      (t.registry.write task.handle fun _ => synchronizer.book).behind past.registry.books :=
    Registry.write_behind _ _ _ _
  simp only [hwritten]
  generalize t.registry.write task.handle (fun _ => synchronizer.book) = registry
  cases result with
  | ok applied =>
    have hsent : (if applied = .trade then (t.behind past).trades.send m
        else (t.behind past).trades) =
        (if applied = .trade then t.trades.send m else t.trades).behind past.trades := by
      split
      · exact TradeStream.send_behind t.trades past.trades m
      · rfl
    simp only [hsent]
    generalize (if applied = .trade then t.trades.send m else t.trades) = trades
    let written : Tracker := { t with registry, trades }
    let done : PairTask :=
      { task with synchronizer, diffs := if applied.isDiff then task.diffs + 1 else task.diffs }
    have hcounted := countApplied_behind written past p applied
    have hput := reportDiffs_behind (written.countApplied p applied) past p done
    exact (congrArg (reportDiffs · p (done.shift past.made)) hcounted).trans hput
  | error e =>
    let written : Tracker := { t with registry }
    let failed : PairTask := { task with synchronizer, recovering := true }
    let text := t.faultText ("processing order book messages for " ++ p)
    have hannounced := announce_behind written past "order_book_tracker" e text
    have hput := setPair_behind (written.announce "order_book_tracker" e text) past p failed
    have hboth := (congrArg (setPair · p (failed.shift past.made)) hannounced).trans hput
    exact congrArg (backOff · (.pair p)) hboth

theorem processNext?_behind :
    (t.behind past).processNext? p = (t.processNext? p).map (·.behind past) := by
  unfold processNext?
  rw [pair?_behind]
  cases t.pair? p with
  | none => rfl
  | some task =>
    have hrecovering : (task.shift past.made).recovering = task.recovering := rfl
    have hinbox : (task.shift past.made).inbox = task.inbox := rfl
    simp only [Option.map_some, hrecovering, hinbox]
    split
    · exact congrArg some (reportDiffs_behind t past p { task with recovering := false })
    · cases task.inbox.take? with
      | none => rfl
      | some next =>
        obtain ⟨m, inbox⟩ := next
        exact congrArg some (process_behind t past p m { task with inbox })

theorem next?_behind : (t.behind past).next? p = t.next? p := by
  unfold next?
  rw [pair?_behind]
  cases t.pair? p with
  | none => rfl
  | some task => rfl

theorem processing?_behind (e : Event) : e.processing? (t.behind past) = e.processing? t := by
  cases e with
  | turn name =>
    cases name with
    | pair p => exact next?_behind t past p
    | listener | router => rfl
  | send | closeFeed | yield | pass | ring => rfl

/-- **Whatever happens in a tracker happens in the same way with a past.** The router's turns are
calls. -/
theorem happen?_behind {e : Event} (he : e.isRouting = false) :
    (t.behind past).happen? e = (t.happen? e).map (·.behind past) := by
  have hnow : (t.behind past).now = t.now := rfl
  cases e with
  | send m =>
    have hopen : (t.behind past).isOpen = t.isOpen := rfl
    simp only [happen?, hopen]
    split
    · exact congrArg some (changeFeed_behind t past _)
    · rfl
  | closeFeed => exact congrArg some (changeFeed_behind t past _)
  | turn name =>
    have hasleep : (t.behind past).schedule.isAsleep name = t.schedule.isAsleep name := rfl
    simp only [happen?, step?, hasleep]
    split
    · rfl
    · cases name with
      | listener =>
        have hlistening : (t.behind past).listening = t.listening := rfl
        simp only [hlistening]
        split
        · exact listen?_behind t past
        · rfl
      | router => exact absurd he.symm Bool.false_ne_true
      | pair p => exact processNext?_behind t past p
  | yield => rfl
  | pass time =>
    simp only [happen?, hnow]
    split
    · rfl
    · rfl
  | ring => rfl

/-! ## What calls do -/

theorem handTo_behind (sender : Sender) :
    (t.behind past).handTo m sender (h.shift past.made) = (t.handTo m sender h).behind past := by
  unfold handTo
  rw [pair?_behind]
  cases t.pair? m.pair with
  | none => rfl
  | some task =>
    have hsame : (task.shift past.made).handle = h.shift past.made ↔ task.handle = h :=
      Handle.shift_inj
    simp only [Option.map_some, hsame]
    split
    · have hput := setPair_behind t past m.pair
        { task with inbox := sender.put t.settings.backlog task.inbox m }
      exact congrArg (wake · (.pair m.pair)) hput
    · rfl

/-- A task that is spawned begins with the same book. -/
theorem attach_behind : (t.behind past).attach p (h.shift past.made) =
    ((t.attach p h).1.behind past, (t.attach p h).2.shift past.made) := by
  have hread : (t.behind past).registry.read? (h.shift past.made) = t.registry.read? h :=
    Registry.read?_behind _ _ h
  unfold attach
  rw [pair?_behind]
  cases t.pair? p with
  | some task => rfl
  | none =>
    simp only [Option.map_none, hread]
    have hput := setPair_behind t past p
      { handle := h
        synchronizer := .new p t.settings.window ((t.registry.read? h).getD (.empty p))
        lastReport := t.now }
    exact congrArg (fun t' : Tracker => (t'.wake (.pair p), h.shift past.made)) hput

theorem abort_behind : (t.behind past).abort p = (t.abort p).behind past := by
  have hpairs : (Sorted.erase compare p t.pairs).map (fun e => (e.1, e.2.shift past.made)) =
      Sorted.erase compare p (t.pairs.map fun e => (e.1, e.2.shift past.made)) :=
    Sorted.map_erase _ p t.pairs
  rw [abort, abort, behind, behind, hpairs]

theorem removeBook_behind : (t.behind past).removeBook p = (t.removeBook p).behind past := by
  have hregistry := Registry.remove_behind t.registry past.registry.books p
  rw [removeBook, removeBook, behind, behind, hregistry]

end Tracker

end BookFeed
