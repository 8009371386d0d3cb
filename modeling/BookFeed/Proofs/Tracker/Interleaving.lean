import BookFeed.Tracker.Run

/-!
# Interleavings of the tasks of a tracker

While a tracker runs, messages are sent to its feed, time passes, and tasks take turns. `perform?`
lets such events happen one after the other, in any order that is possible: a task that does not
pause may take its turn whenever it has something to do, whether or not it is the first in line, and
timers may go off long after they are due. A turn is all that a task does with one message, since
what it holds in between nobody else sees.

* `Idle`: nobody has anything to do, now or after a pause;
* `Reaches`: what tasks and time can lead to when nothing comes from outside;
* **`advance_reached`**: the tracker's own way to let tasks take turns is one such way.

Out of scope here: what happens between the statements of a call (`BookFeed.Proofs.Tracker.Calls`)
and of a stop (`BookFeed.Proofs.Tracker.Closing`).
-/

namespace BookFeed

namespace Tracker

/-- What can happen next. -/
inductive Event where
  | send (m : Message)
  | closeFeed
  | turn (name : TaskName)
  /-- the first in line leaves it -/
  | yield
  /-- time passes up to `time` -/
  | pass (time : Nat)
  /-- all timers that are due go off -/
  | ring

/-- The message that an event sends to the feed. -/
def Event.sent? : Event → Option Message
  | send m => some m
  | _ => none

/-- The event comes from a producer of messages. -/
def Event.isOutside : Event → Bool
  | send _ | closeFeed => true
  | _ => false

/-- The messages that were sent, the first one first. -/
def sent (es : List Event) : List Message := es.filterMap Event.sent?

/-- There is a feed, and messages may be sent to it. -/
def isOpen (t : Tracker) : Bool :=
  match t.source with
  | .feed f => !f.closed
  | .polled _ _ => false

/-- The tracker after an event, if that can happen. -/
def happen? (t : Tracker) : Event → Option Tracker
  | .send m => if t.isOpen then some (t.send m) else none
  | .closeFeed => some t.closeFeed
  | .turn name => t.step? name
  | .yield => some { t with schedule := t.schedule.yield }
  | .pass time =>
    if t.now ≤ time then some { t with schedule := { t.schedule with now := time } } else none
  | .ring => some { t with schedule := t.schedule.jump t.now }

/-- The tracker after events that happen one after the other. -/
def perform? (t : Tracker) : List Event → Option Tracker
  | [] => some t
  | e :: es => (t.happen? e).bind (·.perform? es)

/-- No task has anything to do, and none pauses. -/
structure Idle (t : Tracker) : Prop where
  awake : t.schedule.timers = []
  rests : ∀ name, t.step? name = none

variable {t t' t'' : Tracker}

theorem perform?_append (es es' : List Event) :
    t.perform? (es ++ es') = (t.perform? es).bind (·.perform? es') := by
  induction es generalizing t with
  | nil => rfl
  | cons e es ih =>
    rw [List.cons_append, perform?, perform?]
    cases t.happen? e with
    | none => rfl
    | some t' => exact ih

/-! ## What tasks and time lead to -/

/-- Tasks that take turns, and time, lead from `t` to `t'`. -/
def Reaches (t t' : Tracker) : Prop :=
  ∃ es : List Event, (∀ e ∈ es, e.isOutside = false) ∧ t.perform? es = some t'

theorem Reaches.refl (t : Tracker) : t.Reaches t :=
  ⟨[], fun _ h => absurd h List.not_mem_nil, rfl⟩

theorem Reaches.trans (h : t.Reaches t') (h' : t'.Reaches t'') : t.Reaches t'' := by
  obtain ⟨es, hin, hes⟩ := h
  obtain ⟨es', hin', hes'⟩ := h'
  refine ⟨es ++ es', fun e he => ?_, ?_⟩
  · rcases List.mem_append.mp he with he | he
    · exact hin e he
    · exact hin' e he
  · rw [perform?_append, hes]
    exact hes'

theorem Reaches.single {e : Event} (he : e.isOutside = false) (h : t.happen? e = some t') :
    t.Reaches t' := by
  refine ⟨[e], fun e' he' => List.mem_singleton.mp he' ▸ he, ?_⟩
  rw [perform?, h]
  rfl

theorem Reaches.pass {time : Nat} (h : t.now ≤ time) :
    t.Reaches { t with schedule := { t.schedule with now := time } } :=
  .single (e := .pass time) rfl (if_pos h)

theorem Reaches.jump {time : Nat} (h : t.now ≤ time) :
    t.Reaches { t with schedule := t.schedule.jump time } :=
  (Reaches.pass h).trans (.single (e := .ring) rfl rfl)

/-! ## The tracker's own way -/

theorem now_wake (name : TaskName) : (t.wake name).now = t.now := by
  unfold wake Schedule.wake now
  split <;> rfl

theorem now_backOff (name : TaskName) : (t.backOff name).now = t.now := by
  unfold backOff Schedule.pause now
  split <;> rfl

theorem now_forward (m : Message) : (t.forward m).now = t.now := now_wake _

theorem now_setPair (p : String) (task : PairTask) : (t.setPair p task).now = t.now := rfl

theorem now_reportRouted (r : Router) : (t.reportRouted r).now = t.now := by
  unfold reportRouted
  split <;> rfl

theorem now_reportDiffs (p : String) (task : PairTask) : (t.reportDiffs p task).now = t.now := by
  unfold reportDiffs
  split <;> rfl

theorem now_countApplied (p : String) (applied : Applied) :
    (t.countApplied p applied).now = t.now := by
  unfold countApplied
  split <;> rfl

theorem now_listen? (h : t.listen? = some t') : t'.now = t.now := by
  unfold listen? at h
  split at h
  · split at h
    · obtain rfl := Option.some.inj h
      exact now_forward _
    · split at h
      · obtain rfl := Option.some.inj h
        exact now_wake _
      · exact absurd h (by simp)
  · split at h
    · obtain rfl := Option.some.inj h
      rfl
    · obtain rfl := Option.some.inj h
      exact now_forward _
    · obtain rfl := Option.some.inj h
      unfold Schedule.pause now
      split <;> rfl
    · simp only at h
      split at h
      all_goals obtain rfl := Option.some.inj h
      · exact now_wake _
      · exact now_wake _
      · exact now_backOff _

theorem now_spawn (p : String) : (t.spawn p).1.now = t.now := now_wake _

/-- A task that is found was there, or is spawned. -/
theorem taskFor_cases {p : String} {task : PairTask} (h : t.taskFor p = some (t', task)) :
    t' = t ∨ t' = (t.spawn p).1 := by
  unfold taskFor ensure at h
  split at h
  · exact .inl (Prod.mk.inj (Option.some.inj h)).1.symm
  · split at h
    · split at h
      · exact .inl (Prod.mk.inj (Option.some.inj h)).1.symm
      · exact .inr (congrArg Prod.fst (Option.some.inj h)).symm
    · exact absurd h (by simp)

theorem now_taskFor {p : String} {task : PairTask} (h : t.taskFor p = some (t', task)) :
    t'.now = t.now := by
  rcases taskFor_cases h with rfl | rfl
  · rfl
  · exact now_spawn p

theorem now_route? (h : t.route? = some t') : t'.now = t.now := by
  unfold route? at h
  split at h
  · exact absurd h (by simp)
  · split at h
    · obtain rfl := Option.some.inj h
      unfold route
      split
      · rename_i t₁ task htask
        rw [now_reportRouted, now_wake, now_setPair]
        split at htask
        · exact now_taskFor htask
        · exact absurd htask (by simp)
      · exact now_reportRouted _
    · split at h
      · exact absurd h (by simp)
      · obtain rfl := Option.some.inj h
        rfl

theorem now_processNext? {p : String} (h : t.processNext? p = some t') : t'.now = t.now := by
  unfold processNext? at h
  split at h
  · exact absurd h (by simp)
  · split at h
    · obtain rfl := Option.some.inj h
      exact now_reportDiffs _ _
    · split at h
      · obtain rfl := Option.some.inj h
        unfold process
        simp only
        split
        · rw [now_reportDiffs, now_countApplied]
          rfl
        · exact now_backOff _
      · exact absurd h (by simp)

/-- A step takes no time. -/
theorem now_step? {name : TaskName} (h : t.step? name = some t') : t'.now = t.now := by
  unfold step? at h
  split at h
  · exact absurd h (by simp)
  · cases name with
    | listener =>
      simp only at h
      split at h
      · exact now_listen? h
      · exact absurd h (by simp)
    | router => exact now_route? h
    | pair p => exact now_processNext? h

theorem run_reached (n : Nat) (t : Tracker) : t.Reaches (t.run n) ∧ (t.run n).now = t.now := by
  induction n generalizing t with
  | zero => exact ⟨.refl t, rfl⟩
  | succ n ih =>
    rw [run]
    split
    · exact ⟨.refl t, rfl⟩
    · rename_i name _ _
      split
      · rename_i t' hstep
        obtain ⟨hr, hnow⟩ := ih t'
        exact ⟨(Reaches.single (e := .turn name) rfl hstep).trans hr,
          hnow.trans (now_step? hstep)⟩
      · obtain ⟨hr, hnow⟩ := ih { t with schedule := t.schedule.yield }
        exact ⟨(Reaches.single (e := .yield) rfl rfl).trans hr, hnow⟩

/-- **What the tracker does as time passes is an interleaving.** -/
theorem advance_reached (t : Tracker) (target : Nat) : t.Reaches (t.advance target) := by
  have hrest : ∀ t : Tracker, t.Reaches { t.settle with schedule :=
      { t.settle.schedule with now := max t.now target } } := by
    intro t
    obtain ⟨hr, hnow⟩ := run_reached t.load t
    refine hr.trans (.pass ?_)
    rw [hnow]
    exact Nat.le_max_left _ _
  induction t using advance.induct target with
  | case1 t settled hdue =>
    rw [advance, hdue]
    exact hrest t
  | case2 t settled due hdue hin ih =>
    rw [advance, hdue]
    simp only
    rw [dif_pos hin]
    obtain ⟨hr, hnow⟩ := run_reached t.load t
    refine hr.trans (Reaches.trans (.jump ?_) ih)
    rw [hnow]
    exact Nat.le_of_lt hin.1
  | case3 t settled due hdue hout =>
    rw [advance, hdue]
    simp only
    rw [dif_neg hout]
    exact hrest t

end Tracker

end BookFeed
