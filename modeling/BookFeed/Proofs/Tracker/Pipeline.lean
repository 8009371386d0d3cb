import BookFeed.Proofs.Sorted
import BookFeed.Tracker.Step
import Mathlib.Logic.Function.Basic

/-!
# The way of a message through a tracker

A message goes from the feed to the router, from there to the inbox of its pair, and from the inbox
into the book. `Tracker.pipeline` is what of a tracker takes part in this: the schedule, the counts
and the announcements are left out.

`Moved` lists everything that a task can do to it, with the conditions under which it does.
`step?_moved` says that a step does one of these, so a fact about every step is a case analysis of
`Moved`, and no other proof opens a step.
-/

namespace BookFeed

/-- What the task of a pair has, without its counts. -/
structure Serving where
  handle : Handle
  synchronizer : Synchronizer
  inbox : Inbox := {}
  recovering : Bool := false

def PairTask.serving (task : PairTask) : Serving :=
  ⟨task.handle, task.synchronizer, task.inbox, task.recovering⟩

/-- What messages pass through. -/
structure Pipeline where
  settings : Tracker.Settings
  tracked : TrackedPairs
  source : Tracker.Source
  listening : Bool
  /-- the messages at the router, if there is one -/
  queue : Option (List Message)
  serving : String → Option Serving
  registry : Registry
  trades : TradeStream

/-- The stream after a message of which this became. -/
def TradeStream.after (s : TradeStream) (m : Message) : Except Error Applied → TradeStream
  | .ok .trade => s.send m
  | _ => s

theorem TradeStream.after_ok (s : TradeStream) (m : Message) (applied : Applied) :
    s.after m (.ok applied) = if applied = .trade then s.send m else s := by
  cases applied <;> rfl

namespace Tracker

def pipeline (t : Tracker) : Pipeline where
  settings := t.settings
  tracked := t.tracked
  source := t.source
  listening := t.listening
  queue := t.router.map (·.queue)
  serving p := (t.pair? p).map (·.serving)
  registry := t.registry
  trades := t.trades

end Tracker

namespace Pipeline

/-- Puts a pair's task back. -/
def serve (c : Pipeline) (p : String) (k : Serving) : Pipeline :=
  { c with serving := Function.update c.serving p (some k) }

theorem serve_serve (c : Pipeline) (p : String) (k k' : Serving) :
    (c.serve p k).serve p k' = c.serve p k' := by
  unfold serve
  rw [Function.update_idem]

/-- What the tasks can do. -/
inductive Moved (c : Pipeline) : Pipeline → Prop where
  | forwarded {f : Feed} {m : Message} {queue : List Message} (hs : c.source = .feed f)
      (hl : c.listening = true) (hq : f.queue = m :: queue) :
      Moved c { c with source := .feed { f with queue }, queue := c.queue.map (· ++ [m]) }
  /-- the listener ends -/
  | finished {f : Feed} (hs : c.source = .feed f) (hl : c.listening = true) (hq : f.queue = [])
      (hc : f.closed = true) : Moved c { c with listening := false }
  | delivered {m : Message} {queue : List Message} {k : Serving} (hq : c.queue = some (m :: queue))
      (ht : c.tracked.contains m.pair = true) (hk : c.serving m.pair = some k) :
      Moved c ({ c with queue := some queue }.serve m.pair
        { k with inbox := k.inbox.deliver m })
  /-- the first message of a pair -/
  | opened {m : Message} {queue : List Message} {registry : Registry} {handle : Handle}
      (hq : c.queue = some (m :: queue)) (ht : c.tracked.contains m.pair = true)
      (hk : c.serving m.pair = none) (hr : c.registry.register m.pair = (registry, handle)) :
      Moved c ({ c with queue := some queue, registry }.serve m.pair
        { handle
          synchronizer :=
            .new m.pair c.settings.window ((registry.read? handle).getD (.empty m.pair))
          inbox := ⟨[], [m]⟩ })
  | rejected {m : Message} {queue : List Message} (hq : c.queue = some (m :: queue))
      (ht : c.tracked.contains m.pair = false) : Moved c { c with queue := some queue }
  /-- the router ends -/
  | closed (hq : c.queue = some []) (hl : c.listening = false) : Moved c { c with queue := none }
  /-- the pause after a fault is over -/
  | recovered {p : String} {k : Serving} (hk : c.serving p = some k) (hr : k.recovering = true) :
      Moved c (c.serve p { k with recovering := false })
  | processed {p : String} {k : Serving} {m : Message} {inbox : Inbox} {s : Synchronizer}
      {outcome : Except Error Applied} (hk : c.serving p = some k) (hr : k.recovering = false)
      (hm : k.inbox.take? = some (m, inbox)) (hp : k.synchronizer.process m = (s, outcome)) :
      Moved c ({ c with
        registry := c.registry.write k.handle fun _ => s.book
        trades := c.trades.after m outcome }.serve p
          { k with synchronizer := s, inbox, recovering := !outcome.isOk })

end Pipeline

namespace Tracker

open Pipeline (Moved)

variable {t t' : Tracker} {p : String} {m : Message}

theorem serving_pipeline : t.pipeline.serving p = (t.pair? p).map (·.serving) := rfl

theorem queue_pipeline : t.pipeline.queue = t.router.map (·.queue) := rfl

/-! ## What the parts of a step do to the pipeline -/

@[simp] theorem pipeline_wake (name : TaskName) : (t.wake name).pipeline = t.pipeline := rfl

@[simp] theorem pipeline_backOff (name : TaskName) : (t.backOff name).pipeline = t.pipeline := rfl

@[simp] theorem pipeline_count (c : Counter) : (t.count c).pipeline = t.pipeline := rfl

@[simp] theorem pipeline_announce (component : String) (e : Error) (message : String) :
    (t.announce component e message).pipeline = t.pipeline := rfl

@[simp] theorem pipeline_countApplied (applied : Applied) :
    (t.countApplied p applied).pipeline = t.pipeline := by
  unfold countApplied
  split <;> rfl

@[simp] theorem pipeline_setPair (task : PairTask) :
    (t.setPair p task).pipeline = t.pipeline.serve p task.serving := by
  unfold setPair pipeline Pipeline.serve
  congr 1
  funext q
  by_cases hq : q = p
  · rw [hq, Function.update_self, pair?, Sorted.get?_insert_self]
    rfl
  · rw [Function.update_of_ne hq, pair?, Sorted.get?_insert_of_ne hq]
    rfl

@[simp] theorem pipeline_reportDiffs (task : PairTask) :
    (t.reportDiffs p task).pipeline = t.pipeline.serve p task.serving := by
  unfold reportDiffs
  split
  · exact pipeline_setPair _
  · exact pipeline_setPair _

@[simp] theorem pipeline_reportRouted (r : Router) :
    (t.reportRouted r).pipeline = { t.pipeline with queue := some r.queue } := by
  unfold reportRouted
  split <;> rfl

@[simp] theorem pipeline_forward :
    (t.forward m).pipeline =
      { t.pipeline with queue := t.pipeline.queue.map (· ++ [m]) } := by
  unfold forward pipeline
  cases t.router <;> rfl

/-! ## The tasks -/

theorem listen?_moved {f : Feed} (hs : t.source = .feed f) (hl : t.listening = true)
    (h : t.listen? = some t') : Moved t.pipeline t'.pipeline := by
  unfold listen? at h
  rw [hs] at h
  simp only at h
  split at h
  · rename_i m queue hq
    obtain rfl := Option.some.inj h
    rw [pipeline_forward]
    exact .forwarded hs hl hq
  · rename_i hq
    split at h
    · rename_i hc
      obtain rfl := Option.some.inj h
      exact .finished hs hl hq hc
    · exact absurd h (by simp)

theorem route?_moved (h : t.route? = some t') : Moved t.pipeline t'.pipeline := by
  unfold route? at h
  cases hr : t.router with
  | none =>
    rw [hr] at h
    exact absurd h (by simp)
  | some r =>
    rw [hr] at h
    have hqueue : t.pipeline.queue = some r.queue := by rw [queue_pipeline, hr]; rfl
    cases hq : r.queue with
    | nil =>
      simp only [hq] at h
      split at h
      · exact absurd h (by simp)
      · rename_i hl
        obtain rfl := Option.some.inj h
        exact .closed (hq ▸ hqueue) (Bool.not_eq_true _ ▸ hl)
    | cons m queue =>
      rw [hq] at hqueue
      simp only [hq, Option.some.injEq] at h
      obtain rfl := h
      unfold route
      by_cases ht : t.tracked.contains m.pair = true
      · rw [if_pos ht]
        unfold taskFor
        cases hk : t.pair? m.pair with
        | some task =>
          simp only [pipeline_reportRouted, pipeline_wake, pipeline_setPair]
          have hserving : t.pipeline.serving m.pair = some task.serving := by
            rw [serving_pipeline, hk]
            rfl
          exact .delivered hqueue ht hserving
        | none =>
          simp only [ensure, ht, if_true, hk, spawn]
          have hserving : t.pipeline.serving m.pair = none := by
            rw [serving_pipeline, hk]
            rfl
          cases hreg : t.registry.register m.pair with
          | mk registry handle =>
            have hmoved := Moved.opened hqueue ht hserving hreg
            simp only [pipeline_reportRouted, pipeline_wake, pipeline_setPair,
              Pipeline.serve_serve]
            exact hmoved
      · rw [if_neg ht]
        simp only [pipeline_reportRouted, pipeline_count]
        exact .rejected hqueue (Bool.not_eq_true _ ▸ ht)

theorem pipeline_process (task : PairTask) (hr : task.recovering = false) {s : Synchronizer}
    {outcome : Except Error Applied} (hp : task.synchronizer.process m = (s, outcome)) :
    (t.process p task m).pipeline = ({ t.pipeline with
      registry := t.registry.write task.handle fun _ => s.book
      trades := t.trades.after m outcome } : Pipeline).serve p
        { task.serving with synchronizer := s, recovering := !outcome.isOk } := by
  unfold process
  simp only [hp]
  cases outcome with
  | error e =>
    simp only [pipeline_backOff, pipeline_setPair, pipeline_announce]
    rfl
  | ok applied =>
    simp only [pipeline_reportDiffs, pipeline_countApplied, PairTask.serving, hr,
      ← TradeStream.after_ok]
    rfl

theorem processNext?_moved (h : t.processNext? p = some t') : Moved t.pipeline t'.pipeline := by
  unfold processNext? at h
  cases hk : t.pair? p with
  | none =>
    rw [hk] at h
    exact absurd h (by simp)
  | some task =>
    have hserving : t.pipeline.serving p = some task.serving := by
      rw [serving_pipeline, hk]
      rfl
    simp only [hk] at h
    split at h
    · rename_i hr
      obtain rfl := Option.some.inj h
      rw [pipeline_reportDiffs]
      exact .recovered hserving hr
    · rename_i hr
      rw [Bool.not_eq_true] at hr
      split at h
      · rename_i m inbox hm
        obtain rfl := Option.some.inj h
        cases hp : task.synchronizer.process m with
        | mk s outcome =>
          have hmoved := Moved.processed hserving hr hm hp
          rw [pipeline_process { task with inbox } hr hp]
          exact hmoved
      · exact absurd h (by simp)

/-- **A step does one of the things listed.** -/
theorem step?_moved {f : Feed} {name : TaskName} (hs : t.source = .feed f)
    (h : t.step? name = some t') : Moved t.pipeline t'.pipeline := by
  unfold step? at h
  split at h
  · exact absurd h (by simp)
  · cases name with
    | listener =>
      simp only at h
      split at h
      · rename_i hl
        exact listen?_moved hs hl h
      · exact absurd h (by simp)
    | router => exact route?_moved h
    | pair p => exact processNext?_moved h

end Tracker

end BookFeed
