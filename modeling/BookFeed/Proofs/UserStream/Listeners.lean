import BookFeed.UserStream.Basic

/-!
# Listeners, task by task

Starting a user stream tells the listener before to go and spawns another one at once. A task that
is told to go does so only where it waits, so for a while there may be several. They share the feed,
which one has at a time: it takes a payload, then queues it, and does not wait in between. The
others wait until it lets go of the feed.

`System` is a user stream with its tasks. An event is one thing that a caller or a task does, so
each list of events is an interleaving. The task that has the feed stands by itself.

* `step_eq_or_work_lt`: what a task does brings down what is left to do;
* **`exists_atRest`**: left alone, tasks come to rest.
-/

namespace BookFeed.UserStream

/-- A listener that has not gone yet. -/
structure Task where
  id : Nat
  /-- it goes where it waits next -/
  aborted : Bool := false
deriving DecidableEq

/-- The task that has the feed. -/
structure Holder where
  task : Task
  /-- what it has taken from the feed, and not queued yet -/
  payload : Option Json.Value := none

/-- A user stream and its tasks. -/
structure System where
  stream : UserStream
  /-- the tasks that wait for the feed -/
  waiting : List Task := []
  holder : Option Holder := none
  /-- the task that the stream tells to go when it stops or starts again -/
  current : Option Nat := none
  /-- how many tasks there have been -/
  spawned : Nat := 0
  /-- every payload that was sent, the oldest first -/
  sent : List Json.Value := []
  /-- every event that was read, the oldest first -/
  read : List Json.Value := []

/-- What can happen next. Tasks that wait for the feed are named by their place. -/
inductive System.Event where
  | start
  | stop
  | send (payload : Json.Value)
  | closeFeed
  | read
  /-- a task gets the feed, if nobody has it -/
  | enter (i : Nat)
  /-- the task that has the feed takes a payload, or queues it, or finds the end of the feed -/
  | hold
  /-- a task that was told to go does so, without having got the feed -/
  | leave (i : Nat)
  /-- the task that has the feed goes, if it was told to and has not taken anything -/
  | release

/-- A task does this, and no caller. -/
def System.Event.isTask : System.Event → Bool
  | enter _ | hold | leave _ | release => true
  | start | stop | send _ | closeFeed | read => false

/-- What a caller sends. -/
def System.Event.payload? : System.Event → Option Json.Value
  | send payload => some payload
  | _ => none

/-- Tells a task to go, if it is the one with this id. -/
def Task.abort (current : Option Nat) (t : Task) : Task :=
  if current = some t.id then { t with aborted := true } else t

namespace System

/-- The tasks that have not gone. -/
def tasks (s : System) : List Task := (s.holder.map (·.task)).toList ++ s.waiting

/-- The tasks that have not been told to go. -/
def live (s : System) : List Task := s.tasks.filter (!·.aborted)

/-- Tells the current task to go. -/
def abort (s : System) : System :=
  { s with
    waiting := s.waiting.map (Task.abort s.current)
    holder := s.holder.map fun h => { h with task := h.task.abort s.current } }

/-- A task has gone: the stream waits for those that were told to go and have not yet. -/
def depart (s : System) : System := { s with stream.leaving := s.tasks.any (·.aborted) }

/-- The task that has the feed goes on. At the end of the feed it returns. -/
def resume (s : System) (h : Holder) : System :=
  match h.payload, s.stream.feed with
  | some payload, _ =>
    { s with
      stream.events := s.stream.events ++ [payload]
      stream.received := true
      holder := some { h with payload := none } }
  | none, payload :: feed =>
    { s with stream.feed := feed, holder := some { h with payload := some payload } }
  | none, [] =>
    if s.stream.closed then
      let listener := if s.current = some h.task.id then some .finished else s.stream.listener
      ({ s with stream.listener := listener, holder := none } : System).depart
    else s

/-- What cannot happen changes nothing. -/
def step (s : System) : Event → System
  | .start =>
    { s.abort with
      stream := s.stream.start
      waiting := s.abort.waiting ++ [⟨s.spawned, false⟩]
      current := some s.spawned
      spawned := s.spawned + 1 }
  | .stop => { s.abort with stream := s.stream.stop, current := none }
  | .send payload =>
    match s.stream.send payload with
    | .ok stream => { s with stream, sent := s.sent ++ [payload] }
    | .error _ => s
  | .closeFeed => { s with stream := s.stream.closeFeed }
  | .read =>
    match s.stream.next? with
    | (stream, some event) => { s with stream, read := s.read ++ [event] }
    | (_, none) => s
  | .enter i =>
    match s.holder, s.waiting[i]? with
    | none, some t => { s with waiting := s.waiting.eraseIdx i, holder := some ⟨t, none⟩ }
    | _, _ => s
  | .hold =>
    match s.holder with
    | some h => s.resume h
    | none => s
  | .leave i =>
    match s.waiting[i]? with
    | some t =>
      if t.aborted then ({ s with waiting := s.waiting.eraseIdx i } : System).depart else s
    | none => s
  | .release =>
    match s.holder with
    | some ⟨t, none⟩ => if t.aborted then ({ s with holder := none } : System).depart else s
    | _ => s

def run (s : System) (es : List Event) : System := es.foldl step s

/-- Nobody can get the feed, and who has it finds nothing to do. -/
def Idle (s : System) : Prop := s.step .hold = s ∧ ∀ i, s.step (.enter i) = s

/-- Nothing is left to do for any task: those that were told to go have gone, too. -/
def AtRest (s : System) : Prop := ∀ e : Event, e.isTask = true → s.step e = s

theorem AtRest.idle {s : System} (h : s.AtRest) : s.Idle := ⟨h .hold rfl, fun i => h (.enter i) rfl⟩

variable {s : System} {e : Event}

theorem run_append (s : System) (es es' : List Event) : s.run (es ++ es') = (s.run es).run es' :=
  List.foldl_append ..

/-! ## Coming to rest -/

/-- How much is left to do for tasks, at most. -/
def work (s : System) : Nat :=
  3 * s.stream.feed.length + 2 * s.waiting.length +
    match s.holder with
    | none => 0
    | some ⟨_, none⟩ => 1
    | some ⟨_, some _⟩ => 2

/-- The task that has the feed brings down what is left to do, unless it has to wait. -/
theorem resume_eq_or_work_lt {h : Holder} (hh : s.holder = some h) :
    s.resume h = s ∨ (s.resume h).work < s.work := by
  obtain ⟨t, payload⟩ := h
  unfold resume
  split
  · rename_i payload hp
    obtain rfl : _ = some payload := hp
    refine .inr ?_
    simp only [work, hh]
    omega
  · rename_i payload feed hp hfeed
    obtain rfl : _ = none := hp
    -- what the feed loses counts more than what the task has in its hands then
    refine .inr ?_
    simp only [work, hh, hfeed, List.length_cons]
    omega
  · rename_i hp hfeed
    obtain rfl : _ = none := hp
    split
    · refine .inr ?_
      simp only [work, depart, hh]
      omega
    · exact .inl rfl

/-- What a task does brings down what is left to do. -/
theorem step_eq_or_work_lt (he : e.isTask = true) : s.step e = s ∨ (s.step e).work < s.work := by
  cases e with
  | start | stop | send | closeFeed | read => exact absurd he Bool.false_ne_true
  | enter i =>
    simp only [step]
    split
    · rename_i t hfree hi
      have hlen := (List.getElem?_eq_some_iff.mp hi).1
      refine .inr ?_
      simp only [work, hfree, List.length_eraseIdx_of_lt hlen]
      omega
    · exact .inl rfl
  | hold =>
    simp only [step]
    split
    · rename_i h hh
      exact resume_eq_or_work_lt hh
    · exact .inl rfl
  | leave i =>
    simp only [step]
    split
    · rename_i t hi
      have hlen := (List.getElem?_eq_some_iff.mp hi).1
      split
      · refine .inr ?_
        simp only [work, depart, List.length_eraseIdx_of_lt hlen]
        omega
      · exact .inl rfl
    · exact .inl rfl
  | release =>
    simp only [step]
    split
    · rename_i t hh
      split
      · refine .inr ?_
        simp only [work, depart, hh]
        omega
      · exact .inl rfl
    · exact .inl rfl

/-- **Left alone, tasks come to rest.** -/
theorem exists_atRest (s : System) : ∃ es : List Event, (∀ e ∈ es, e.isTask = true) ∧
    (s.run es).AtRest := by
  induction hw : s.work using Nat.strongRecOn generalizing s with
  | ind n ih =>
    by_cases hrest : s.AtRest
    · exact ⟨[], fun e he => absurd he List.not_mem_nil, hrest⟩
    · obtain ⟨e, hstep⟩ := Classical.not_forall.mp hrest
      obtain ⟨he, hne⟩ := Classical.not_imp.mp hstep
      have hlt := (step_eq_or_work_lt (s := s) he).resolve_left hne
      obtain ⟨es, hes, hrest⟩ := ih _ (hw ▸ hlt) (s.step e) rfl
      exact ⟨e :: es, List.forall_mem_cons.mpr ⟨he, hes⟩, hrest⟩

end System

end BookFeed.UserStream
