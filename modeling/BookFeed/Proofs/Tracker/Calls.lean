import BookFeed.Proofs.Sorted
import BookFeed.Proofs.Tracker.Interleaving

/-!
# Calls at a tracker, lock by lock

The router looks up the task of each message, others save messages or replace the tracked pairs, all
at the same time, and none of this is one step. Who needs the task of a pair looks for it without
the lock of the registry. Only where there is none is the lock taken: then the pair must still be
tracked, and gets its book and its task. Who replaces the tracked pairs swaps the set first, and
takes the lock for each pair that was dropped, to end its task and to remove its book.

`System` is a tracker with the calls that are under way. An event is one access to what they share,
so each list of events is an interleaving. The call that has the lock stands by itself, which is why
there is no second one.

* `find_alone`: a call that nobody interrupts finds the task that `Tracker.taskFor` finds;
* **`route_alone`, `save_alone`, `setTracked_alone`**: so what `Tracker.route`, `Tracker.save` and
  `Tracker.setTracked` do at once is one of the interleavings.

Out of scope: what the task of a pair still does after it was told to go because its pair is no
longer tracked. Here it is gone at once; the book that it might go on writing is looked up by nobody
any more. When a tracker is stopped, tasks do go on (`BookFeed.Proofs.Tracker.Closing`).
-/

namespace BookFeed

namespace Tracker

/-- Who hands a message to a pair. -/
inductive Sender where
  | router
  | saver
deriving DecidableEq, Repr

/-- Puts a message into an inbox. -/
def Sender.put (capacity : Nat) (b : Inbox) (m : Message) : Sender → Inbox
  | router => b.deliver m
  | saver => b.save capacity m

/-- What a call does next that does not have the lock. -/
inductive Call where
  /-- look whether the pair of a message is tracked -/
  | check (m : Message)
  /-- look for the task of the pair -/
  | find (m : Message) (sender : Sender)
  /-- take the lock, since there was no task -/
  | enter (m : Message) (sender : Sender)
  /-- hand the message to the task that writes the book `handle` -/
  | hand (m : Message) (sender : Sender) (handle : Handle)
  /-- put other pairs in the place of the tracked ones -/
  | replace (pairs : List String)
  /-- take the lock for the next of the pairs that are no longer tracked -/
  | untrack (pairs : List String)
deriving DecidableEq

/-- What the call does next that has the lock. -/
inductive Holder where
  /-- look whether the pair of a message is still tracked -/
  | recheck (m : Message) (sender : Sender)
  /-- register the book of the pair -/
  | register (m : Message) (sender : Sender)
  /-- spawn the task that writes the book `handle` -/
  | spawn (m : Message) (sender : Sender) (handle : Handle)
  /-- end the task of a pair -/
  | abort (pair : String) (others : List String)
  /-- remove the book of the pair -/
  | remove (pair : String) (others : List String)
deriving DecidableEq

/-- A tracker and the calls that have not returned. -/
structure System where
  tracker : Tracker
  /-- the calls that do not have the lock of the registry -/
  calls : List Call := []
  /-- the call that has it -/
  holder : Option Holder := none
  /-- what those who saved a message were told, the first answer first -/
  answers : List (Except Error Unit) := []

/-- What can happen next. -/
inductive System.Event where
  /-- the router takes a message from its queue -/
  | lookup (m : Message)
  | save (m : Message)
  | update (pairs : List String)
  /-- a call goes on, or waits on for the lock; calls are named by their place -/
  | go (i : Nat)
  /-- the call that has the lock goes on -/
  | hold
  /-- what else happens in a tracker; the router's turns are look-ups instead -/
  | other (e : Tracker.Event)

/-- The router takes a turn. -/
def Event.isRouting : Event → Bool
  | turn .router => true
  | _ => false

theorem changeFeed_eq (t : Tracker) (f : Feed → Feed) :
    ∃ source schedule, t.changeFeed f = { t with source, schedule } := by
  unfold changeFeed
  split
  · simp only
    split
    · exact ⟨_, _, rfl⟩
    · exact ⟨_, _, rfl⟩
  · exact ⟨_, _, rfl⟩

/-- **Apart from calls, three things happen**: the task of a pair takes a turn, or the listener does,
or only the source and the schedule change. -/
theorem happen?_cases {t t' : Tracker} {e : Event} (he : e.isRouting = false)
    (h : t.happen? e = some t') :
    (∃ p, e = .turn (.pair p) ∧ t.processNext? p = some t') ∨
      (∀ p, e ≠ .turn (.pair p)) ∧ (t.listening = true ∧ t.listen? = some t' ∨
        ∃ source schedule, t' = { t with source, schedule }) := by
  cases e with
  | send m =>
    simp only [happen?] at h
    split at h
    · obtain rfl := Option.some.inj h
      exact .inr ⟨by simp, .inr (changeFeed_eq _ _)⟩
    · exact absurd h (by simp)
  | closeFeed =>
    obtain rfl := Option.some.inj h
    exact .inr ⟨by simp, .inr (changeFeed_eq _ _)⟩
  | turn name =>
    simp only [happen?, step?] at h
    split at h
    · exact absurd h (by simp)
    · cases name with
      | listener =>
        simp only at h
        split at h
        · rename_i hl
          exact .inr ⟨by simp, .inl ⟨hl, h⟩⟩
        · exact absurd h (by simp)
      | router => exact absurd he.symm Bool.false_ne_true
      | pair p => exact .inl ⟨p, rfl, h⟩
  | yield => exact .inr ⟨by simp, .inr ⟨_, _, (Option.some.inj h).symm⟩⟩
  | pass time =>
    simp only [happen?] at h
    split at h
    · exact .inr ⟨by simp, .inr ⟨_, _, (Option.some.inj h).symm⟩⟩
    · exact absurd h (by simp)
  | ring => exact .inr ⟨by simp, .inr ⟨_, _, (Option.some.inj h).symm⟩⟩

/-! ## What a call does to the tracker -/

/-- The router counts a message and reports, if it is time. -/
def tally (t : Tracker) (accepted : Bool) : Tracker :=
  match t.router with
  | none => t
  | some r =>
    if accepted then t.reportRouted { r with accepted := r.accepted + 1 }
    else t.reportRouted { r with rejected := r.rejected + 1 }

/-- Hands a message to the task that writes the book `h`. Without that task it is lost. -/
def handTo (t : Tracker) (m : Message) (sender : Sender) (h : Handle) : Tracker :=
  match t.pair? m.pair with
  | none => t
  | some task =>
    if task.handle = h then
      (t.setPair m.pair { task with inbox := sender.put t.settings.backlog task.inbox m }).wake
        (.pair m.pair)
    else t

/-- Spawns the task of a pair, which writes the book `h`, unless there is one. -/
def attach (t : Tracker) (pair : String) (h : Handle) : Tracker × Handle :=
  match t.pair? pair with
  | some task => (t, task.handle)
  | none =>
    let task : PairTask :=
      { handle := h
        synchronizer := .new pair t.settings.window ((t.registry.read? h).getD (.empty pair))
        lastReport := t.now }
    ((t.setPair pair task).wake (.pair pair), h)

/-- Ends the task of a pair. -/
def abort (t : Tracker) (pair : String) : Tracker :=
  { t with
    pairs := Sorted.erase compare pair t.pairs
    schedule := t.schedule.cancel (.pair pair) }

/-- Removes the book of a pair. -/
def removeBook (t : Tracker) (pair : String) : Tracker :=
  { t with registry := t.registry.remove pair }

namespace System

/-- A call returns to the one who hands a message over. -/
def answer (s : System) (m : Message) : Sender → Bool → System
  | .router, true => { s with tracker := s.tracker.tally true }
  | .router, false =>
    { s with
      tracker := (s.tracker.count (.rejected s.tracker.exchange .untracked)).tally false }
  | .saver, true => { s with answers := s.answers ++ [.ok ()] }
  | .saver, false =>
    { s with answers := s.answers ++ [.error (.orderBook (m.pair ++ " is not tracked"))] }

/-- The calls `next` stand in the place of a call. -/
def turn (s : System) (i : Nat) (next : List Call) : System :=
  { s with calls := s.calls.eraseIdx i ++ next }

/-- A call takes the lock, if it is free. -/
def lock (s : System) (i : Nat) (h : Holder) : System :=
  match s.holder with
  | some _ => s
  | none => { s.turn i [] with holder := some h }

/-- The `i`-th call goes on. -/
def resume (s : System) (i : Nat) : Call → System
  | .check m =>
    if s.tracker.tracked.contains m.pair then s.turn i [.find m .router]
    else (s.turn i []).answer m .router false
  | .find m sender =>
    match s.tracker.pair? m.pair with
    | some task => s.turn i [.hand m sender task.handle]
    | none => s.turn i [.enter m sender]
  | .enter m sender => s.lock i (.recheck m sender)
  | .hand m sender h =>
    ({ s.turn i [] with tracker := s.tracker.handTo m sender h } : System).answer m sender true
  | .replace pairs =>
    match s.tracker.tracked.replace pairs with
    | (tracked, change) =>
      { s.turn i [.untrack change.removed] with tracker := { s.tracker with tracked } }
  | .untrack [] => s.turn i []
  | .untrack (p :: others) => s.lock i (.abort p others)

/-- The call that has the lock goes on. -/
def resumeHolder (s : System) : Holder → System
  | .recheck m sender =>
    if s.tracker.tracked.contains m.pair then { s with holder := some (.register m sender) }
    else ({ s with holder := none } : System).answer m sender false
  | .register m sender =>
    match s.tracker.registry.register m.pair with
    | (registry, h) =>
      { s with tracker := { s.tracker with registry }, holder := some (.spawn m sender h) }
  | .spawn m sender h =>
    match s.tracker.attach m.pair h with
    | (tracker, h) =>
      { s with tracker, calls := s.calls ++ [.hand m sender h], holder := none }
  | .abort p others =>
    { s with tracker := s.tracker.abort p, holder := some (.remove p others) }
  | .remove p others =>
    { s with
      tracker := s.tracker.removeBook p
      calls := s.calls ++ [.untrack others]
      holder := none }

/-- What cannot happen changes nothing. -/
def step (s : System) : Event → System
  | .lookup m => { s with calls := s.calls ++ [.check m] }
  | .save m => { s with calls := s.calls ++ [.find m .saver] }
  | .update pairs => { s with calls := s.calls ++ [.replace pairs] }
  | .go i =>
    match s.calls[i]? with
    | none => s
    | some c => s.resume i c
  | .hold =>
    match s.holder with
    | none => s
    | some h => s.resumeHolder h
  | .other e =>
    if e.isRouting then s else { s with tracker := (s.tracker.happen? e).getD s.tracker }

def run (s : System) (es : List Event) : System := es.foldl step s

variable {s : System} {t : Tracker} {m : Message} {sender : Sender}

theorem run_cons (e : Event) (es : List Event) : s.run (e :: es) = (s.step e).run es := rfl

theorem run_concat (es : List Event) (e : Event) : s.run (es ++ [e]) = (s.run es).step e :=
  List.foldl_concat ..

/-! ## Calls that nobody interrupts -/

/-- The turns of a call that looks for the task of a pair, where it may have to take the lock. -/
def finding : List Event := [.go 0, .go 0, .hold, .hold, .hold, .go 0]

/-- The turns of a call that drops the state of a pair. -/
def untracking : List Event := [.go 0, .hold, .hold]

/-- What has become of a call that looked for the task of a pair, to hand it a message. -/
def found (t : Tracker) (m : Message) (sender : Sender) : System :=
  match t.taskFor m.pair with
  | none => ({ tracker := t } : System).answer m sender false
  | some (t, task) =>
    let inbox := sender.put t.settings.backlog task.inbox m
    ({ tracker := (t.setPair m.pair { task with inbox }).wake (.pair m.pair) } : System).answer m
      sender true

/-- Where nobody calls, turns of calls change nothing. -/
theorem run_of_free {es : List Event} (h : ∀ e ∈ es, e = .hold ∨ e = .go 0)
    (hcalls : s.calls = []) (hfree : s.holder = none) : s.run es = s := by
  induction es with
  | nil => rfl
  | cons e es ih =>
    obtain ⟨he, hes⟩ := List.forall_mem_cons.mp h
    have hs : s.step e = s := by
      rcases he with rfl | rfl
      · simp only [step, hfree]
      · simp only [step, hcalls, List.getElem?_nil]
    rw [run_cons, hs]
    exact ih hes

theorem run_answer {es : List Event} (h : ∀ e ∈ es, e = .hold ∨ e = .go 0) (accepted : Bool) :
    (({ tracker := t } : System).answer m sender accepted).run es =
      ({ tracker := t } : System).answer m sender accepted := by
  apply run_of_free h
  · cases sender <;> cases accepted <;> rfl
  · cases sender <;> cases accepted <;> rfl

/-- Handing a message to the task that was found. -/
theorem step_hand {task : PairTask} (hp : t.pair? m.pair = some task) :
    ({ tracker := t, calls := [.hand m sender task.handle] } : System).step (.go 0) =
      ({ tracker := (t.setPair m.pair
          { task with inbox := sender.put t.settings.backlog task.inbox m }).wake (.pair m.pair) } :
        System).answer m sender true := by
  simp only [step, resume, List.getElem?_cons_zero, handTo, hp, if_true]
  rfl

/-- A call that has the lock and that nobody interrupts makes the task, if the pair is tracked. -/
theorem recheck_alone (sender : Sender) (hp : t.pair? m.pair = none) :
    ({ tracker := t, holder := some (.recheck m sender) } : System).run
      [.hold, .hold, .hold, .go 0] = found t m sender := by
  rw [found, taskFor, hp, ensure, hp, run_cons]
  by_cases ht : t.tracked.contains m.pair = true
  · have hrecheck : ({ tracker := t, holder := some (.recheck m sender) } : System).step .hold =
        { tracker := t, holder := some (.register m sender) } := by
      simp only [step, resumeHolder, ht, if_true]
    rw [hrecheck, run_cons, if_pos ht]
    cases hr : t.registry.register m.pair with
    | mk registry h =>
      have hregister : ({ tracker := t, holder := some (.register m sender) } : System).step .hold =
          { tracker := { t with registry }, holder := some (.spawn m sender h) } := by
        simp only [step, resumeHolder, hr]
      have hspawn : ({ tracker := { t with registry }, holder := some (.spawn m sender h) } :
          System).step .hold =
          { tracker := (t.spawn m.pair).1, calls := [.hand m sender (t.spawn m.pair).2.handle] } := by
        have hp' : ({ t with registry } : Tracker).pair? m.pair = none := hp
        simp only [step, resumeHolder, attach, spawn, hr, hp']
        rfl
      have hspawned : (t.spawn m.pair).1.pair? m.pair = some (t.spawn m.pair).2 := by
        simp only [spawn, hr]
        exact Sorted.get?_insert_self ..
      rw [hregister, run_cons, hspawn, run_cons, step_hand hspawned]
      rfl
  · have hrecheck : ({ tracker := t, holder := some (.recheck m sender) } : System).step .hold =
        ({ tracker := t } : System).answer m sender false := by
      simp only [step, resumeHolder, ht]
      rfl
    rw [hrecheck, if_neg ht]
    exact run_answer (by simp) false

/-- **Looking for a task without interruption finds what `taskFor` finds.** -/
theorem find_alone (t : Tracker) (m : Message) (sender : Sender) :
    ({ tracker := t, calls := [.find m sender] } : System).run finding = found t m sender := by
  rw [finding, run_cons, run_cons]
  cases hp : t.pair? m.pair with
  | some task =>
    have hfind : ({ tracker := t, calls := [.find m sender] } : System).step (.go 0) =
        { tracker := t, calls := [.hand m sender task.handle] } := by
      simp only [step, resume, List.getElem?_cons_zero, hp]
      rfl
    rw [hfind, step_hand hp, found, taskFor, hp]
    exact run_answer (by simp) true
  | none =>
    have hfind : ({ tracker := t, calls := [.find m sender] } : System).step (.go 0) =
        { tracker := t, calls := [.enter m sender] } := by
      simp only [step, resume, List.getElem?_cons_zero, hp]
      rfl
    have henter : ({ tracker := t, calls := [.enter m sender] } : System).step (.go 0) =
        { tracker := t, holder := some (.recheck m sender) } := rfl
    rw [hfind, henter]
    exact recheck_alone sender hp

theorem router_taskFor {t' : Tracker} {p : String} {task : PairTask}
    (h : t.taskFor p = some (t', task)) : t'.router = t.router := by
  rcases taskFor_cases h with rfl | rfl
  · rfl
  · rfl

/-- **A look-up that nobody interrupts does what `route` does at once.** -/
theorem route_alone (t : Tracker) (r : Router) (m : Message) (hr : t.router = some r) :
    (({ tracker := t } : System).step (.lookup m)).run (.go 0 :: finding) =
      { tracker := t.route r m } := by
  have hrefused : ({ tracker := t } : System).answer m .router false =
      { tracker := (t.count (.rejected t.exchange .untracked)).reportRouted
          { r with rejected := r.rejected + 1 } } := by
    have hr' : (t.count (.rejected t.exchange .untracked)).router = some r := hr
    simp only [answer, tally, hr', Bool.false_eq_true, if_false]
  rw [run_cons, route]
  by_cases ht : t.tracked.contains m.pair = true
  · have hcheck : (({ tracker := t } : System).step (.lookup m)).step (.go 0) =
        { tracker := t, calls := [.find m .router] } := by
      simp only [step, resume, List.nil_append, List.getElem?_cons_zero, ht, if_true]
      rfl
    rw [hcheck, find_alone, if_pos ht, found]
    cases htask : t.taskFor m.pair with
    | none => exact hrefused
    | some done =>
      obtain ⟨t', task⟩ := done
      have hr' : ((t'.setPair m.pair { task with inbox := task.inbox.deliver m }).wake
          (.pair m.pair)).router = some r := (router_taskFor htask).trans hr
      simp only [answer, tally, Sender.put, hr', if_true]
  · have hcheck : (({ tracker := t } : System).step (.lookup m)).step (.go 0) =
        ({ tracker := t } : System).answer m .router false := by
      simp only [step, resume, List.nil_append, List.getElem?_cons_zero, ht]
      rfl
    rw [hcheck, if_neg ht, run_answer (by simp [finding]) false]
    exact hrefused

/-- **Saving a message without interruption is what `save` does at once.** -/
theorem save_alone (t : Tracker) (m : Message) :
    (({ tracker := t } : System).step (.save m)).run finding =
      match t.save m with
      | .error e => { tracker := t, answers := [.error e] }
      | .ok t => { tracker := t, answers := [.ok ()] } := by
  refine (find_alone t m .saver).trans ?_
  unfold found save
  cases t.taskFor m.pair with
  | none => rfl
  | some found => rfl

/-- Dropping the state of pairs without interruption. -/
theorem untrack_alone (t : Tracker) (ps : List String) :
    ({ tracker := t, calls := [.untrack ps] } : System).run
        (ps.flatMap (fun _ => untracking) ++ [.go 0]) =
      { tracker := ps.foldl untrack t } := by
  induction ps generalizing t with
  | nil => rfl
  | cons p ps ih => exact ih (t.untrack p)

/-- **Replacing the tracked pairs without interruption is what `setTracked` does at once.** -/
theorem setTracked_alone (t : Tracker) (pairs : List String) :
    (({ tracker := t } : System).step (.update pairs)).run
        (.go 0 :: (t.tracked.replace pairs).2.removed.flatMap (fun _ => untracking) ++ [.go 0]) =
      { tracker := t.setTracked pairs } :=
  untrack_alone { t with tracked := (t.tracked.replace pairs).1 } _

end System

end Tracker

end BookFeed
