import BookFeed.Proofs.Tracker.Handover
import Mathlib.Algebra.GroupWithZero.Nat

/-!
# Trackers that are being stopped

Whoever stops a tracker tells the listener and the router to go, then the tasks of all pairs, and
last takes the lock of the registry and drops the books. He waits for no task. A task that was told
to go does so where it waits, and up to there it goes on: the listener may forward another message,
the router may still give a pair its book and its task, and the task of a pair may process what it
has, although nobody finds it any more.

`Closing` is a tracker while this happens. An event is one statement of the stop, or what a task
does, so each list of events is an interleaving. When a task goes is left open: it may go wherever
it may have to wait, and it may take any number of turns before.

* `Going.step`: nobody but the router has a call under way all the time;
* **`Going.exists_over`**: the stop comes to its end and the tasks go, whatever they have under way;
* **`stop_alone`**: `Tracker.stop` is a stop during which every task goes at once.

Out of scope: other calls, since whoever stops a tracker has it to himself, and a launch while there
are still tasks that were told to go. When they go is up to the runtime, and as long as one lingers
it may hand what it has to tasks of the time after. `Closing.Over` says that all have gone.
-/

namespace BookFeed

namespace Tracker

/-! ## Calls of the router -/

/-- The call is at a place where it may have to wait for others. -/
def Call.mayWait : Call → Bool
  | .check _ | .enter _ _ | .untrack _ | .replace _ => true
  | .find _ _ | .hand _ _ _ => false

@[inherit_doc Call.mayWait]
def Holder.mayWait : Holder → Bool
  | .recheck _ _ => true
  | .register _ _ | .spawn _ _ _ | .abort _ _ | .remove _ _ => false

namespace System

/-- Nobody but the router has a call under way. -/
structure Sole (s : System) : Prop where
  calls : ∀ c ∈ s.calls, c.isRouted = true
  holder : ∀ h ∈ s.holder, h.isRouted = true

/-- Whoever has a call under way may have to wait for others. -/
def mayWait (s : System) : Bool := s.calls.all (·.mayWait) && s.holder.all (·.mayWait)

/-- Drops the calls that are under way. -/
def release (s : System) : System := { s with calls := [], holder := none }

variable {s : System} {i : Nat} {c : Call} {h : Holder} {next : List Call}

theorem Sole.turn (hs : s.Sole) (hnext : ∀ c ∈ next, c.isRouted = true) :
    (s.turn i next).Sole where
  calls c hc := (List.mem_append.mp hc).elim
    (fun hold => hs.calls c (List.mem_of_mem_eraseIdx hold)) (hnext c)
  holder := hs.holder

theorem Sole.answer (hs : s.Sole) (m : Message) (sender : Sender) (accepted : Bool) :
    (s.answer m sender accepted).Sole := by
  cases sender <;> cases accepted <;> exact ⟨hs.calls, hs.holder⟩

theorem Sole.lock (hs : s.Sole) (hh : h.isRouted = true) : (s.lock i h).Sole := by
  have hended : (s.turn i []).Sole := hs.turn (by simp)
  unfold System.lock
  split
  · exact hs
  · exact ⟨hended.calls, fun h' hh' => Option.some.inj hh' ▸ hh⟩

/-- A call of the router makes no others. -/
theorem Sole.resume (hs : s.Sole) (hc : c.isRouted = true) : (s.resume i c).Sole := by
  have hended : (s.turn i []).Sole := hs.turn (by simp)
  cases c with
  | check m =>
    simp only [System.resume]
    split
    · exact hs.turn (List.forall_mem_singleton.mpr rfl)
    · exact hended.answer m .router false
  | find m sender =>
    simp only [System.resume]
    split
    · exact hs.turn (List.forall_mem_singleton.mpr hc)
    · exact hs.turn (List.forall_mem_singleton.mpr hc)
  | enter m sender => exact hs.lock hc
  | hand m sender b =>
    have hhanded : ({ s.turn i [] with tracker := s.tracker.handTo m sender b } : System).Sole :=
      ⟨hended.calls, hended.holder⟩
    exact hhanded.answer m sender true
  | replace | untrack => exact absurd hc Bool.false_ne_true

theorem Sole.resumeHolder (hs : s.Sole) (hh : h.isRouted = true) : (s.resumeHolder h).Sole := by
  have hreleased : ({ s with holder := none } : System).Sole :=
    ⟨hs.calls, fun h hh => absurd hh (by simp)⟩
  cases h with
  | recheck m sender =>
    simp only [System.resumeHolder]
    split
    · exact ⟨hs.calls, fun h hh' => Option.some.inj hh' ▸ hh⟩
    · exact hreleased.answer m sender false
  | register m sender => exact ⟨hs.calls, fun h' hh' => Option.some.inj hh' ▸ hh⟩
  | spawn m sender b =>
    refine ⟨fun c hc => ?_, hreleased.holder⟩
    rcases List.mem_append.mp hc with hold | hnew
    · exact hs.calls c hold
    · obtain rfl := List.mem_singleton.mp hnew
      exact hh
  | abort | remove => exact absurd hh Bool.false_ne_true

theorem Sole.takeUp (hs : s.Sole) : s.takeUp.Sole := by
  rcases takeUp_cases s with hsame | ⟨r, m, queue, -, -, htaken⟩ | ⟨r, -, -, -, hended⟩
  · rwa [hsame]
  · rw [htaken]
    refine ⟨fun c hc => ?_, hs.holder⟩
    rcases List.mem_append.mp hc with hold | hnew
    · exact hs.calls c hold
    · obtain rfl := List.mem_singleton.mp hnew
      rfl
  · rw [hended]
    exact ⟨hs.calls, hs.holder⟩

theorem Sole.go (hs : s.Sole) (i : Nat) : (s.step (.go i)).Sole := by
  simp only [System.step]
  split
  · exact hs
  · rename_i c hc
    exact hs.resume (hs.calls c (List.mem_of_getElem? hc))

theorem Sole.hold (hs : s.Sole) : (s.step .hold).Sole := by
  simp only [System.step]
  split
  · exact hs
  · rename_i h hh
    exact hs.resumeHolder (hs.holder h hh)

end System

/-- Whatever happens, nobody else gets a call under way, unless he saves a message. -/
theorem Audit.sole_step {x : Audit} (hs : x.system.Sole) {e : Audit.Event}
    (hsaved : ∀ m, e ≠ .save m) : (x.step e).system.Sole := by
  cases e with
  | other e =>
    simp only [step]
    split
    · exact hs.takeUp
    · rename_i he
      cases ht : x.tracker.happen? e with
      | none => exact hs
      | some t =>
        have hstep : x.system.step (.other e) = { x.system with tracker := t } :=
          System.step_other (Bool.not_eq_true _ ▸ he) ht
        simp only [hstep]
        exact ⟨hs.calls, hs.holder⟩
  | save m => exact absurd rfl (hsaved m)
  | go i => exact hs.go i
  | hold => exact hs.hold
  | takeTrades | readTrades | dropTrades => exact ⟨hs.calls, hs.holder⟩

/-- There is a task of the pair, and it writes the book `h`. -/
def isServed (t : Tracker) (p : String) (h : Handle) : Bool := (t.pair? p).any (·.handle = h)

/-- A turn of the task of a pair that is not among the tasks any more. It goes rather than pause. -/
def stray? (t : Tracker) (p : String) (task : PairTask) : Option (Tracker × PairTask) :=
  if task.recovering then none
  else
    match ({ t with pairs := [(p, task)] } : Tracker).processNext? p with
    | none => none
    | some t' =>
      (t'.pair? p).map fun task => ({ t' with pairs := t.pairs, schedule := t.schedule }, task)

/-! ## The stop -/

/-- What is done to stop a tracker, one after the other. -/
inductive Statement where
  /-- tell the listener and the router to go -/
  | dismiss
  /-- tell the tasks of all pairs to go, and forget them -/
  | drain
  /-- drop the books, when nobody has the lock -/
  | clear
deriving DecidableEq

/-- The whole stop. -/
def Statement.all : List Statement := [.dismiss, .drain, .clear]

/-- A tracker that is being stopped. -/
structure Closing where
  audit : Audit
  /-- what is left to be done of the stop -/
  agenda : List Statement := Statement.all
  /-- the listener and the router were told to go -/
  dismissed : Bool := false
  /-- the tasks of pairs that were told to go and have not gone yet -/
  strays : List (String × PairTask) := []

/-- What can happen next. -/
inductive Closing.Event where
  /-- the next statement of the stop -/
  | own
  /-- what can happen at other times, too -/
  | other (e : Audit.Event)
  /-- a task goes; the tasks of pairs are named by their place -/
  | leaveListener
  | leaveRouter
  | leaveStray (i : Nat)
  /-- the task of a pair, which was told to go, takes a turn -/
  | stray (i : Nat)

/-- The stop goes on, or a call of the router does, or a task goes. -/
def Closing.Event.isDue : Closing.Event → Bool
  | own | other (.go _) | other .hold | leaveListener | leaveRouter | leaveStray _ => true
  | other _ | stray _ => false

namespace Closing

def system (c : Closing) : System := c.audit.system

def tracker (c : Closing) : Tracker := c.audit.tracker

def setTracker (c : Closing) (t : Tracker) : Closing := { c with audit.system.tracker := t }

/-- The next statement of the stop. Without the lock the books are not dropped. -/
def proceed (c : Closing) : Closing :=
  match c.agenda with
  | [] => c
  | .dismiss :: agenda => { c with agenda, dismissed := true }
  | .drain :: agenda =>
    { c.setTracker c.tracker.drain with agenda, strays := c.strays ++ c.tracker.pairs }
  | .clear :: agenda =>
    match c.system.holder with
    | some _ => c
    | none => { c.setTracker c.tracker.clearBooks with agenda }

/-- The message is put into the inbox of the task, if that is the one of its pair that writes the
book `h`. -/
def receive (m : Message) (h : Handle) (e : String × PairTask) : String × PairTask :=
  if e.1 = m.pair ∧ e.2.handle = h then (e.1, { e.2 with inbox := e.2.inbox.deliver m }) else e

/-- A call of the router goes on. The task that it has found may have been told to go since. -/
def resume (c : Closing) (i : Nat) : Closing :=
  { c with
    audit := c.audit.step (.go i)
    strays := match c.system.calls[i]? with
      | some (.hand m _ h) =>
        if c.tracker.isServed m.pair h then c.strays else c.strays.map (receive m h)
      | _ => c.strays }

/-- The task of a pair, which was told to go, takes a turn. -/
def wander (c : Closing) (i : Nat) (p : String) (task : PairTask) : Closing :=
  match c.tracker.stray? p task with
  | none => c
  | some (t, task') =>
    { c.setTracker t with
      audit.processed := c.audit.processed ++
        (({ c.tracker with pairs := [(p, task)] } : Tracker).next? p).toList
      strays := c.strays.set i (p, task') }

def leaveListener (c : Closing) : Closing :=
  c.setTracker { c.tracker with
    listening := false, schedule := c.tracker.schedule.cancel .listener }

/-- The router goes, and with it the call that it has under way. -/
def leaveRouter (c : Closing) : Closing :=
  { c with audit.system :=
      { c.system.release with tracker :=
          { c.tracker with router := none, schedule := c.tracker.schedule.cancel .router } } }

/-- What cannot happen changes nothing. -/
def step (c : Closing) : Event → Closing
  | .own => c.proceed
  | .other (.save _) => c
  | .other (.go i) => c.resume i
  | .other e => { c with audit := c.audit.step e }
  | .leaveListener => if c.dismissed then c.leaveListener else c
  | .leaveRouter => if c.dismissed ∧ c.system.mayWait then c.leaveRouter else c
  | .leaveStray i => { c with strays := c.strays.eraseIdx i }
  | .stray i =>
    match c.strays[i]? with
    | none => c
    | some (p, task) => c.wander i p task

def run (c : Closing) (es : List Event) : Closing := es.foldl step c

/-- Stops the tracker once more. -/
def again (c : Closing) : Closing := { c with agenda := Statement.all }

/-- The tracker is launched. -/
def launch (c : Closing) : Audit := { c.audit with system.tracker := c.tracker.launch }

/-- The stop is done, and all tasks that were told to go have gone. -/
structure Over (c : Closing) : Prop where
  agenda : c.agenda = []
  listening : c.tracker.listening = false
  router : c.tracker.router = none
  calls : c.system.calls = []
  free : c.system.holder = none
  strays : c.strays = []

instance (c : Closing) : Decidable c.Over :=
  decidable_of_iff (c.agenda = [] ∧ c.tracker.listening = false ∧ c.tracker.router = none ∧
      c.system.calls = [] ∧ c.system.holder = none ∧ c.strays = [])
    ⟨fun ⟨ha, hl, hr, hc, hf, hs⟩ => ⟨ha, hl, hr, hc, hf, hs⟩,
      fun ⟨ha, hl, hr, hc, hf, hs⟩ => ⟨ha, hl, hr, hc, hf, hs⟩⟩

end Closing

/-! ## How a stop comes to its end -/

/-- What is left to do for a call, at most. When it spawns a task, there is that task to end. -/
def Call.rank : Call → Nat
  | .check _ => 11
  | .find _ _ => 10
  | .enter _ _ => 9
  | .hand _ _ _ => 3
  | .replace _ | .untrack _ => 0

@[inherit_doc Call.rank]
def Holder.rank : Holder → Nat
  | .recheck _ _ => 8
  | .register _ _ => 7
  | .spawn _ _ _ => 6
  | .abort _ _ | .remove _ _ => 0

/-- What is left to do for the tasks, at most: those of pairs have to be told to go first. -/
def rank (t : Tracker) : Nat := 2 * t.pairs.length + t.listening.toNat + t.router.isSome.toNat

variable {t : Tracker} {p : String} {m : Message}

theorem rank_drain : t.rank = 2 * t.pairs.length + t.drain.rank := by
  show 2 * _ + _ + _ = 2 * _ + (2 * 0 + _ + _)
  rw [Nat.mul_zero, Nat.zero_add, Nat.add_assoc]
  rfl

theorem rank_tally (accepted : Bool) : (t.tally accepted).rank = t.rank := by
  have hreported : ∀ r : Router, t.router.isSome = true → (t.reportRouted r).rank = t.rank := by
    intro r hr
    unfold reportRouted rank
    split <;> simp only [hr, Option.isSome_some]
  unfold tally
  cases hr : t.router with
  | none => rfl
  | some r =>
    have hsome : t.router.isSome = true := hr ▸ rfl
    simp only
    split
    · exact hreported _ hsome
    · exact hreported _ hsome

theorem rank_setPair_le (task : PairTask) : (t.setPair p task).rank ≤ t.rank + 2 := by
  have hlen : (Sorted.insert compare p task t.pairs).length ≤ t.pairs.length + 1 :=
    Sorted.length_insert_le p task t.pairs
  show 2 * (Sorted.insert compare p task t.pairs).length + t.listening.toNat +
    t.router.isSome.toNat ≤ _
  rw [rank]
  omega

theorem rank_handTo_le (sender : Sender) (h : Handle) :
    (t.handTo m sender h).rank ≤ t.rank + 2 := by
  unfold handTo
  split
  · omega
  · split
    · exact rank_setPair_le _
    · omega

theorem rank_attach_le (h : Handle) : (t.attach p h).1.rank ≤ t.rank + 2 := by
  unfold attach
  split
  · exact Nat.le_add_right _ _
  · exact rank_setPair_le _

namespace System

/-- What is left to do for the calls, at most. -/
def pending (s : System) : Nat := (s.calls.map Call.rank).sum + s.holder.elim 0 Holder.rank

/-- What is left to do, at most, until no task and no call is left. -/
def rank (s : System) : Nat := s.tracker.rank + s.pending

variable {s : System} {c : Call} {h : Holder} {rest : List Call}

theorem rank_answer (m : Message) (sender : Sender) (accepted : Bool) :
    (s.answer m sender accepted).rank = s.rank := by
  cases sender with
  | saver => cases accepted <;> rfl
  | router =>
    cases accepted with
    | true =>
      show (s.tracker.tally true).rank + s.pending = _
      rw [rank_tally]
      rfl
    | false =>
      show ((s.tracker.count _).tally false).rank + s.pending = _
      rw [rank_tally]
      rfl

theorem pending_turn (hc : s.calls = c :: rest) (next : List Call) :
    (s.turn 0 next).pending + c.rank = s.pending + (next.map Call.rank).sum := by
  have hafter : (s.turn 0 next).calls = rest ++ next := by simp [turn, hc]
  have hholder : (s.turn 0 next).holder = s.holder := rfl
  rw [pending, pending, hafter, hholder, hc, List.map_append, List.sum_append, List.map_cons,
    List.sum_cons]
  omega

theorem rank_turn_lt (hc : s.calls = c :: rest) {next : List Call}
    (hlt : (next.map Call.rank).sum < c.rank) : (s.turn 0 next).rank < s.rank := by
  have hturn := pending_turn hc next
  show s.tracker.rank + (s.turn 0 next).pending < s.tracker.rank + s.pending
  omega

/-- As long as nobody has the lock, the router's call gets on. -/
theorem rank_go_lt (hs : s.Sole) (hf : s.holder = none) (hc : s.calls = c :: rest) :
    (s.step (.go 0)).rank < s.rank := by
  have hstep : s.step (.go 0) = s.resume 0 c := by simp only [step, hc, List.getElem?_cons_zero]
  have hrouted := hs.calls c (hc ▸ List.mem_cons_self)
  have hgone := pending_turn hc []
  rw [hstep]
  cases c with
  | check m =>
    simp only [resume]
    split
    · exact rank_turn_lt hc (Nat.lt_succ_self 10)
    · rw [rank_answer]
      exact rank_turn_lt hc (Nat.zero_lt_succ 10)
  | find m sender =>
    simp only [resume]
    split
    · exact rank_turn_lt hc (show 3 < 10 by decide)
    · exact rank_turn_lt hc (Nat.lt_succ_self 9)
  | enter m sender =>
    have hfree : (s.turn 0 []).holder = none := hf
    rw [pending, hfree] at hgone
    simp only [resume, lock, hf]
    show s.tracker.rank + (((s.turn 0 []).calls.map Call.rank).sum + 8) <
      s.tracker.rank + s.pending
    have hgone : _ + 0 + 9 = s.pending + 0 := hgone
    omega
  | hand m sender b =>
    have hhanded := rank_handTo_le (t := s.tracker) (m := m) sender b
    have hgone : (s.turn 0 []).pending + 3 = s.pending + 0 := hgone
    simp only [resume, rank_answer]
    show (s.tracker.handTo m sender b).rank + (s.turn 0 []).pending < s.tracker.rank + s.pending
    omega
  | replace | untrack => exact absurd hrouted Bool.false_ne_true

/-- So does the one that has the lock. -/
theorem rank_hold_lt (hs : s.Sole) (hh : s.holder = some h) : (s.step .hold).rank < s.rank := by
  have hstep : s.step .hold = s.resumeHolder h := by simp only [step, hh]
  have hrouted := hs.holder h hh
  have hbefore : s.rank = s.tracker.rank + ((s.calls.map Call.rank).sum + h.rank) := by
    rw [rank, pending, hh]
    rfl
  rw [hstep, hbefore]
  cases h with
  | recheck m sender =>
    simp only [resumeHolder]
    split
    · exact Nat.lt_succ_self _
    · rw [rank_answer]
      show s.tracker.rank + ((s.calls.map Call.rank).sum + 0) <
        s.tracker.rank + ((s.calls.map Call.rank).sum + 8)
      omega
  | register m sender => exact Nat.lt_succ_self _
  | spawn m sender b =>
    have hattached := rank_attach_le (t := s.tracker) (p := m.pair) b
    show (s.tracker.attach m.pair b).1.rank + (((s.calls ++ [Call.hand m sender _]).map
      Call.rank).sum + 0) < s.tracker.rank + ((s.calls.map Call.rank).sum + 6)
    rw [List.map_append, List.sum_append]
    show _ + (_ + (3 + 0) + 0) < _
    omega
  | abort | remove => exact absurd hrouted Bool.false_ne_true

end System

namespace Closing

variable {c : Closing}

/-- What is left to do, at most, until all is over. -/
def rank (c : Closing) : Nat := c.agenda.length + c.strays.length + c.system.rank

/-- Only the router has a call under way, and the tasks have been told to go or will be. -/
structure Going (c : Closing) : Prop where
  sole : c.system.Sole
  told : .dismiss ∉ c.agenda → c.dismissed = true

theorem Going.proceed (hc : c.Going) : c.proceed.Going := by
  unfold Closing.proceed
  split
  · exact hc
  · exact ⟨hc.sole, fun _ => rfl⟩
  · rename_i agenda ha
    refine ⟨⟨hc.sole.calls, hc.sole.holder⟩, fun h => hc.told ?_⟩
    simpa [ha] using h
  · rename_i agenda ha
    split
    · exact hc
    · refine ⟨⟨hc.sole.calls, hc.sole.holder⟩, fun h => hc.told ?_⟩
      simpa [ha] using h

/-- **Whatever happens keeps to this.** -/
theorem Going.step (hc : c.Going) (e : Event) : (c.step e).Going := by
  cases e with
  | own => exact hc.proceed
  | other e =>
    cases e with
    | save m => exact hc
    | go i => exact ⟨hc.sole.go i, hc.told⟩
    | hold => exact ⟨hc.sole.hold, hc.told⟩
    | other e => exact ⟨Audit.sole_step hc.sole (e := .other e) (by simp), hc.told⟩
    | takeTrades | readTrades | dropTrades =>
      exact ⟨⟨hc.sole.calls, hc.sole.holder⟩, hc.told⟩
  | leaveListener =>
    simp only [Closing.step]
    split
    · exact ⟨⟨hc.sole.calls, hc.sole.holder⟩, hc.told⟩
    · exact hc
  | leaveRouter =>
    simp only [Closing.step]
    split
    · refine ⟨⟨fun c hc => absurd hc List.not_mem_nil, fun h hh => ?_⟩, hc.told⟩
      exact absurd (show none = some h from hh) (by simp)
    · exact hc
  | leaveStray i => exact ⟨hc.sole, hc.told⟩
  | stray i =>
    simp only [Closing.step]
    split
    · exact hc
    · unfold wander
      split
      · exact hc
      · exact ⟨⟨hc.sole.calls, hc.sole.holder⟩, hc.told⟩

theorem Going.run (hc : c.Going) (es : List Event) : (c.run es).Going := by
  induction es generalizing c with
  | nil => exact hc
  | cons e es ih => exact ih (hc.step e)

theorem rank_eq : c.rank =
    c.agenda.length + c.strays.length + (c.tracker.rank + c.system.pending) := rfl

theorem rank_proceed_lt (hfree : c.system.holder = none) (ha : c.agenda ≠ []) :
    c.proceed.rank < c.rank := by
  obtain ⟨s, agenda, ha⟩ := List.exists_cons_of_ne_nil ha
  rw [rank_eq (c := c), ha, List.length_cons]
  unfold proceed
  cases s with
  | dismiss =>
    simp only [ha]
    show agenda.length + c.strays.length + (c.tracker.rank + c.system.pending) < _
    omega
  | drain =>
    have hdrained := rank_drain (t := c.tracker)
    simp only [ha]
    show agenda.length + (c.strays ++ c.tracker.pairs).length +
      (c.tracker.drain.rank + c.system.pending) < _
    rw [List.length_append]
    omega
  | clear =>
    simp only [ha, hfree]
    show agenda.length + c.strays.length + (c.tracker.rank + c.system.pending) < _
    omega

/-- When there is nothing left to be done, and no call goes on, the tasks go. -/
theorem exists_leave (hd : c.dismissed = true) (ha : c.agenda = []) (hcalls : c.system.calls = [])
    (hfree : c.system.holder = none) (hover : ¬ c.Over) :
    ∃ e : Event, e.isDue = true ∧ (c.step e).rank < c.rank := by
  cases hl : c.tracker.listening with
  | true =>
    refine ⟨.leaveListener, rfl, ?_⟩
    simp only [step, hd, if_true]
    rw [rank_eq, rank_eq, Tracker.rank, Tracker.rank, hl]
    show _ + _ + (2 * c.tracker.pairs.length + 0 + c.tracker.router.isSome.toNat +
      c.system.pending) < c.agenda.length + c.strays.length +
        (2 * c.tracker.pairs.length + 1 + c.tracker.router.isSome.toNat + c.system.pending)
    show c.agenda.length + c.strays.length + _ < _
    omega
  | false =>
    cases hr : c.tracker.router with
    | some r =>
      refine ⟨.leaveRouter, rfl, ?_⟩
      have hwait : c.system.mayWait = true := by rw [System.mayWait, hcalls, hfree]; rfl
      simp only [step, hd, hwait, and_self, if_true]
      rw [rank_eq (c := c), Tracker.rank, hr]
      show c.agenda.length + c.strays.length +
        (2 * c.tracker.pairs.length + c.tracker.listening.toNat + 0 + 0) <
        _ + _ + (_ + _ + 1 + c.system.pending)
      omega
    | none =>
      cases hs : c.strays with
      | cons s strays =>
        refine ⟨.leaveStray 0, rfl, ?_⟩
        show c.agenda.length + (c.strays.eraseIdx 0).length + c.system.rank < _
        rw [rank, hs, List.eraseIdx_cons_zero, List.length_cons]
        omega
      | nil => exact absurd ⟨ha, hl, hr, hcalls, hfree, hs⟩ hover

/-- As long as it is not over, somebody gets on. -/
theorem Going.exists_rank_lt (hc : c.Going) (hover : ¬ c.Over) :
    ∃ e : Event, e.isDue = true ∧ (c.step e).rank < c.rank := by
  cases hh : c.system.holder with
  | some h =>
    refine ⟨.other .hold, rfl, ?_⟩
    have hlt := System.rank_hold_lt hc.sole hh
    show c.agenda.length + c.strays.length + (c.system.step .hold).rank < _
    rw [rank]
    omega
  | none =>
    cases hcalls : c.system.calls with
    | cons call rest =>
      refine ⟨.other (.go 0), rfl, ?_⟩
      have hlt := System.rank_go_lt hc.sole hh hcalls
      have hstrays : (c.resume 0).strays.length = c.strays.length := by
        simp only [resume]
        split
        · split
          · rfl
          · exact List.length_map _
        · rfl
      show c.agenda.length + (c.resume 0).strays.length + (c.system.step (.go 0)).rank < _
      rw [rank, hstrays]
      omega
    | nil =>
      by_cases ha : c.agenda = []
      · exact exists_leave (hc.told (ha ▸ List.not_mem_nil)) ha hcalls hh hover
      · exact ⟨.own, rfl, rank_proceed_lt hh ha⟩

/-- **The stop comes to its end and the tasks go**, whatever they have under way. -/
theorem Going.exists_over (hc : c.Going) :
    ∃ due : List Event, (∀ e ∈ due, e.isDue = true) ∧ (c.run due).Over := by
  induction hn : c.rank using Nat.strongRecOn generalizing c with
  | ind n ih =>
    by_cases hover : c.Over
    · exact ⟨[], fun e he => absurd he List.not_mem_nil, hover⟩
    · obtain ⟨e, he, hlt⟩ := hc.exists_rank_lt hover
      obtain ⟨due, hdue, hover⟩ := ih _ (hn ▸ hlt) (hc.step e) rfl
      exact ⟨e :: due, List.forall_mem_cons.mpr ⟨he, hdue⟩, hover⟩

/-! ## A stop that nothing delays -/

theorem run_append (c : Closing) (es es' : List Event) : c.run (es ++ es') = (c.run es).run es' :=
  List.foldl_append ..

theorem run_leaveStray (audit : Audit) (agenda : List Statement) (dismissed : Bool)
    (strays : List (String × PairTask)) :
    (⟨audit, agenda, dismissed, strays⟩ : Closing).run
      (List.replicate strays.length (.leaveStray 0)) = ⟨audit, agenda, dismissed, []⟩ := by
  induction strays with
  | nil => rfl
  | cons s strays ih => exact ih

end Closing

theorem cancel_listener_router (s : Schedule TaskName) :
    (s.cancel .listener).cancel .router = s.cancelAll (!·.isPair) := by
  have hgone : ∀ name : TaskName,
      (decide (name ≠ .router) && decide (name ≠ .listener)) = !(!name.isPair) := by
    intro name
    cases name <;> rfl
  simp only [Schedule.cancel, Schedule.cancelAll, List.filter_filter, hgone]

namespace Closing

/-- **`Tracker.stop` is a stop during which every task goes at once.** The router can do so wherever
it may have to wait for others. With the last statement of such a stop all is over. -/
theorem stop_alone {x : Audit} (hwait : x.system.mayWait = true) :
    ({ audit := x } : Closing).run ([.own, .leaveListener, .leaveRouter, .own] ++
        List.replicate x.tracker.pairs.length (.leaveStray 0) ++ [.own]) =
      { audit := { x with system := { x.system.release with tracker := x.tracker.stop } }
        agenda := []
        dismissed := true } := by
  obtain ⟨⟨t, calls, holder, answers⟩, sent, dropped, processed, read⟩ := x
  let audit (s : System) : Audit := ⟨s, sent, dropped, processed, read⟩
  let left : Tracker :=
    { t with
      listening := false
      router := none
      schedule := (t.schedule.cancel .listener).cancel .router }
  have hleft : left = t.dismiss := by rw [dismiss, ← cancel_listener_router]
  let alone : Closing :=
    ⟨audit ⟨{ t with listening := false, schedule := t.schedule.cancel .listener }, calls, holder,
      answers⟩, [.drain, .clear], true, []⟩
  have hgone : alone.step .leaveRouter =
      ⟨audit ⟨left, [], none, answers⟩, [.drain, .clear], true, []⟩ :=
    if_pos ⟨rfl, hwait⟩
  have hdrained : ({ audit := audit ⟨t, calls, holder, answers⟩ } : Closing).run
      [.own, .leaveListener, .leaveRouter, .own] =
        ⟨audit ⟨left.drain, [], none, answers⟩, [.clear], true, t.pairs⟩ := by
    show (alone.step .leaveRouter).step .own = _
    rw [hgone]
    rfl
  rw [run_append, run_append, hdrained]
  show ((⟨audit ⟨left.drain, [], none, answers⟩, [.clear], true, t.pairs⟩ : Closing).run
    (List.replicate t.pairs.length (.leaveStray 0))).run [.own] = _
  rw [run_leaveStray]
  show (⟨audit ⟨left.drain.clearBooks, [], none, answers⟩, [], true, []⟩ : Closing) = _
  rw [hleft]
  rfl

end Closing

end Tracker

end BookFeed
