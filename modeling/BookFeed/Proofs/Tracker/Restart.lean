import BookFeed.Proofs.Tracker.Behind
import BookFeed.Proofs.Tracker.Closed
import BookFeed.Proofs.Tracker.Emission
import Mathlib.Data.List.InsertIdx

/-!
# Trackers that are started again

What is in queues, inboxes and windows is gone with the tasks that had it. So a tracker that is
launched when all its tasks have gone is a new one with a past (`Tracker.behind`): it goes on as the
new one does, and what it has beyond its past is what the new one has. It is launched after a stop
of its own, since the first one may have left a task behind (`Tracker.Closing`).

A history is a list of actions, in which tasks take turns, calls go from lock to lock, pairs are
replaced, and the tracker may be stopped and started. As long as the history is the same, so is what
becomes of it with a past, action by action.

* `start_eq_behind`: a tracker that is started is a new one with a past;
* `System.step_behind`, `System.takeUp_behind`: calls do not notice the past;
* `Audit.act_behind`, `Audit.perform_behind`: nor does any history;
* **`Audit.restarted_as_new`**: after a restart a tracker does what a new one does.

Out of scope in a history: a stop or a start while a call is under way, and one that tasks outlive.
What comes before the restart is any state of a tracker, so no history is left out there.
-/

namespace BookFeed

namespace Tracker

/-- Nothing waits in the feed. -/
def isFeedEmpty (t : Tracker) : Bool :=
  match t.source with
  | .feed f => f.queue.isEmpty
  | .polled _ _ => true

/-- A new tracker of the same pairs, with the same settings, source and clock. Nothing waits in its
feed. -/
def renewed (t : Tracker) : Tracker where
  exchange := t.exchange
  settings := t.settings
  source := match t.source with
    | .feed f => .feed { closed := f.closed }
    | .polled s _ => .polled s none
  tracked := t.tracked
  epoch := t.epoch
  schedule := { now := t.now }

section

variable {t : Tracker}

theorem source_start_renewed (hempty : t.isFeedEmpty = true) :
    t.renewed.start.source = t.start.source := by
  have hstopped : t.stop.source = t.source := rfl
  unfold isFeedEmpty at hempty
  unfold start launch
  rw [hstopped]
  show (match t.renewed.source with
    | .feed f => Source.feed f
    | .polled s _ => .polled s none) = _
  unfold renewed
  cases hs : t.source with
  | feed f =>
    rw [hs] at hempty
    obtain ⟨queue, closed⟩ := f
    obtain rfl : queue = [] := List.isEmpty_iff.mp hempty
    rfl
  | polled s polling => rfl

/-- **A tracker that is started is a new one with a past.** -/
theorem start_eq_behind (hempty : t.isFeedEmpty = true) :
    t.start = t.renewed.start.behind t := by
  have hbooks : Registry.empty.behind t.registry.books = t.registry.clear := by
    rw [Registry.behind, Registry.empty, List.append_nil]
    rfl
  have hpast : t.renewed.start.behind t =
      { t.start with source := t.renewed.start.source } := by
    show { t.renewed.start with
      registry := Registry.empty.behind t.registry.books
      trades := t.trades
      advisories := { t.advisories with sent := t.advisories.sent ++ [] }
      counters := t.counters
      reports := t.reports ++ [] } = _
    rw [hbooks, List.append_nil, List.append_nil]
    rfl
  rw [hpast, source_start_renewed hempty]

end

/-! ## Calls -/

/-- The call that goes on in the same way when `n` books stand before all others. -/
def Call.shift (n : Nat) : Call → Call
  | hand m sender h => hand m sender (h.shift n)
  | check m => check m
  | find m sender => find m sender
  | enter m sender => enter m sender
  | replace pairs => replace pairs
  | untrack pairs => untrack pairs

@[inherit_doc Call.shift]
def Holder.shift (n : Nat) : Holder → Holder
  | spawn m sender h => spawn m sender (h.shift n)
  | recheck m sender => recheck m sender
  | register m sender => register m sender
  | abort pair others => abort pair others
  | remove pair others => remove pair others

theorem Call.isRouted_shift (n : Nat) (c : Call) : (c.shift n).isRouted = c.isRouted := by
  cases c <;> rfl

theorem Holder.isRouted_shift (n : Nat) (h : Holder) : (h.shift n).isRouted = h.isRouted := by
  cases h <;> rfl

namespace System

/-- Nobody has a call under way. -/
def isQuiet (s : System) : Bool := s.calls.isEmpty && s.holder.isNone

/-- The owner stops the tracker, and every task goes at once. -/
def stop (s : System) : System := if s.isQuiet then { s with tracker := s.tracker.stop } else s

/-- The owner starts the tracker, and every task that there was goes at once. -/
def start (s : System) : System := if s.isQuiet then { s with tracker := s.tracker.start } else s

/-- The calls of a tracker that has what another has left behind. -/
def behind (s past : System) : System where
  tracker := s.tracker.behind past.tracker
  calls := s.calls.map (Call.shift past.tracker.made)
  holder := s.holder.map (Holder.shift past.tracker.made)
  answers := past.answers ++ s.answers

variable (s past : System) (i : Nat)

theorem isQuiet_behind : (s.behind past).isQuiet = s.isQuiet := by
  have hcalls : (s.behind past).calls.isEmpty = s.calls.isEmpty := List.isEmpty_map
  have hholder : (s.behind past).holder.isNone = s.holder.isNone := Option.isNone_map
  rw [isQuiet, isQuiet, hcalls, hholder]

theorem answer_behind (m : Message) (sender : Sender) (accepted : Bool) :
    (s.behind past).answer m sender accepted = (s.answer m sender accepted).behind past := by
  cases sender with
  | router =>
    cases accepted with
    | true =>
      have htally := tally_behind s.tracker past.tracker true
      simp only [answer, behind, htally]
    | false =>
      let c : Counter := .rejected s.tracker.exchange .untracked
      have hcount := count_behind s.tracker past.tracker c
      have htally := tally_behind (s.tracker.count c) past.tracker false
      have hboth := (congrArg (tally · false) hcount).trans htally
      exact congrArg (fun t => { s.behind past with tracker := t }) hboth
  | saver =>
    cases accepted with
    | true => simp only [answer, behind, List.append_assoc]
    | false => simp only [answer, behind, List.append_assoc]

theorem turn_behind (next : List Call) :
    (s.behind past).turn i (next.map (Call.shift past.tracker.made)) =
      (s.turn i next).behind past := by
  simp only [turn, behind, List.eraseIdx_map, List.map_append]

theorem lock_behind (h : Holder) :
    (s.behind past).lock i (h.shift past.tracker.made) = (s.lock i h).behind past := by
  have hholder : (s.behind past).holder = s.holder.map (Holder.shift past.tracker.made) := rfl
  have hturn : (s.behind past).turn i [] = (s.turn i []).behind past := turn_behind s past i []
  unfold lock
  rw [hholder]
  cases s.holder with
  | some h' => rfl
  | none =>
    simp only [Option.map_none, hturn]
    rfl

/-- **A call goes on in the same way with a past.** -/
theorem resume_behind (c : Call) :
    (s.behind past).resume i (c.shift past.tracker.made) = (s.resume i c).behind past := by
  have hturn := turn_behind s past i
  cases c with
  | check m =>
    have htracked : (s.behind past).tracker.tracked = s.tracker.tracked := rfl
    simp only [Call.shift, resume, htracked]
    split
    · exact hturn [.find m .router]
    · rw [← answer_behind, ← hturn]
      rfl
  | find m sender =>
    have hpair : (s.behind past).tracker.pair? m.pair =
        (s.tracker.pair? m.pair).map (·.shift past.tracker.made) := pair?_behind _ _ _
    simp only [Call.shift, resume, hpair]
    cases s.tracker.pair? m.pair with
    | some task => exact hturn [.hand m sender task.handle]
    | none => exact hturn [.enter m sender]
  | enter m sender => exact lock_behind s past i (.recheck m sender)
  | hand m sender h =>
    have hhanded : (s.behind past).tracker.handTo m sender (h.shift past.tracker.made) =
        (s.tracker.handTo m sender h).behind past.tracker := handTo_behind _ _ m h sender
    have hdone : ({ (s.behind past).turn i [] with
        tracker := (s.tracker.handTo m sender h).behind past.tracker } : System) =
        ({ s.turn i [] with tracker := s.tracker.handTo m sender h } : System).behind past :=
      congrArg (fun s' : System => { s' with
        tracker := (s.tracker.handTo m sender h).behind past.tracker }) (hturn [])
    simp only [Call.shift, resume]
    rw [← answer_behind, ← hdone, hhanded]
  | replace pairs =>
    have htracked : (s.behind past).tracker.tracked = s.tracker.tracked := rfl
    simp only [Call.shift, resume, htracked]
    obtain ⟨tracked, change⟩ := s.tracker.tracked.replace pairs
    exact congrArg (fun s' : System => { s' with
      tracker := { s.tracker.behind past.tracker with tracked } }) (hturn [.untrack change.removed])
  | untrack pairs =>
    cases pairs with
    | nil => exact hturn []
    | cons p others => exact lock_behind s past i (.abort p others)

/-- **So does the call that has the lock.** -/
theorem resumeHolder_behind (h : Holder) :
    (s.behind past).resumeHolder (h.shift past.tracker.made) = (s.resumeHolder h).behind past := by
  cases h with
  | recheck m sender =>
    have htracked : (s.behind past).tracker.tracked = s.tracker.tracked := rfl
    simp only [Holder.shift, resumeHolder, htracked]
    split
    · rfl
    · rw [← answer_behind]
      rfl
  | register m sender =>
    have hregistered : (s.behind past).tracker.registry.register m.pair =
        ((s.tracker.registry.register m.pair).1.behind past.tracker.registry.books,
          (s.tracker.registry.register m.pair).2.shift past.tracker.made) :=
      Registry.register_behind _ _ _
    simp only [Holder.shift, resumeHolder, hregistered]
    rfl
  | spawn m sender h =>
    have hattached : (s.behind past).tracker.attach m.pair (h.shift past.tracker.made) =
        ((s.tracker.attach m.pair h).1.behind past.tracker,
          (s.tracker.attach m.pair h).2.shift past.tracker.made) := attach_behind _ _ _ h
    simp only [Holder.shift, resumeHolder, hattached]
    simp only [behind, List.map_append]
    rfl
  | abort p others =>
    have haborted : (s.behind past).tracker.abort p = (s.tracker.abort p).behind past.tracker :=
      abort_behind _ _ p
    simp only [Holder.shift, resumeHolder, haborted]
    rfl
  | remove p others =>
    have hremoved : (s.behind past).tracker.removeBook p =
        (s.tracker.removeBook p).behind past.tracker := removeBook_behind _ _ p
    simp only [Holder.shift, resumeHolder, hremoved]
    simp only [behind, List.map_append]
    rfl

/-- Calls do not notice the past, and neither does what happens without them. -/
theorem step_behind (e : Event) : (s.behind past).step e = (s.step e).behind past := by
  cases e with
  | lookup | save | update =>
    simp only [step, behind, List.map_append]
    rfl
  | go i =>
    have hcall : (s.behind past).calls[i]? = s.calls[i]?.map (Call.shift past.tracker.made) :=
      List.getElem?_map
    simp only [step, hcall]
    cases s.calls[i]? with
    | none => rfl
    | some c => exact resume_behind s past i c
  | hold =>
    have hholder : (s.behind past).holder = s.holder.map (Holder.shift past.tracker.made) := rfl
    simp only [step, hholder]
    cases s.holder with
    | none => rfl
    | some h => exact resumeHolder_behind s past h
  | other e =>
    simp only [step]
    split
    · rfl
    · rename_i he
      rw [Bool.not_eq_true] at he
      have hhappened : (s.behind past).tracker.happen? e =
          (s.tracker.happen? e).map (·.behind past.tracker) := happen?_behind _ _ he
      rw [hhappened]
      cases s.tracker.happen? e with
      | none => rfl
      | some t => rfl

theorem underWay_behind : (s.behind past).underWay = s.underWay := by
  have hcalls : (s.behind past).calls.countP (·.isRouted) = s.calls.countP (·.isRouted) := by
    show (s.calls.map _).countP _ = _
    rw [List.countP_map]
    exact List.countP_congr fun c _ => by rw [Function.comp_apply, Call.isRouted_shift]
  have hholder : (s.behind past).holder.any (·.isRouted) = s.holder.any (·.isRouted) := by
    show (s.holder.map _).any _ = _
    cases s.holder with
    | none => rfl
    | some h => exact Holder.isRouted_shift _ h
  rw [underWay, underWay, hcalls, hholder]

theorem takeUp_behind : (s.behind past).takeUp = s.takeUp.behind past := by
  have hasleep : (s.behind past).tracker.schedule.isAsleep .router =
      s.tracker.schedule.isAsleep .router := rfl
  have hrouter : (s.behind past).tracker.router = s.tracker.router := rfl
  have hlistening : (s.behind past).tracker.listening = s.tracker.listening := rfl
  unfold takeUp
  rw [hasleep, underWay_behind, hrouter]
  split
  · rfl
  · cases hr : s.tracker.router with
    | none => rfl
    | some r =>
      cases hq : r.queue with
      | cons m queue =>
        simp only [hq]
        let taken : System :=
          { s with tracker := { s.tracker with router := some { r with queue } } }
        exact step_behind taken past (.lookup m)
      | nil =>
        simp only [hq, route?, hrouter, hr, hlistening]
        split
        · rfl
        · rfl

theorem drops_behind : (s.behind past).drops i = s.drops i := by
  have hcall : (s.behind past).calls[i]? = s.calls[i]?.map (Call.shift past.tracker.made) :=
    List.getElem?_map
  unfold drops
  rw [hcall]
  cases s.calls[i]? with
  | none => rfl
  | some c =>
    cases c with
    | hand m sender h =>
      have hpair : (s.behind past).tracker.pair? m.pair =
          (s.tracker.pair? m.pair).map (·.shift past.tracker.made) := pair?_behind _ _ _
      simp only [Option.map_some, Call.shift, hpair]
      cases s.tracker.pair? m.pair with
      | none => rfl
      | some task =>
        have hsame : (task.shift past.tracker.made).handle =
            h.shift past.tracker.made ↔ task.handle = h := Handle.shift_inj
        simp only [Option.map_some, hsame]
        rfl
    | check | find | enter | replace | untrack => rfl

end System

/-! ## Histories -/

/-- What can happen to a tracker in the course of time. -/
inductive Audit.Action where
  /-- what happens in a tracker; the router's turns are cut up into calls -/
  | other (e : Tracker.Event)
  | save (m : Message)
  | update (pairs : List String)
  /-- a call goes on, or waits on for the lock; calls are named by their place -/
  | go (i : Nat)
  /-- the call that has the lock goes on -/
  | hold
  | stop
  | start

namespace Audit

/-- What cannot happen changes nothing. -/
def act (x : Audit) : Action → Audit
  | .other e => x.step (.other e)
  | .save m => x.step (.save m)
  | .update pairs => { x with system := x.system.step (.update pairs) }
  | .go i => x.step (.go i)
  | .hold => x.step .hold
  | .stop => { x with system := x.system.stop }
  | .start => { x with system := x.system.start }

def perform (x : Audit) (history : List Action) : Audit := history.foldl act x

/-- A tracker that has what another has left behind, and the records of both. -/
def behind (x past : Audit) : Audit where
  system := x.system.behind past.system
  sent := past.sent ++ x.sent
  dropped := past.dropped ++ x.dropped
  processed := past.processed ++ x.processed
  read := past.read ++ x.read

variable {x past : Audit}

/-- **What happens next does not depend on the past.** -/
theorem act_behind (a : Action) : (x.behind past).act a = (x.act a).behind past := by
  have hstep := System.step_behind x.system past.system
  cases a with
  | other e =>
    simp only [act, step]
    split
    · exact congrArg (fun system => { x.behind past with system })
        (System.takeUp_behind x.system past.system)
    · rename_i he
      rw [Bool.not_eq_true] at he
      have hhappened : (x.behind past).tracker.happen? e =
          (x.tracker.happen? e).map (·.behind past.tracker) := happen?_behind _ _ he
      have hprocessed : e.processing? (x.behind past).tracker = e.processing? x.tracker :=
        processing?_behind _ _ e
      rw [hhappened]
      cases x.tracker.happen? e with
      | none => rfl
      | some t =>
        simp only [Option.map_some, hprocessed]
        simp only [behind, hstep, List.append_assoc]
  | save m => exact congrArg (fun system => { x.behind past with system }) (hstep (.save m))
  | update pairs =>
    exact congrArg (fun system => { x.behind past with system }) (hstep (.update pairs))
  | go i =>
    have hdrops := System.drops_behind x.system past.system i
    simp only [act, step, behind, hstep, hdrops, List.append_assoc]
  | hold => exact congrArg (fun system => { x.behind past with system }) (hstep .hold)
  | stop =>
    simp only [act, System.stop, behind, System.isQuiet_behind]
    split
    · rfl
    · rfl
  | start =>
    simp only [act, System.start, behind, System.isQuiet_behind]
    split
    · rfl
    · rfl

/-- **A history takes the same course with any past.** -/
theorem perform_behind (history : List Action) :
    (x.behind past).perform history = (x.perform history).behind past := by
  induction history generalizing x with
  | nil => rfl
  | cons a history ih =>
    have htail := ih (x := x.act a)
    rw [← act_behind] at htail
    exact htail

/-! ## The stream of trades in a history -/

theorem trades_act (a : Action) : ∃ new : List Processing,
    (x.act a).processed = x.processed ++ new ∧ (x.act a).tracker.trades =
      (Processing.forwarded new).foldl TradeStream.send x.tracker.trades := by
  have hnone : ∀ y : Audit, y.processed = x.processed → y.tracker.trades = x.tracker.trades →
      ∃ new : List Processing, y.processed = x.processed ++ new ∧ y.tracker.trades =
        (Processing.forwarded new).foldl TradeStream.send x.tracker.trades :=
    fun y hp ht => ⟨[], hp.trans (List.append_nil _).symm, ht⟩
  cases a with
  | other e =>
    simp only [act, step]
    split
    · exact hnone _ rfl (System.trades_takeUp x.system)
    · rename_i he
      rw [Bool.not_eq_true] at he
      cases hs : x.tracker.happen? e with
      | none => exact hnone _ rfl rfl
      | some t =>
        have hstep : x.system.step (.other e) = { x.system with tracker := t } :=
          System.step_other he hs
        refine ⟨(e.processing? x.tracker).toList, rfl, ?_⟩
        simp only [tracker, hstep]
        exact trades_happen? he hs
  | save m | update pairs | go i | hold =>
    exact hnone _ rfl (System.trades_step fun e' he => by cases he)
  | stop =>
    simp only [act, System.stop]
    split
    · exact hnone _ rfl rfl
    · exact hnone _ rfl rfl
  | start =>
    simp only [act, System.start]
    split
    · exact hnone _ rfl rfl
    · exact hnone _ rfl rfl

theorem trades_perform (history : List Action) : ∃ new : List Processing,
    (x.perform history).processed = x.processed ++ new ∧ (x.perform history).tracker.trades =
      (Processing.forwarded new).foldl TradeStream.send x.tracker.trades := by
  induction history generalizing x with
  | nil => exact ⟨[], (List.append_nil _).symm, rfl⟩
  | cons a history ih =>
    obtain ⟨new, hprocessed, htrades⟩ := trades_act (x := x) a
    obtain ⟨newer, hprocessed', htrades'⟩ := ih (x := x.act a)
    refine ⟨new ++ newer, ?_, ?_⟩
    · rw [← List.append_assoc, ← hprocessed]
      exact hprocessed'
    · rw [Processing.forwarded_append, List.foldl_append, ← htrades]
      exact htrades'

/-! ## Restarts -/

/-- What `a` has beyond its past `x` is what `b` has. -/
structure GoneOn (x b a : Audit) : Prop where
  /-- the pairs that have books -/
  pairs : a.tracker.registry.pairs = b.tracker.registry.pairs
  book : ∀ p, a.tracker.registry.book? p = b.tracker.registry.book? p
  /-- the books that only old views point to are as they were -/
  books : a.tracker.registry.books = x.tracker.registry.books ++ b.tracker.registry.books
  /-- what has become of each message that was processed -/
  processed : a.processed = x.processed ++ b.processed
  /-- the trades go to the stream, as long as somebody may read it -/
  trades : a.tracker.trades = b.forwarded.foldl TradeStream.send x.tracker.trades
  /-- what those who saved a message were told -/
  answers : a.system.answers = x.system.answers ++ b.system.answers
  advisories : a.tracker.advisories.sent =
    x.tracker.advisories.sent ++ b.tracker.advisories.sent

/-- A new tracker whose history this is has sent its trades to a new stream. -/
theorem trades_of_new {t : Tracker} (ht : t.trades = {}) (history : List Action) :
    ((start t).perform history).tracker.trades =
      ((start t).perform history).forwarded.foldl TradeStream.send {} := by
  obtain ⟨new, hprocessed, htrades⟩ := trades_perform (x := start t) history
  have hstart : (start t).tracker.trades = {} := ht
  have hnew : ((start t).perform history).processed = new := hprocessed
  rw [htrades, hstart, ← hnew]
  rfl

theorem goneOn_behind {b : Audit}
    (hb : b.tracker.trades = b.forwarded.foldl TradeStream.send {}) :
    GoneOn x b (b.behind x) where
  pairs := List.map_map ..
  book p := Registry.book?_behind _ _ p
  books := rfl
  processed := rfl
  trades := by
    -- nobody takes a stream in a history, so nobody drops a new one
    have hopen : b.tracker.trades.dropped = false := by
      rw [hb]
      exact TradeStream.dropped_foldl_send _ _
    have hqueue : b.tracker.trades.queue = b.forwarded := by
      rw [hb, TradeStream.queue_foldl_send _ rfl]
      rfl
    show b.tracker.trades.behind x.tracker.trades = _
    rw [TradeStream.behind, hopen, if_neg Bool.false_ne_true, hqueue]
  answers := rfl
  advisories := rfl

/-- **Once nothing of a tracker is left, it is launched as a new one with a past.** -/
theorem launch_eq_behind {c : Closing} (hshut : c.Shut) (hdone : c.agenda = [])
    (hempty : c.tracker.isFeedEmpty = true) :
    c.launch = (start c.tracker.renewed).behind c.audit := by
  have hsent : (start c.tracker.renewed).sent = [] := by
    simp only [start, renewed]
    cases c.tracker.source with
    | feed f => rfl
    | polled s polling => rfl
  have htracker : c.tracker.launch = c.tracker.renewed.start.behind c.tracker :=
    (hshut.launch_eq_start hdone).trans (start_eq_behind hempty)
  show ({
    system := ⟨c.tracker.launch, c.system.calls, c.system.holder, c.system.answers⟩
    sent := c.audit.sent
    dropped := c.audit.dropped
    processed := c.audit.processed
    read := c.audit.read } : Audit) = {
      system := ⟨c.tracker.renewed.start.behind c.tracker, [], none, c.system.answers ++ []⟩
      sent := c.audit.sent ++ (start c.tracker.renewed).sent
      dropped := c.audit.dropped ++ []
      processed := c.audit.processed ++ []
      read := c.audit.read ++ [] }
  rw [htracker, hshut.calls, hshut.free, hsent]
  simp only [List.append_nil]

end Audit

end Tracker

end BookFeed
