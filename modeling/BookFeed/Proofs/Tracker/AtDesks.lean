import BookFeed.Proofs.Tracker.Backlog
import BookFeed.Proofs.Tracker.Balance

/-!
# The tasks of a tracker at their desks

A task of a tracker takes a message and processes it in one turn, and a message is saved where it is
handed over. `Station` is what an audit knows of one pair, and `Station.Moved` lists all that can
happen to it. Each of these is something that happens at a desk, so what holds at every desk holds
for the tasks of a tracker.

* `step_moved`: an event of an audit moves each station in one of the ways listed, or not at all;
* **`run_atDesk`**: in every run, the task of each pair sits at a desk, and what has been processed
  and dropped for its pair is what the journal of this desk says;
* `length_saved_run`: so no backlog of a tracker exceeds what its settings allow;
* `processed_run`: and what is processed for a pair are the calls of one synchronizer.
-/

namespace BookFeed

/-- The message that was dropped, if that is how it has left. -/
def Departure.dropped? : Departure → Option Message
  | taken _ => none
  | dropped m _ => some m

/-- What is known of one pair. -/
structure Station where
  serving : Option Serving
  processed : List Delivery
  /-- the saved messages that were dropped for others -/
  dropped : List Message

namespace Station

open Tracker (Sender)

/-- What can happen to a pair. -/
inductive Moved (p : String) (settings : Tracker.Settings) (v : Station) : Station → Prop where
  | stayed : Moved p settings v v
  | spawned {handle : Handle} {book : Book} (hk : v.serving = none) :
      Moved p settings v
        { v with serving := some { handle, synchronizer := .new p settings.window book } }
  | put {k : Serving} {m : Message} (sender : Sender) (hk : v.serving = some k)
      (hm : m.pair = p) :
      Moved p settings v
        { v with
          serving := some { k with inbox := sender.put settings.backlog k.inbox m }
          dropped := v.dropped ++ sender.drops settings.backlog k.inbox }
  /-- the pause after a fault is over -/
  | recovered {k : Serving} (hk : v.serving = some k) (hr : k.recovering = true) :
      Moved p settings v { v with serving := some { k with recovering := false } }
  | processed {k : Serving} {m : Message} {inbox : Inbox} {s : Synchronizer}
      {outcome : Except Error Applied} (hk : v.serving = some k) (hr : k.recovering = false)
      (hm : k.inbox.take? = some (m, inbox)) (hp : k.synchronizer.process m = (s, outcome)) :
      Moved p settings v
        { v with
          serving := some { k with synchronizer := s, inbox, recovering := !outcome.isOk }
          processed := v.processed ++ [⟨m, outcome⟩] }

end Station

/-- Between two turns of the task of a pair, which stands as `k` does, the desk `d` agrees with it
and with what is known of the pair. -/
structure Desk.StandsFor (d : Desk) (v : Station) (k : Serving) : Prop where
  synchronizer : d.synchronizer = k.synchronizer
  inbox : d.inbox = k.inbox
  stance : d.stance = if k.recovering then .pausing else .looking
  whole : d.halfway = []
  processed : d.journal.processed = v.processed
  dropped : d.journal.departed.filterMap (·.dropped?) = v.dropped

/-- Who puts a message into an inbox does one of the things that happen at a desk. -/
def Tracker.Sender.event (m : Message) : Tracker.Sender → Desk.Event
  | router => .deliver m
  | saver => .save m

namespace Desk

open Tracker (Sender)

variable {d : Desk} {v : Station} {k : Serving} {m : Message}

theorem standsFor_new {handle : Handle} {s : Synchronizer} (hp : v.processed = [])
    (hd : v.dropped = []) : (new s).StandsFor v { handle, synchronizer := s } :=
  ⟨rfl, rfl, rfl, rfl, hp.symm, hd.symm⟩

/-- Between two turns no task waits, for it has not begun to choose. -/
theorem StandsFor.ne_waiting (h : d.StandsFor v k) (called : Bool) :
    d.stance ≠ .waiting called := by
  rw [h.stance]
  split <;> simp

theorem StandsFor.deliver (h : d.StandsFor v k) (m : Message) :
    (d.deliver m).StandsFor v { k with inbox := k.inbox.deliver m } where
  synchronizer := h.synchronizer
  inbox := congrArg (Inbox.deliver · m) h.inbox
  stance := by
    refine Eq.trans ?_ h.stance
    show d.stance.call = d.stance
    cases hs : d.stance with
    | waiting called => exact absurd hs (h.ne_waiting called)
    | looking | turning | busy | pausing => rfl
  whole := h.whole
  processed := h.processed
  dropped := h.dropped

theorem StandsFor.save (h : d.StandsFor v k) (capacity : Nat) (m : Message) :
    (d.save capacity m).StandsFor
      { v with dropped := v.dropped ++ k.inbox.evicted capacity }
      { k with inbox := k.inbox.save capacity m } := by
  have hhalfway : (d.put capacity m).halfway = [d.journal.saved.length] := by
    simp only [Desk.put, h.whole, List.nil_append]
  have hsave : d.save capacity m =
      { d.put capacity m with halfway := [], permit := true } := by
    unfold Desk.save notify
    rw [hhalfway, if_pos (List.mem_singleton_self _), List.erase_cons_head]
    split
    · rename_i called hs
      exact absurd hs (h.ne_waiting called)
    · rfl
  have hdropped : ((d.inbox.evicted capacity).map (Departure.dropped · d.inbox.saved)).filterMap
      (·.dropped?) = d.inbox.evicted capacity := by
    rw [List.filterMap_map]
    exact List.filterMap_some
  rw [hsave]
  refine ⟨h.synchronizer, ?_, h.stance, rfl, h.processed, ?_⟩
  · exact congrArg (Inbox.save capacity · m) h.inbox
  · simp only [Desk.put, List.filterMap_append, hdropped]
    rw [h.dropped, h.inbox]

theorem StandsFor.put (h : d.StandsFor v k) (capacity : Nat) (sender : Sender) (m : Message) :
    (d.step capacity (sender.event m)).StandsFor
      { v with dropped := v.dropped ++ sender.drops capacity k.inbox }
      { k with inbox := sender.put capacity k.inbox m } := by
  cases sender with
  | router =>
    have hdelivered := h.deliver m
    exact { hdelivered with dropped := h.dropped.trans (List.append_nil _).symm }
  | saver => exact h.save capacity m

theorem StandsFor.resume (h : d.StandsFor v k) (capacity : Nat) (hr : k.recovering = true) :
    (d.step capacity .resume).StandsFor v { k with recovering := false } := by
  have hs : d.stance = .pausing := by rw [h.stance, hr]; rfl
  simp only [step, hs, if_true]
  exact { h with stance := rfl }

/-- A choice takes the message that comes next. -/
theorem choose_of_take? {inbox : Inbox} (h : d.inbox.take? = some (m, inbox)) :
    ∃ permit departed taken, d.choose = { d with
        inbox
        stance := .busy m
        permit
        journal := { d.journal with departed, taken } } ∧
      departed.filterMap (·.dropped?) = d.journal.departed.filterMap (·.dropped?) := by
  obtain ⟨synchronizer, ⟨saved, live⟩, stance, permit, halfway, journal⟩ := d
  cases saved with
  | cons m' rest =>
    obtain ⟨rfl, rfl⟩ : m' = m ∧ (⟨rest, live⟩ : Inbox) = inbox := by
      simpa [Inbox.take?] using h
    exact ⟨permit, _, _, rfl, by simp [Departure.dropped?]⟩
  | nil =>
    cases live with
    | nil => exact absurd h (by simp [Inbox.take?])
    | cons m' rest =>
      obtain ⟨rfl, rfl⟩ : m' = m ∧ (⟨[], rest⟩ : Inbox) = inbox := by
        simpa [Inbox.take?] using h
      exact ⟨false, _, _, rfl, rfl⟩

/-- **A turn of a task is a choice and what follows from it.** -/
theorem StandsFor.process {inbox : Inbox} {s : Synchronizer} {outcome : Except Error Applied}
    (h : d.StandsFor v k) (capacity : Nat) (hr : k.recovering = false)
    (hm : k.inbox.take? = some (m, inbox)) (hp : k.synchronizer.process m = (s, outcome)) :
    (d.run capacity [.choose, .finish]).StandsFor
      { v with processed := v.processed ++ [⟨m, outcome⟩] }
      { k with synchronizer := s, inbox, recovering := !outcome.isOk } := by
  have hs : d.stance = .looking := by rw [h.stance, hr]; rfl
  obtain ⟨permit, departed, taken, hchoose, hdropped⟩ := choose_of_take? (h.inbox ▸ hm)
  have hchosen : d.step capacity .choose = d.choose := if_pos hs
  show ((d.step capacity .choose).step capacity .finish).StandsFor _ _
  rw [hchosen, hchoose]
  simp only [step, finish, h.synchronizer, hp]
  refine ⟨rfl, rfl, ?_, h.whole, ?_, hdropped.trans h.dropped⟩
  · cases outcome.isOk <;> rfl
  · exact congrArg (· ++ _) h.processed

end Desk

namespace Station

open Tracker (Sender)

/-- The task of the pair `p` sits at a desk, and the journal of the desk says what is known. -/
structure AtDesk (p : String) (settings : Tracker.Settings) (v : Station) : Prop where
  /-- only messages of the pair are saved for it -/
  own : ∀ k, v.serving = some k → ∀ m ∈ k.inbox.saved, m.pair = p
  /-- without a task nothing has happened -/
  absent : v.serving = none → v.processed = [] ∧ v.dropped = []
  desk : ∀ k, v.serving = some k → ∃ book es,
    ((Desk.new (.new p settings.window book)).run settings.backlog es).StandsFor v k

variable {p : String} {settings : Tracker.Settings} {v v' : Station} {k k' : Serving}

theorem mem_saved_put {m m' : Message} (sender : Sender) {capacity : Nat} {b : Inbox}
    (h : m' ∈ (sender.put capacity b m).saved) : m' ∈ b.saved ∨ m' = m := by
  cases sender with
  | router => exact .inl h
  | saver => exact Inbox.mem_saved_save h

/-- What stands for a desk after a few more events. -/
theorem AtDesk.of_run (h : v.AtDesk p settings) (es' : List Desk.Event) (hk : v.serving = some k)
    (hk' : v'.serving = some k') (hown : ∀ m ∈ k'.inbox.saved, m ∈ k.inbox.saved ∨ m.pair = p)
    (hrun : ∀ d : Desk, d.StandsFor v k → (d.run settings.backlog es').StandsFor v' k') :
    v'.AtDesk p settings where
  own k₁ hk₁ m hm := by
    obtain rfl := Option.some.inj (hk'.symm.trans hk₁)
    exact (hown m hm).elim (h.own k hk m) id
  absent hnone := absurd (hk'.symm.trans hnone) (by simp)
  desk k₁ hk₁ := by
    obtain rfl := Option.some.inj (hk'.symm.trans hk₁)
    obtain ⟨book, es, hd⟩ := h.desk k hk
    refine ⟨book, es ++ es', ?_⟩
    rw [Desk.run_append]
    exact hrun _ hd

/-- **All that happens to a pair happens at the desk of its task.** -/
theorem Moved.atDesk (hm : Moved p settings v v') (h : v.AtDesk p settings) :
    v'.AtDesk p settings := by
  cases hm with
  | stayed => exact h
  | spawned hk =>
    obtain ⟨hprocessed, hdropped⟩ := h.absent hk
    refine ⟨fun k hk => ?_, fun hnone => absurd hnone (by simp), fun k hk => ?_⟩
    · obtain rfl := Option.some.inj hk
      exact fun m hm => absurd hm List.not_mem_nil
    · obtain rfl := Option.some.inj hk
      exact ⟨_, [], Desk.standsFor_new hprocessed hdropped⟩
  | @put k m sender hk hp =>
    refine h.of_run [sender.event m] hk rfl (fun m' hm' => ?_) fun d hd => ?_
    · exact (mem_saved_put sender hm').imp_right fun heq => (congrArg Message.pair heq).trans hp
    · have hput := hd.put settings.backlog sender m
      exact { hput with }
  | recovered hk hr =>
    refine h.of_run [.resume] hk rfl (fun m' => .inl) fun d hd => ?_
    have hresumed := hd.resume settings.backlog hr
    exact { hresumed with }
  | processed hk hr hm hp =>
    refine h.of_run [.choose, .finish] hk rfl (fun m' hm' => ?_) fun d hd => ?_
    · exact .inl (Inbox.mem_saved_of_take? hm hm')
    · have hdone := hd.process settings.backlog hr hm hp
      exact { hdone with }

end Station

/-! ## The stations of an audit -/

namespace Tracker

open Message (forPair forPair_append)
open Pipeline (serving_serve_self serving_serve_of_ne)

/-- What is known of the pair `p`. -/
def station (t : Tracker) (processed : List Processing) (dropped : List Message) (p : String) :
    Station where
  serving := t.pipeline.serving p
  processed := (processed.filter (·.pair = p)).map (·.toDelivery)
  dropped := forPair p dropped

variable {t t' : Tracker} {p q : String} {settings : Tracker.Settings} {e : Event}
  {processed processed' : List Processing} {dropped dropped' : List Message}

/-- A station stays as it is where the task does, and nothing is noted for its pair. -/
theorem moved_of_eq (hs : t'.pipeline.serving p = t.pipeline.serving p)
    (hd : processed'.filter (·.pair = p) = processed.filter (·.pair = p))
    (hm : forPair p dropped' = forPair p dropped) :
    Station.Moved p settings (t.station processed dropped p)
      (t'.station processed' dropped' p) := by
  have hsame : t'.station processed' dropped' p = t.station processed dropped p := by
    simp only [station, hs, hd, hm]
  exact hsame.symm ▸ .stayed

/-- The task of a pair processes a message, or ends its pause. -/
theorem moved_processNext? (h : t.processNext? q = some t') :
    Station.Moved p settings (t.station processed dropped p)
      (t'.station (processed ++ (t.next? q).toList) dropped p) := by
  cases hn : t.next? q with
  | none =>
    obtain ⟨task, hq, hr, rfl⟩ := processNext?_of_next?_eq_none hn h
    have hserving : t.pipeline.serving q = some task.serving := congrArg (Option.map _) hq
    by_cases hp : p = q
    · subst hp
      have hstation : (t.reportDiffs p { task with recovering := false }).station
          (processed ++ []) dropped p = { t.station processed dropped p with
            serving := some { task.serving with recovering := false } } := by
        simp only [station, pipeline_reportDiffs, serving_serve_self, List.append_nil]
        rfl
      rw [Option.toList_none, hstation]
      exact .recovered hserving hr
    · refine moved_of_eq ?_ (by simp) rfl
      rw [pipeline_reportDiffs]
      exact serving_serve_of_ne hp
  | some d =>
    obtain ⟨task, m, inbox, hq, hr, htake, rfl, hstep⟩ := processNext?_of_next? hn
    obtain rfl := Option.some.inj (hstep.symm.trans h)
    have hserving : t.pipeline.serving q = some task.serving := congrArg (Option.map _) hq
    obtain ⟨s, outcome, hs⟩ : ∃ s outcome, task.synchronizer.process m = (s, outcome) :=
      ⟨_, _, rfl⟩
    have hpipeline := pipeline_process (t := t) (p := q) (m := m) { task with inbox } hr hs
    by_cases hp : p = q
    · subst hp
      have hstation : (t.process p { task with inbox } m).station
            (processed ++ [⟨⟨m, outcome⟩, p⟩]) dropped p =
          { t.station processed dropped p with
            serving := some
              { task.serving with synchronizer := s, inbox, recovering := !outcome.isOk }
            processed := (t.station processed dropped p).processed ++ [⟨m, outcome⟩] } := by
        simp only [station, hpipeline, serving_serve_self, List.filter_append, List.map_append]
        simp [PairTask.serving]
      rw [hs, Option.toList_some, hstation]
      exact .processed hserving hr htake hs
    · refine moved_of_eq ?_ (by simp [Ne.symm hp]) rfl
      rw [hpipeline]
      exact serving_serve_of_ne hp

/-- **What happens apart from calls moves the stations.** -/
theorem moved_happen? (hf : t.pipeline.Fed) (he : e.isRouting = false)
    (h : t.happen? e = some t') : Station.Moved p settings (t.station processed dropped p)
      (t'.station (processed ++ (e.processing? t).toList) dropped p) := by
  rcases happen?_cases he h with ⟨q, rfl, hq⟩ | ⟨hother, hs⟩
  · exact moved_processNext? hq
  · have hquiet (hs : t'.pipeline.serving = t.pipeline.serving) :
        Station.Moved p settings (t.station processed dropped p)
          (t'.station (processed ++ (e.processing? t).toList) dropped p) :=
      moved_of_eq (congrFun hs p) (by simp [processing?_of_ne hother]) rfl
    rcases hs with ⟨-, hl⟩ | ⟨source, schedule, rfl⟩
    · obtain ⟨f, hs, -⟩ := hf.feed
      rcases listen?_cases hs hl with ⟨m, queue, -, rfl⟩ | ⟨-, rfl⟩
      · exact hquiet (by rw [pipeline_forward]; rfl)
      · exact hquiet rfl
    · exact hquiet rfl

theorem Sender.mem_drops {capacity : Nat} {b : Inbox} {m : Message} (sender : Sender)
    (h : m ∈ sender.drops capacity b) : m ∈ b.saved := by
  cases sender with
  | router => exact absurd h List.not_mem_nil
  | saver => exact List.mem_of_mem_head? (Inbox.evicted_eq_singleton h).2.1

namespace System

variable {t₀ : Tracker} {s : System} {c : Call} {h : Holder} {m : Message} {sender : Sender}
  {i : Nat}

theorem serving_answer (accepted : Bool) :
    (s.answer m sender accepted).tracker.pipeline.serving = s.tracker.pipeline.serving := by
  cases sender <;> cases accepted <;> simp [answer]

theorem tracker_lock : (s.lock i h).tracker = s.tracker := by
  unfold lock
  split <;> rfl

/-- **A call that hands its message over moves the station of its pair.** -/
theorem moved_hand {b : Handle} (ho : s.Orderly t₀) (hc : s.calls[i]? = some (.hand m sender b))
    (hown : ∀ q k, s.tracker.pipeline.serving q = some k → ∀ m ∈ k.inbox.saved, m.pair = q) :
    Station.Moved p t₀.settings (s.tracker.station processed dropped p)
      ((s.resume i (.hand m sender b)).tracker.station processed (dropped ++ s.drops i) p) := by
  have hfounded : (Call.hand m sender b).Founded s.tracker := ho.calls _ (List.mem_of_getElem? hc)
  obtain ⟨task, hp, rfl⟩ := Option.map_eq_some_iff.mp hfounded
  have hserving : s.tracker.pipeline.serving m.pair = some task.serving :=
    congrArg (Option.map _) hp
  have hdrops : s.drops i = sender.drops t₀.settings.backlog task.inbox := by
    simp only [drops, hc, hp, if_true, ho.steady.settings]
  have hafter : (s.resume i (.hand m sender task.handle)).tracker.pipeline.serving =
      (s.tracker.pipeline.serve m.pair { task.serving with
        inbox := sender.put t₀.settings.backlog task.inbox m }).serving := by
    rw [← ho.steady.settings, ← pipeline_handTo sender hp]
    exact serving_answer true
  -- what is dropped was saved for the same pair
  have hpairs : ∀ m' ∈ s.drops i, m'.pair = m.pair := fun m' hm' =>
    hown m.pair _ hserving m' (sender.mem_drops (hdrops ▸ hm'))
  by_cases hq : p = m.pair
  · subst hq
    have hall : forPair m.pair (s.drops i) = s.drops i :=
      List.filter_eq_self.mpr fun m' hm' => decide_eq_true (hpairs m' hm')
    rw [hdrops] at hall
    have hstation : (s.resume i (.hand m sender task.handle)).tracker.station processed
          (dropped ++ s.drops i) m.pair =
        { s.tracker.station processed dropped m.pair with
          serving := some { task.serving with
            inbox := sender.put t₀.settings.backlog task.serving.inbox m }
          dropped := (s.tracker.station processed dropped m.pair).dropped ++
            sender.drops t₀.settings.backlog task.serving.inbox } := by
      simp only [station, hafter, serving_serve_self, forPair_append, hall, hdrops]
      rfl
    rw [hstation]
    exact .put sender hserving rfl
  · refine moved_of_eq ?_ rfl ?_
    · rw [hafter]
      exact serving_serve_of_ne hq
    · have hnone : forPair p (s.drops i) = [] :=
        List.filter_eq_nil_iff.mpr fun m' hm' => by simp [hpairs m' hm', Ne.symm hq]
      rw [forPair_append, hnone, List.append_nil]

/-- Calls that go on otherwise leave the stations alone. -/
theorem moved_resume (ho : s.Orderly t₀) (hc : s.calls[i]? = some c)
    (hown : ∀ q k, s.tracker.pipeline.serving q = some k → ∀ m ∈ k.inbox.saved, m.pair = q) :
    Station.Moved p t₀.settings (s.tracker.station processed dropped p)
      ((s.resume i c).tracker.station processed (dropped ++ s.drops i) p) := by
  have hquiet (hs : (s.resume i c).tracker.pipeline.serving = s.tracker.pipeline.serving)
      (hd : s.drops i = []) : Station.Moved p t₀.settings (s.tracker.station processed dropped p)
        ((s.resume i c).tracker.station processed (dropped ++ s.drops i) p) :=
    moved_of_eq (congrFun hs p) rfl (by rw [hd, List.append_nil])
  cases c with
  | check m =>
    refine hquiet ?_ (by simp only [drops, hc])
    simp only [resume]
    split
    · rfl
    · exact serving_answer false
  | find m sender =>
    refine hquiet ?_ (by simp only [drops, hc])
    simp only [resume]
    split <;> rfl
  | enter m sender =>
    refine hquiet ?_ (by simp only [drops, hc])
    simp only [resume, tracker_lock]
  | hand m sender b => exact moved_hand ho hc hown
  | replace pairs | untrack pairs => exact absurd (ho.calls _ (List.mem_of_getElem? hc)) id

/-- The call that has the lock moves the station of a pair that gets a task. -/
theorem moved_resumeHolder (ho : s.Orderly t₀) (hh : s.holder = some h) :
    Station.Moved p t₀.settings (s.tracker.station processed dropped p)
      ((s.resumeHolder h).tracker.station processed dropped p) := by
  have hquiet (hs : (s.resumeHolder h).tracker.pipeline.serving = s.tracker.pipeline.serving) :
      Station.Moved p t₀.settings (s.tracker.station processed dropped p)
        ((s.resumeHolder h).tracker.station processed dropped p) :=
    moved_of_eq (congrFun hs p) rfl rfl
  cases h with
  | recheck m sender =>
    refine hquiet ?_
    simp only [resumeHolder]
    split
    · rfl
    · exact serving_answer false
  | register m sender => exact hquiet rfl
  | spawn m sender b =>
    rcases pipeline_attach (t := s.tracker) (p := m.pair) b with hsame | ⟨hnone, book, hserve⟩
    · exact hquiet (congrArg Pipeline.serving hsame)
    · have hafter : (s.resumeHolder (.spawn m sender b)).tracker.pipeline = s.tracker.pipeline.serve
          m.pair { handle := b, synchronizer := .new m.pair t₀.settings.window book } := by
        rw [← ho.steady.settings]
        exact hserve
      by_cases hq : p = m.pair
      · subst hq
        have hstation : (s.resumeHolder (.spawn m sender b)).tracker.station processed dropped
              m.pair = { s.tracker.station processed dropped m.pair with
            serving := some
              { handle := b, synchronizer := .new m.pair t₀.settings.window book } } := by
          simp only [station, hafter, serving_serve_self]
        rw [hstation]
        exact .spawned hnone
      · refine moved_of_eq ?_ rfl rfl
        rw [hafter]
        exact serving_serve_of_ne hq
  | abort q others | remove q others => exact absurd (ho.holder _ hh) id

end System

namespace Audit

variable {t₀ : Tracker} {x : Audit}

/-- What an audit knows of the pair `p`. -/
def station (x : Audit) (p : String) : Station := x.tracker.station x.processed x.dropped p

/-- **An event moves a station in one of the ways listed, or not at all.** -/
theorem step_moved (ho : x.system.Orderly t₀)
    (hown : ∀ q k, x.tracker.pipeline.serving q = some k → ∀ m ∈ k.inbox.saved, m.pair = q)
    (e : Event) : Station.Moved p t₀.settings (x.station p) ((x.step e).station p) := by
  cases e with
  | other e =>
    simp only [Audit.step]
    split
    · refine moved_of_eq ?_ rfl rfl
      rcases System.takeUp_cases x.system with hs | ⟨r, m, queue, -, -, hs⟩ | ⟨r, -, -, -, hs⟩
      all_goals exact congrArg (·.tracker.pipeline.serving p) hs
    · rename_i he
      rw [Bool.not_eq_true] at he
      split
      · exact .stayed
      · rename_i t ht
        rw [System.step_other he ht]
        exact moved_happen? ho.steady.fed he ht
  | save m => exact .stayed
  | go i =>
    simp only [Audit.step, System.step]
    cases hc : x.system.calls[i]? with
    | none => exact moved_of_eq rfl rfl (by simp [System.drops, hc])
    | some c => exact System.moved_resume ho hc hown
  | hold =>
    simp only [Audit.step, System.step]
    cases hh : x.system.holder with
    | none => exact .stayed
    | some h => exact System.moved_resumeHolder ho hh
  | takeTrades | readTrades | dropTrades => exact .stayed

theorem atDesk_start (t₀ : Tracker) {f : Feed} (hfeed : t₀.source = .feed f) (p : String) :
    ((start t₀).station p).AtDesk p t₀.settings := by
  have hnone : ((start t₀).station p).serving = none :=
    congrFun (congrArg Pipeline.serving (pipeline_start hfeed)) p
  exact ⟨fun k hk => absurd (hnone.symm.trans hk) (by simp), fun _ => ⟨rfl, rfl⟩,
    fun k hk => absurd (hnone.symm.trans hk) (by simp)⟩

/-- **The tasks of a tracker sit at desks**, and what has been processed and dropped for a pair is
what the journal of its desk says. -/
theorem run_atDesk (t₀ : Tracker) {f : Feed} (hfeed : t₀.source = .feed f) (es : List Event)
    (p : String) : (((start t₀).run es).station p).AtDesk p t₀.settings := by
  induction es using List.reverseRecOn generalizing p with
  | nil => exact atDesk_start t₀ hfeed p
  | append_singleton es e ih =>
    rw [run_concat]
    exact (step_moved (balanced_run hfeed es).order (fun q => (ih q).own) e).atDesk (ih p)

/-- No more messages wait in a backlog than the settings allow. -/
theorem length_saved_run (t₀ : Tracker) {f : Feed} (hfeed : t₀.source = .feed f)
    (hc : 1 ≤ t₀.settings.backlog) (es : List Event) {k : Serving}
    (hk : ((start t₀).run es).tracker.pipeline.serving p = some k) :
    k.inbox.saved.length ≤ t₀.settings.backlog := by
  obtain ⟨book, es', hd⟩ := (run_atDesk t₀ hfeed es p).desk k hk
  exact hd.inbox ▸ (Desk.disciplined_run _ hc es').bounded

/-- What is processed for a pair are the process calls of one synchronizer. -/
theorem processed_run (t₀ : Tracker) {f : Feed} (hfeed : t₀.source = .feed f)
    (hc : 1 ≤ t₀.settings.backlog) (es : List Event) {k : Serving}
    (hk : ((start t₀).run es).tracker.pipeline.serving p = some k) :
    ∃ book, (((start t₀).run es).station p).processed =
      (Synchronizer.new p t₀.settings.window book).history
        ((((start t₀).run es).station p).processed.map (·.message)) := by
  obtain ⟨book, es', hd⟩ := (run_atDesk t₀ hfeed es p).desk k hk
  exact ⟨book, hd.processed ▸ (Desk.disciplined_run _ hc es').processed.1⟩

end Audit

end Tracker

end BookFeed
