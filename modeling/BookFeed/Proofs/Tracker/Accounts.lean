import BookFeed.Proofs.Tracker.Audit
import BookFeed.Proofs.Tracker.Tracking

/-!
# What is counted when something happens

`Tracker.records` is what a tracker has counted and announced, and `Pipeline.inside` the number of
messages that it holds. `Noted` says how an event changes both, and the stream of trades with them:
they change with what is sent and with what a task processes, and with nothing else.

* `records_process`: a task counts each message that it processes once;
* **`noted_happen?`**: so whatever happens apart from calls is noted;
* `steady_happen?`: the settings, the tracked pairs and the order of feed and router stay.
-/

namespace BookFeed

/-- What a tracker has counted and announced. -/
structure Records where
  exchange : String
  counters : Counters
  advisories : List Advisory

namespace Processing

/-- The counter that goes up with what came of a message. -/
def counter? (exchange : String) (d : Processing) : Option Counter :=
  match d.outcome with
  | .ok .diff | .ok .outOfOrder | .ok (.rebuilt _) => some (.diffs exchange d.pair)
  | .ok (.snapshot _) => some (.snapshots exchange d.pair)
  | .ok .trade => none
  | .ok .duplicate => some (.rejected exchange .duplicate)
  | .ok (.stale .snapshot) => some (.rejected exchange .staleSnapshot)
  | .ok (.stale _) => some (.rejected exchange .staleDiff)
  | .error _ => some (.faults "order_book_tracker")

/-- The announcement of a fault. -/
def advisory? (t : Tracker) (d : Processing) : Option Advisory :=
  match d.outcome with
  | .ok _ => none
  | .error e =>
    some ⟨"order_book_tracker",
      t.faultText ("processing order book messages for " ++ d.pair), e.message⟩

end Processing

/-- The records with one message more. -/
def Records.enter (r : Records) (t : Tracker) (d : Processing) : Records :=
  { r with
    counters := (d.counter? r.exchange).elim r.counters r.counters.increment
    advisories := r.advisories ++ (d.advisory? t).toList }

namespace Pipeline

/-- The messages that wait for the tasks of pairs. -/
def held (c : Pipeline) : Nat :=
  ∑ p ∈ c.tracked.pairs.toFinset, (c.serving p).elim 0 (·.inbox.size)

/-- The messages that are in the feed, at the router or in an inbox. -/
def inside (c : Pipeline) : Nat := c.waiting.length + c.routing.length + c.held

variable {c c' : Pipeline} {p : String} {k : Serving} {m : Message}

theorem held_serve (hp : c.tracked.contains p = true) :
    (c.serve p k).held + (c.serving p).elim 0 (·.inbox.size) = c.held + k.inbox.size :=
  sum_serving_serve (·.inbox.size) hp

theorem inside_serve (hp : c.tracked.contains p = true) :
    (c.serve p k).inside + (c.serving p).elim 0 (·.inbox.size) = c.inside + k.inbox.size := by
  have h := held_serve (k := k) hp
  show c.waiting.length + c.routing.length + (c.serve p k).held + _ = _
  unfold inside
  omega

theorem inside_forwarded {f : Feed} {queue : List Message} (hs : c.source = .feed f)
    (hr : c.queue ≠ none) (hq : f.queue = m :: queue) :
    ({ c with source := .feed { f with queue }, queue := c.queue.map (· ++ [m]) } :
      Pipeline).inside = c.inside := by
  obtain ⟨waits, hwaits⟩ := Option.ne_none_iff_exists'.mp hr
  have hwaiting : c.waiting = m :: queue := by rw [waiting, hs, ← hq]
  have hrouting : c.routing = waits := by rw [routing, hwaits, Option.getD_some]
  show queue.length + ((c.queue.map (· ++ [m])).getD []).length + c.held = c.inside
  rw [inside, hwaiting, hrouting, hwaits, Option.map_some, Option.getD_some, List.length_append,
    List.length_cons, List.length_cons, List.length_nil]
  omega

/-- There is a feed. Who does not listen has taken everything from it, and without a router nobody
listens. -/
structure Fed (c : Pipeline) : Prop where
  feed : ∃ f, c.source = .feed f ∧ (c.listening = false → f.queue = [] ∧ f.closed = true)
  router : c.queue = none → c.listening = false

/-- **A task leaves the settings, the tracked pairs and the order of the feed and the router.** -/
theorem Moved.steady (h : Moved c c') (hc : c.Fed) :
    c'.settings = c.settings ∧ c'.tracked = c.tracked ∧ c'.Fed := by
  cases h with
  | forwarded hs hl hq =>
    refine ⟨rfl, rfl, ⟨_, rfl, fun hl' => absurd (hl.symm.trans hl') (by decide)⟩, fun hnone => ?_⟩
    exact hc.router (Option.map_eq_none_iff.mp hnone)
  | finished hs hl hq hclosed => exact ⟨rfl, rfl, ⟨_, hs, fun _ => ⟨hq, hclosed⟩⟩, fun _ => rfl⟩
  | delivered hq | opened hq | rejected hq =>
    exact ⟨rfl, rfl, hc.feed, fun hnone => absurd hnone (Option.some_ne_none _)⟩
  | closed hq hl => exact ⟨rfl, rfl, hc.feed, fun _ => hl⟩
  | recovered | processed => exact ⟨rfl, rfl, hc.feed, hc.router⟩

end Pipeline

namespace Tracker

variable {t t' : Tracker} {p : String} {m : Message} {task : PairTask} {e : Event}

def records (t : Tracker) : Records := ⟨t.exchange, t.counters, t.advisories.sent⟩

/-! ## What is not counted -/

@[simp] theorem records_wake (name : TaskName) : (t.wake name).records = t.records := rfl

@[simp] theorem records_backOff (name : TaskName) : (t.backOff name).records = t.records := rfl

@[simp] theorem records_setPair : (t.setPair p task).records = t.records := rfl

@[simp] theorem records_reportDiffs : (t.reportDiffs p task).records = t.records := by
  unfold reportDiffs
  split <;> rfl

@[simp] theorem records_reportRouted (r : Router) : (t.reportRouted r).records = t.records := by
  unfold reportRouted
  split <;> rfl

@[simp] theorem records_forward : (t.forward m).records = t.records := rfl

@[simp] theorem records_changeFeed (f : Feed → Feed) : (t.changeFeed f).records = t.records := by
  obtain ⟨source, schedule, hchanged⟩ := changeFeed_eq t f
  rw [hchanged]
  rfl

@[simp] theorem records_tally (accepted : Bool) : (t.tally accepted).records = t.records := by
  unfold tally
  split
  · rfl
  · split
    · exact records_reportRouted _
    · exact records_reportRouted _

theorem records_handTo (sender : Sender) (h : Handle) :
    (t.handTo m sender h).records = t.records := by
  unfold handTo
  split
  · rfl
  · split <;> rfl

theorem records_attach (h : Handle) : (t.attach p h).1.records = t.records := by
  unfold attach
  split <;> rfl

/-! ## What is counted -/

/-- **A task counts each message that it processes once, and announces it if it was a fault.** -/
theorem records_process : (t.process p task m).records =
    t.records.enter t ⟨⟨m, (task.synchronizer.process m).2⟩, p⟩ := by
  unfold process
  cases hp : task.synchronizer.process m with
  | mk s outcome =>
    cases outcome with
    | error e => rfl
    | ok applied =>
      have hnone (a : List Advisory) : a = a ++ [] := (List.append_nil a).symm
      simp only [records_reportDiffs]
      cases applied with
      | stale kind => cases kind <;> exact congrArg (Records.mk _ _) (hnone _)
      | diff | outOfOrder | rebuilt | snapshot | trade | duplicate =>
        exact congrArg (Records.mk _ _) (hnone _)

theorem listen?_cases {f : Feed} (hs : t.source = .feed f) (h : t.listen? = some t') :
    (∃ m queue, f.queue = m :: queue ∧
      t' = ({ t with source := .feed { f with queue } } : Tracker).forward m) ∨
    (f.queue = [] ∧ t' = t.endListener) := by
  unfold listen? at h
  simp only [hs] at h
  split at h
  · rename_i m queue hq
    exact .inl ⟨m, queue, hq, (Option.some.inj h).symm⟩
  · rename_i hq
    split at h
    · exact .inr ⟨hq, (Option.some.inj h).symm⟩
    · exact absurd h (by simp)

/-- What an event does to the accounts. -/
structure Noted (e : Event) (t t' : Tracker) : Prop where
  inside : t'.pipeline.inside + (e.processing? t).toList.length =
    t.pipeline.inside + e.sent?.toList.length
  records : t'.records = (e.processing? t).elim t.records (t.records.enter t)
  trades : t'.trades = (e.processing? t).elim t.trades fun d => t.trades.after d.message d.outcome

theorem Noted.quiet (hp : t'.pipeline.inside = t.pipeline.inside) (hr : t'.records = t.records)
    (ht : t'.trades = t.trades) (hd : e.processing? t = none) (hs : e.sent? = none) :
    Noted e t t' := by
  refine ⟨?_, ?_, ?_⟩
  · rw [hd, hs, hp]
    rfl
  · rw [hd, hr]
    rfl
  · rw [hd, ht]
    rfl

theorem inside_changeFeed {f : Feed} (g : Feed → Feed) (hs : t.source = .feed f) :
    (t.changeFeed g).pipeline.inside + f.queue.length =
      t.pipeline.inside + (g f).queue.length := by
  have hwaiting : t.pipeline.waiting = f.queue := by
    rw [Pipeline.waiting, show t.pipeline.source = .feed f from hs]
  rw [pipeline_changeFeed g hs]
  show (g f).queue.length + t.pipeline.routing.length + t.pipeline.held + _ = _
  rw [Pipeline.inside, hwaiting]
  omega

theorem trades_changeFeed (g : Feed → Feed) : (t.changeFeed g).trades = t.trades := by
  obtain ⟨source, schedule, hchanged⟩ := changeFeed_eq t g
  rw [hchanged]

/-- The listener takes a message from the feed to the router, or ends. -/
theorem noted_listen? (hf : t.pipeline.Fed) (hl : t.listening = true) (h : t.listen? = some t') :
    Noted (.turn .listener) t t' := by
  obtain ⟨f, hs, -⟩ := hf.feed
  have hrouter : t.pipeline.queue ≠ none := fun hnone =>
    absurd (hl.symm.trans (hf.router hnone)) (by decide)
  rcases listen?_cases hs h with ⟨m, queue, hq, rfl⟩ | ⟨-, rfl⟩
  · refine .quiet ?_ rfl rfl rfl rfl
    rw [pipeline_forward]
    exact Pipeline.inside_forwarded hs hrouter hq
  · exact .quiet rfl rfl rfl rfl rfl

/-- A task that processes a message takes it from its inbox. -/
theorem inside_process {inbox : Inbox} (ht : t.pipeline.tracked.contains p = true)
    (hk : t.pipeline.serving p = some task.serving) (hr : task.recovering = false)
    (htake : task.inbox.take? = some (m, inbox)) :
    (t.process p { task with inbox } m).pipeline.inside + 1 = t.pipeline.inside := by
  cases hp : task.synchronizer.process m with
  | mk s outcome =>
    have hinside := Pipeline.inside_serve
      (c := { t.pipeline with
        registry := t.registry.write task.handle fun _ => s.book
        trades := t.trades.after m outcome })
      (k := { task.serving with inbox, synchronizer := s, recovering := !outcome.isOk }) ht
    have hsize := Inbox.size_take? htake
    rw [hk, Option.elim_some, show task.serving.inbox.size = inbox.size + 1 from hsize] at hinside
    rw [pipeline_process { task with inbox } hr hp]
    exact Nat.add_right_cancel ((Nat.add_right_comm _ _ _).trans hinside)

/-- The task of a pair processes a message, or ends its pause. -/
theorem noted_processNext?
    (hserved : ∀ p, t.pipeline.serving p ≠ none → t.pipeline.tracked.contains p = true)
    (h : t.processNext? p = some t') : Noted (.turn (.pair p)) t t' := by
  have hserving : ∀ {task}, t.pair? p = some task → t.pipeline.serving p = some task.serving :=
    fun hp => congrArg (Option.map PairTask.serving) hp
  cases hn : t.next? p with
  | none =>
    obtain ⟨task, hp, -, rfl⟩ := processNext?_of_next?_eq_none hn h
    have hinside := Pipeline.inside_serve (k := { task.serving with recovering := false })
      (hserved p (by simp [hserving hp]))
    refine .quiet ?_ records_reportDiffs (congrArg Pipeline.trades (pipeline_reportDiffs _)) hn rfl
    rw [pipeline_reportDiffs]
    rw [hserving hp] at hinside
    exact Nat.add_right_cancel hinside
  | some d =>
    obtain ⟨task, m, inbox, hp, hr, htake, rfl, hstep⟩ := processNext?_of_next? hn
    obtain rfl := Option.some.inj (hstep.symm.trans h)
    refine ⟨?_, ?_, ?_⟩
    · rw [Event.processing?, hn]
      exact inside_process (hserved p (by simp [hserving hp])) (hserving hp) hr htake
    · rw [Event.processing?, hn]
      exact records_process
    · rw [Event.processing?, hn]
      have hpipeline := pipeline_process (t := t) (p := p) (m := m) { task with inbox } hr
        (Prod.mk.eta (p := task.synchronizer.process m)).symm
      exact congrArg Pipeline.trades hpipeline

/-- **Whatever happens apart from calls, the accounts stay in order.** -/
theorem noted_happen? (hf : t.pipeline.Fed)
    (hserved : ∀ p, t.pipeline.serving p ≠ none → t.pipeline.tracked.contains p = true)
    (he : e.isRouting = false) (h : t.happen? e = some t') : Noted e t t' := by
  cases e with
  | send m =>
    simp only [happen?] at h
    split at h
    · obtain rfl := Option.some.inj h
      obtain ⟨f, hs, -⟩ := hf.feed
      have hinside := inside_changeFeed (·.send m) hs
      have hqueue : (f.send m).queue.length = f.queue.length + 1 := List.length_append
      refine ⟨?_, records_changeFeed _, trades_changeFeed _⟩
      show (t.changeFeed (·.send m)).pipeline.inside + 0 = t.pipeline.inside + 1
      omega
    · exact absurd h (by simp)
  | closeFeed =>
    obtain rfl := Option.some.inj h
    obtain ⟨f, hs, -⟩ := hf.feed
    have hinside := inside_changeFeed Feed.close hs
    exact .quiet (Nat.add_right_cancel hinside) (records_changeFeed _) (trades_changeFeed _) rfl rfl
  | turn name =>
    simp only [happen?, step?] at h
    split at h
    · exact absurd h (by simp)
    · cases name with
      | listener =>
        simp only at h
        split at h
        · rename_i hl
          exact noted_listen? hf hl h
        · exact absurd h (by simp)
      | router => exact absurd he.symm Bool.false_ne_true
      | pair p => exact noted_processNext? hserved h
  | yield =>
    obtain rfl := Option.some.inj h
    exact .quiet rfl rfl rfl rfl rfl
  | pass time =>
    simp only [happen?] at h
    split at h
    · obtain rfl := Option.some.inj h
      exact .quiet rfl rfl rfl rfl rfl
    · exact absurd h (by simp)
  | ring =>
    obtain rfl := Option.some.inj h
    exact .quiet rfl rfl rfl rfl rfl

/-- What stays while pairs stay tracked and nobody stops the tracker. -/
structure Steady (t₀ t : Tracker) : Prop where
  exchange : t.exchange = t₀.exchange
  settings : t.settings = t₀.settings
  tracked : t.tracked = t₀.tracked
  fed : t.pipeline.Fed

variable {t₀ : Tracker}

/-- Tasks and books do not matter for it. -/
theorem Steady.of_frame (h : Steady t₀ t) (hr : t'.records.exchange = t.records.exchange)
    (hp : ∃ serving registry trades, t'.pipeline = { t.pipeline with serving, registry, trades }) :
    Steady t₀ t' := by
  obtain ⟨serving, registry, trades, hp⟩ := hp
  refine ⟨hr.trans h.exchange, ?_, ?_, ?_⟩
  · exact (congrArg Pipeline.settings hp).trans h.settings
  · exact (congrArg Pipeline.tracked hp).trans h.tracked
  · rw [hp]
    exact ⟨h.fed.feed, h.fed.router⟩

theorem Steady.changeFeed (h : Steady t₀ t) (g : Feed → Feed)
    (hg : ∀ f, t.source = .feed f → t.listening = false → (g f).queue = [] ∧ (g f).closed = true) :
    Steady t₀ (t.changeFeed g) := by
  obtain ⟨f, hs, -⟩ := h.fed.feed
  have hp := pipeline_changeFeed g hs
  refine ⟨?_, ?_, ?_, ?_⟩
  · exact (congrArg Records.exchange (records_changeFeed g)).trans h.exchange
  · exact (congrArg Pipeline.settings hp).trans h.settings
  · exact (congrArg Pipeline.tracked hp).trans h.tracked
  · rw [hp]
    exact ⟨⟨g f, rfl, hg f hs⟩, h.fed.router⟩

theorem steady_happen? (hsteady : Steady t₀ t)
    (hserved : ∀ p, t.pipeline.serving p ≠ none → t.pipeline.tracked.contains p = true)
    (he : e.isRouting = false) (h : t.happen? e = some t') : Steady t₀ t' := by
  obtain ⟨f, hs, hends⟩ := hsteady.fed.feed
  cases e with
  | send m =>
    simp only [happen?] at h
    split at h
    · rename_i hopen
      obtain rfl := Option.some.inj h
      refine hsteady.changeFeed _ fun f' hs' hl => ?_
      -- to an open feed somebody listens
      obtain rfl := Source.feed.inj (hs.symm.trans hs')
      simp only [isOpen, hs', (hends hl).2] at hopen
      exact absurd hopen Bool.false_ne_true
    · exact absurd h (by simp)
  | closeFeed =>
    obtain rfl := Option.some.inj h
    refine hsteady.changeFeed _ fun f' hs' hl => ?_
    obtain rfl := Source.feed.inj (hs.symm.trans hs')
    exact ⟨(hends hl).1, rfl⟩
  | turn name =>
    obtain ⟨hset, htracked, hfed⟩ := (step?_moved hs h).steady hsteady.fed
    have hrecords := (noted_happen? hsteady.fed hserved he h).records
    refine ⟨?_, hset.trans hsteady.settings, htracked.trans hsteady.tracked, hfed⟩
    refine (congrArg Records.exchange hrecords).trans ?_
    cases Event.processing? t (.turn name) with
    | none => exact hsteady.exchange
    | some d => exact hsteady.exchange
  | yield =>
    obtain rfl := Option.some.inj h
    exact hsteady.of_frame rfl ⟨_, _, _, rfl⟩
  | pass time =>
    simp only [happen?] at h
    split at h
    · obtain rfl := Option.some.inj h
      exact hsteady.of_frame rfl ⟨_, _, _, rfl⟩
    · exact absurd h (by simp)
  | ring =>
    obtain rfl := Option.some.inj h
    exact hsteady.of_frame rfl ⟨_, _, _, rfl⟩

end Tracker

end BookFeed
