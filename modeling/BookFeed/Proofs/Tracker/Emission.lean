import BookFeed.Proofs.Tracker.Handover

/-!
# What goes to the stream of trades

Only the task of a pair writes to the stream of trades, and only when it has processed a trade. This
holds of every tracker, whatever it has been through: nothing is assumed of its tasks, its calls or
its source.

* **`trades_happen?`**: what an event sends is what it processes;
* `System.trades_step`, `System.trades_takeUp`: calls send nothing.
-/

namespace BookFeed

/-- The trades among the messages that were processed, the first one first. -/
def Processing.forwarded (ds : List Processing) : List Message :=
  (ds.filter (·.isForwarded)).map (·.message)

theorem Processing.forwarded_append (ds ds' : List Processing) :
    forwarded (ds ++ ds') = forwarded ds ++ forwarded ds' := by
  rw [forwarded, List.filter_append, List.map_append]
  rfl

/-- A message goes to the stream if it became a trade. -/
theorem TradeStream.after_eq (s : TradeStream) (d : Processing) :
    s.after d.message d.outcome = (Processing.forwarded [d]).foldl send s := by
  rw [Processing.forwarded, List.filter_singleton]
  by_cases htrade : d.outcome = .ok .trade
  · rw [Processing.isForwarded, htrade]
    rfl
  · have hout : d.isForwarded = false := by
      rw [Processing.isForwarded, decide_eq_false_iff_not]
      intro hsome
      cases ho : d.outcome with
      | error e => exact absurd (ho ▸ hsome) (by simp [Except.toOption])
      | ok applied =>
        rw [ho] at hsome
        exact htrade (ho.trans (congrArg Except.ok (Option.some.inj hsome)))
    rw [hout, Pipeline.after_of_ne htrade]
    rfl

theorem TradeStream.dropped_foldl_send (s : TradeStream) (ms : List Message) :
    (ms.foldl send s).dropped = s.dropped := by
  induction ms using List.reverseRecOn with
  | nil => rfl
  | append_singleton ms m ih =>
    rw [List.foldl_concat, send]
    split
    · exact ih
    · exact ih

/-- As long as the stream is not dropped, what is sent waits in it. -/
theorem TradeStream.queue_foldl_send {s : TradeStream} (ms : List Message)
    (hs : s.dropped = false) : (ms.foldl send s).queue = s.queue ++ ms := by
  induction ms using List.reverseRecOn with
  | nil => exact (List.append_nil _).symm
  | append_singleton ms m ih =>
    have hopen := dropped_foldl_send s ms
    rw [List.foldl_concat, send, hopen, hs, if_neg Bool.false_ne_true, ih, List.append_assoc]

namespace Tracker

variable {t t' : Tracker} {p : String} {m : Message}

/-- The listener sends no trade, whatever the source is. -/
theorem trades_listen? (h : t.listen? = some t') : t'.trades = t.trades := by
  unfold listen? at h
  split at h
  · split at h
    · obtain rfl := Option.some.inj h
      rfl
    · split at h
      · obtain rfl := Option.some.inj h
        rfl
      · exact absurd h (by simp)
  · split at h
    · obtain rfl := Option.some.inj h
      rfl
    · obtain rfl := Option.some.inj h
      rfl
    · obtain rfl := Option.some.inj h
      rfl
    · simp only at h
      split at h
      all_goals
        obtain rfl := Option.some.inj h
        rfl

theorem trades_processNext? (h : t.processNext? p = some t') :
    t'.trades = (Processing.forwarded (t.next? p).toList).foldl TradeStream.send t.trades := by
  cases hn : t.next? p with
  | none =>
    obtain ⟨task, -, -, rfl⟩ := processNext?_of_next?_eq_none hn h
    exact congrArg Pipeline.trades (pipeline_reportDiffs _)
  | some d =>
    obtain ⟨task, m, inbox, -, hr, -, rfl, hstep⟩ := processNext?_of_next? hn
    obtain rfl := Option.some.inj (hstep.symm.trans h)
    have hpipeline := pipeline_process (t := t) (p := p) (m := m) { task with inbox } hr
      (Prod.mk.eta (p := task.synchronizer.process m)).symm
    have htrades := congrArg Pipeline.trades hpipeline
    exact htrades.trans (TradeStream.after_eq _ ⟨⟨m, (task.synchronizer.process m).2⟩, p⟩)

/-- **Only what a task processes goes to the stream.** -/
theorem trades_happen? {e : Event} (he : e.isRouting = false) (h : t.happen? e = some t') :
    t'.trades =
      (Processing.forwarded (e.processing? t).toList).foldl TradeStream.send t.trades := by
  rcases happen?_cases he h with ⟨p, rfl, hp⟩ | ⟨hother, hs⟩
  · exact trades_processNext? hp
  · rw [processing?_of_ne hother]
    rcases hs with ⟨-, hl⟩ | ⟨source, schedule, rfl⟩
    · exact trades_listen? hl
    · rfl

theorem trades_tally (accepted : Bool) : (t.tally accepted).trades = t.trades :=
  congrArg Pipeline.trades (pipeline_tally accepted)

theorem trades_attach (h : Handle) : (t.attach p h).1.trades = t.trades := by
  unfold attach
  split
  · rfl
  · rfl

namespace System

variable {s : System} {i : Nat}

theorem trades_answer (m : Message) (sender : Sender) (accepted : Bool) :
    (s.answer m sender accepted).tracker.trades = s.tracker.trades := by
  cases sender with
  | router =>
    cases accepted with
    | true => exact trades_tally true
    | false => exact trades_tally false
  | saver =>
    cases accepted with
    | true => rfl
    | false => rfl

theorem trades_lock (i : Nat) (h : Holder) :
    (s.lock i h).tracker.trades = s.tracker.trades := by
  unfold lock
  split
  · rfl
  · rfl

theorem trades_resume (i : Nat) (c : Call) :
    (s.resume i c).tracker.trades = s.tracker.trades := by
  cases c with
  | check m =>
    simp only [resume]
    split
    · rfl
    · exact trades_answer m .router false
  | find m sender =>
    simp only [resume]
    split
    · rfl
    · rfl
  | enter m sender => exact trades_lock i _
  | hand m sender h => exact (trades_answer m sender true).trans (trades_handTo sender h)
  | replace pairs => rfl
  | untrack pairs =>
    cases pairs with
    | nil => rfl
    | cons p others => exact trades_lock i _

theorem trades_resumeHolder (h : Holder) :
    (s.resumeHolder h).tracker.trades = s.tracker.trades := by
  cases h with
  | recheck m sender =>
    simp only [resumeHolder]
    split
    · rfl
    · exact trades_answer m sender false
  | register m sender => rfl
  | spawn m sender h => exact trades_attach h
  | abort p others => rfl
  | remove p others => rfl

/-- **Calls send nothing to the stream.** -/
theorem trades_step {e : Event} (he : ∀ e', e ≠ .other e') :
    (s.step e).tracker.trades = s.tracker.trades := by
  cases e with
  | lookup | save | update => rfl
  | go i =>
    simp only [step]
    split
    · rfl
    · exact trades_resume i _
  | hold =>
    simp only [step]
    split
    · rfl
    · exact trades_resumeHolder _
  | other e => exact absurd rfl (he e)

theorem trades_takeUp (s : System) : s.takeUp.tracker.trades = s.tracker.trades := by
  rcases takeUp_cases s with hs | ⟨r, m, queue, -, -, hs⟩ | ⟨r, -, -, -, hs⟩
  · rw [hs]
  · rw [hs]
  · rw [hs]

end System

end Tracker

end BookFeed
